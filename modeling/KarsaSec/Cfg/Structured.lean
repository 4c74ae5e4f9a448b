import KarsaSec.Cfg.Model

/-!
# Structured statements and their execution

What a nested statement list means, independently of any graph. The classification of statements is a
parameter `κ`.

* `occurrences` lists every statement of a list with those nested in it, `live` what is not behind a
  terminator of its own list; `Required` collects the live statements of a list and of the lists nested
  in it.
* `Exec` is structured execution: a trace of statements, and whether it ended in a terminator.
* `Run` reads a trace along the edges of a graph; `Faithful` is what a graph owes to its statements.
* `Flat`: no list inside a branch or loop nests any further.
-/

namespace KarsaSec.Cfg

open KarsaSec.Found

variable (κ : Stmt → StmtKind)

/-! ## Nesting -/

/-- The lists nested directly in a statement. Kind: D -/
def subLists (s : Stmt) : List (List Stmt) :=
  match κ s with
  | .branch => [s.onTrue, s.onFalse]
  | .loop => [s.body]
  | _ => []

mutual

/-- A statement with those nested in it. Kind: D -/
def occurrencesOf : Stmt → List Stmt
  | .mk tag kind text condition onTrue onFalse body =>
    let s := Stmt.mk tag kind text condition onTrue onFalse body
    s :: if κ s = .branch then occurrences onTrue ++ occurrences onFalse
      else if κ s = .loop then occurrences body else []

/-- The statements of a list with those nested in them. Kind: D -/
def occurrences : List Stmt → List Stmt
  | [] => []
  | s :: rest => occurrencesOf s ++ occurrences rest

end

/-- The statements of a list that no terminator of the list precedes. Kind: D -/
def live : List Stmt → List Stmt
  | [] => []
  | s :: rest => if κ s = .exit then [s] else s :: live rest

/-- `m` is `l` or a list nested in it. Kind: D -/
inductive NestedList : List Stmt → List Stmt → Prop
  | here (l : List Stmt) : NestedList l l
  | inside {m l' l : List Stmt} {s : Stmt} (hs : s ∈ l) (hl : l' ∈ subLists κ s)
      (h : NestedList m l') : NestedList m l

/-- No terminator precedes the statement in its own list. Kind: C -/
def Required (l : List Stmt) (s : Stmt) : Prop := ∃ m, NestedList κ m l ∧ s ∈ live κ m

/-! ## Execution -/

/-- Structured execution of a list: the trace of statements, and whether a terminator ended it. Every
condition may come out either way; a round of a loop that runs no statement leaves no trace. Kind: D -/
inductive Exec : List Stmt → List Stmt → Bool → Prop
  | nil : Exec [] [] false
  | exit {s : Stmt} {rest : List Stmt} (hk : κ s = .exit) : Exec (s :: rest) [s] true
  | plain {s : Stmt} {rest t : List Stmt} {b : Bool} (hk : κ s = .plain) (h : Exec rest t b) :
      Exec (s :: rest) (s :: t) b
  | branch {s : Stmt} {rest m t t' : List Stmt} {b : Bool} (hk : κ s = .branch)
      (hm : m = s.onTrue ∨ m = s.onFalse) (h : Exec m t false) (h' : Exec rest t' b) :
      Exec (s :: rest) (s :: (t ++ t')) b
  | branchExit {s : Stmt} {rest m t : List Stmt} (hk : κ s = .branch)
      (hm : m = s.onTrue ∨ m = s.onFalse) (h : Exec m t true) : Exec (s :: rest) (s :: t) true
  | loopDone {s : Stmt} {rest t : List Stmt} {b : Bool} (hk : κ s = .loop) (h : Exec rest t b) :
      Exec (s :: rest) (s :: t) b
  | loopRound {s : Stmt} {rest t t' : List Stmt} {b : Bool} (hk : κ s = .loop)
      (h : Exec s.body t false) (hne : t ≠ []) (h' : Exec (s :: rest) t' b) :
      Exec (s :: rest) (s :: (t ++ t')) b
  | loopExit {s : Stmt} {rest t : List Stmt} (hk : κ s = .loop) (h : Exec s.body t true) :
      Exec (s :: rest) (s :: t) true

/-- Reading a trace in a graph, from a place in a block to the exit block: the statements of a block in
order, then an edge. Kind: D -/
inductive Run (st : String → List Stmt) (edges : List CFGEdge) (exitId : String) :
    String → ℕ → List Stmt → Prop
  | done {k : ℕ} (hk : k = (st exitId).length) : Run st edges exitId exitId k []
  | read {b : String} {k : ℕ} {s : Stmt} {t : List Stmt} (hs : (st b)[k]? = some s)
      (h : Run st edges exitId b (k + 1) t) : Run st edges exitId b k (s :: t)
  | move {b : String} {k : ℕ} {e : CFGEdge} {t : List Stmt} (hk : k = (st b).length)
      (he : e ∈ edges) (hsrc : e.srcId = b) (h : Run st edges exitId e.targetId 0 t) :
      Run st edges exitId b k t

/-- The statements placed in the blocks of a graph. Kind: D -/
def placed (blocks : Dict String BasicBlock) : List Stmt := blocks.values.flatMap BasicBlock.statements

/-- What a graph owes to the statements it is built from: each required statement is in exactly one
place, each execution can be read from the entry to the exit, and what executions reach is in a block
that is marked as reachable. Kind: C -/
structure Faithful (stmts : List Stmt) (cfg : ControlFlowGraph) : Prop where
  once : ∀ s, Required κ stmts s → (placed cfg.blocks).filter (fun x => x.tag = s.tag) = [s]
  ordered : ∀ t b, Exec κ stmts t b → Run cfg.statements cfg.edges cfg.exitId cfg.entryId 0 t
  reached : ∀ t b s, Exec κ stmts t b → s ∈ t →
    ∃ blockId ∈ cfg.reachableBlocks, s ∈ cfg.statements blockId

/-- Inside branches and loops nothing is nested, and no branch stands before the first terminator.
Kind: C -/
def Flat (stmts : List Stmt) : Prop :=
  ∀ s ∈ stmts, ∀ m ∈ subLists κ s,
    (∀ x ∈ m, ∀ m' ∈ subLists κ x, m' = []) ∧ ∀ x ∈ live κ m, κ x ≠ .branch

end KarsaSec.Cfg
