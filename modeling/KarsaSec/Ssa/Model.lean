import KarsaSec.Found.Dict
import KarsaSec.Found.Text

/-!
# Functions and their graphs

The universal IR of a function, and the graph that `analysis/cfg/builder.py` makes of it.

* `IRStatement` has branches and loops with lists of statements nested in them.
* `Place` is the identifier of a node; its text starts with the identifier of the function. `Place.text_injective`: places
  may stand for their texts.
* `pieces` groups the statements as the loop of the builder takes them, and `buildCfg` adds a piece after the other. What is
  nested in a branch or loop stays a list in its node.
-/

namespace KarsaSec.Ssa

open KarsaSec.Found

/-! ## Statements -/

/-- Source: `ir/nodes.py`, `IRAssignment`; an expression by its text. Kind: D -/
structure IRAssignment where
  id : String
  lineNumber : ℤ
  target : String
  valueExpression : String
  operator : String := "="

/-- Source: `ir/nodes.py`, `IRStatement`. Kind: D -/
inductive IRStatement
  | assignment (a : IRAssignment)
  | call (lineNumber : ℤ)
  | branch (lineNumber : ℤ) (conditionExpr : String) (thenStatements elseStatements : List IRStatement)
  | loop (lineNumber : ℤ) (loopType : String) (bodyStatements : List IRStatement)
  | ret (lineNumber : ℤ) (valueExpression : String)
  | other (lineNumber : ℤ)

namespace IRStatement

def lineNumber : IRStatement → ℤ
  | assignment a => a.lineNumber
  | call line => line
  | branch line _ _ _ => line
  | loop line _ _ => line
  | ret line _ => line
  | other line => line

/-- `isinstance(stmt, IRAssignment)`. Kind: D -/
def assignment? : IRStatement → Option IRAssignment
  | assignment a => some a
  | _ => none

end IRStatement

mutual

/-- The assignments of a statement, however deeply nested. Kind: D -/
def assignmentsIn : IRStatement → List IRAssignment
  | .assignment a => [a]
  | .branch _ _ thens elses => allAssignments thens ++ allAssignments elses
  | .loop _ _ body => allAssignments body
  | .call _ => []
  | .ret _ _ => []
  | .other _ => []

/-- The assignments of a list, however deeply nested. Kind: D -/
def allAssignments : List IRStatement → List IRAssignment
  | [] => []
  | s :: rest => assignmentsIn s ++ allAssignments rest

end

/-- The assignments that stand in a list itself. Kind: D -/
def directAssignments (stmts : List IRStatement) : List IRAssignment := stmts.filterMap IRStatement.assignment?

/-- Source: `ir/nodes.py`, `IRFunction`. Kind: D -/
structure IRFunction where
  id : String
  lineNumber : ℤ
  filePath : String
  name : String
  bodyStatements : List IRStatement

/-! ## Graphs -/

/-- What the identifier of a node says besides the function. Source: `analysis/cfg/builder.py`. Kind: D -/
inductive Place
  | entry
  | exit
  | stmt (line : ℤ) (idx : ℕ)
  | branch (line : ℤ)
  | thenArm (line : ℤ)
  | elseArm (line : ℤ)
  | merge (line : ℤ)
  | loop (line : ℤ)
  | body (line : ℤ)
  | loopExit (line : ℤ)
  | ret (line : ℤ)
  deriving DecidableEq

namespace Place

/-- The parts of an identifier behind that of the function. Kind: D -/
def parts : Place → List String
  | entry => ["ENTRY"]
  | exit => ["EXIT"]
  | stmt line idx => ["stmt", toString line, toString idx]
  | branch line => ["if", toString line]
  | thenArm line => ["if", toString line, "then"]
  | elseArm line => ["if", toString line, "else"]
  | merge line => ["if", toString line, "merge"]
  | loop line => ["loop", toString line]
  | body line => ["loop", toString line, "body"]
  | loopExit line => ["loop", toString line, "exit"]
  | ret line => ["return", toString line]

/-- The identifier of a node. Source: `analysis/cfg/builder.py`, `stmt_id`, `if_id`, `loop_id` and so on. Kind: D -/
def text (cfgId : String) (place : Place) : String := cfgId ++ String.join (place.parts.map fun part => "::" ++ part)

theorem toList_joined : ∀ ps : List String,
    (String.join (ps.map fun part => "::" ++ part)).toList = ps.flatMap fun part => ':' :: ':' :: part.toList
  | [] => rfl
  | p :: ps => by
    rw [List.map_cons, String.join_cons, String.toList_append, String.toList_append, toList_joined ps, List.flatMap_cons]
    rfl

/-- Parts without colons can be told apart again. Kind: L -/
theorem joined_inj : ∀ {ps qs : List String}, (∀ p ∈ ps, ':' ∉ p.toList) → (∀ q ∈ qs, ':' ∉ q.toList) →
    (ps.flatMap fun part => ':' :: ':' :: part.toList) = (qs.flatMap fun part => ':' :: ':' :: part.toList) → ps = qs
  | [], [], _, _, _ => rfl
  | [], _ :: _, _, _, h => by cases h
  | _ :: _, [], _, _, h => by cases h
  | p :: ps, q :: qs, hp, hq, h => by
    rw [List.flatMap_cons, List.flatMap_cons, List.cons_append, List.cons_append, List.cons_append, List.cons_append] at h
    have htail := (List.cons.inj (List.cons.inj h).2).2
    -- a part ends at the next colon; one more behind everything makes sure that there is one
    have hcut : ∀ l : List String, ∃ rest, (l.flatMap fun part => ':' :: ':' :: part.toList) ++ [':'] = ':' :: rest := by
      rintro (_ | ⟨r, l⟩)
      · exact ⟨[], rfl⟩
      · exact ⟨_, rfl⟩
    obtain ⟨x, hx⟩ := hcut ps
    obtain ⟨y, hy⟩ := hcut qs
    have hclosed := congrArg (· ++ [':']) htail
    simp only [List.append_assoc] at hclosed
    rw [hx, hy] at hclosed
    obtain ⟨hpq, -⟩ := append_sep_inj (hp p List.mem_cons_self) (hq q List.mem_cons_self) hclosed
    have hrest := joined_inj (fun r hr => hp r (List.mem_cons_of_mem _ hr)) (fun r hr => hq r (List.mem_cons_of_mem _ hr))
      (List.append_cancel_left (hpq ▸ htail))
    rw [String.toList_injective hpq, hrest]

theorem colon_not_mem_parts (place : Place) : ∀ part ∈ place.parts, ':' ∉ part.toList := by
  have hint := colon_not_mem_int
  have hnat := colon_not_mem_nat
  cases place <;>
    simp only [parts, List.forall_mem_cons, List.not_mem_nil, false_implies, implies_true, and_true]
  case entry | exit => decide
  case stmt => exact ⟨by decide, hint _, hnat _⟩
  case branch | loop | ret => exact ⟨by decide, hint _⟩
  case thenArm | elseArm | merge | body | loopExit => exact ⟨by decide, hint _, by decide⟩

theorem parts_injective : Function.Injective parts := by
  intro p q h
  cases p <;> cases q <;>
    simp only [parts, List.cons.injEq, reduceCtorEq, and_true, true_and, and_false, false_and, String.reduceEq] at h
  all_goals first
    | rfl
    | rw [toString_int_inj h]
    | rw [toString_int_inj h.1, toString_nat_inj h.2]

/-- **Different places of a function have different identifiers.** Source: `analysis/cfg/builder.py`. Kind: L -/
theorem text_injective (cfgId : String) : Function.Injective (text cfgId) := by
  intro p q h
  have hchars := congrArg String.toList h
  unfold text at hchars
  rw [String.toList_append, String.toList_append, toList_joined, toList_joined] at hchars
  exact parts_injective (joined_inj (colon_not_mem_parts p) (colon_not_mem_parts q) (List.append_cancel_left hchars))

end Place

/-- Source: `analysis/cfg/models.py`, `CFGNodeType`. Kind: D -/
inductive CFGNodeType
  | entry | statement | condition | loop | ret | exit
  deriving DecidableEq

/-- Source: `analysis/cfg/models.py`, `CFGEdgeType`. Kind: D -/
inductive CFGEdgeType
  | normal | trueBranch | falseBranch | loopBack | returnEdge

/-- Only the label of a condition is ever read; that of a block of statements is left out.
Source: `analysis/cfg/models.py`, `CFGNode`
Kind: D -/
structure CFGNode where
  nodeType : CFGNodeType
  lineNumber : ℤ
  statements : List IRStatement := []
  label : String := ""

/-- Source: `analysis/cfg/models.py`, `CFGEdge`. Kind: D -/
structure CFGEdge where
  sourceId : Place
  targetId : Place
  edgeType : CFGEdgeType := .normal
  conditionText : String := ""

/-- Source: `analysis/cfg/models.py`, `CFG`. Kind: D -/
structure CFG where
  cfgId : String
  functionName : String
  filePath : String
  nodes : Dict Place CFGNode := .empty
  edges : List CFGEdge := []

namespace CFG

/-- Source: `analysis/cfg/models.py`, `CFG.add_node`. Kind: D -/
def addNode (cfg : CFG) (place : Place) (node : CFGNode) : CFG := { cfg with nodes := cfg.nodes.set place node }

/-- Source: `analysis/cfg/models.py`, `CFG.add_edge`. Kind: D -/
def addEdge (cfg : CFG) (sourceId targetId : Place) (edgeType : CFGEdgeType := .normal) (conditionText : String := "") :
    CFG :=
  { cfg with edges := cfg.edges ++ [⟨sourceId, targetId, edgeType, conditionText⟩] }

end CFG

/-! ## The builder -/

/-- What one turn of the loop takes: contiguous assignments and calls, or one other statement.
Source: `analysis/cfg/builder.py`, `_build_statements_cfg`
Kind: D -/
inductive Piece
  | block (stmts : List IRStatement)
  | branch (line : ℤ) (conditionExpr : String) (thens elses : List IRStatement)
  | loop (line : ℤ) (loopType : String) (body : List IRStatement)
  | ret (line : ℤ) (valueExpression : String)
  | skip

namespace Piece

/-- The number of statements that a piece takes. Kind: D -/
def length : Piece → ℕ
  | block stmts => stmts.length
  | _ => 1

/-- An assignment or call joins the block behind it. Kind: D -/
def pushBasic (s : IRStatement) : List Piece → List Piece
  | block stmts :: rest => block (s :: stmts) :: rest
  | rest => block [s] :: rest

end Piece

/-- Source: `analysis/cfg/builder.py`, `_build_statements_cfg`, the cases of the loop. Kind: D -/
def pieces : List IRStatement → List Piece
  | [] => []
  | .assignment a :: rest => Piece.pushBasic (.assignment a) (pieces rest)
  | .call line :: rest => Piece.pushBasic (.call line) (pieces rest)
  | .branch line condition thens elses :: rest => .branch line condition thens elses :: pieces rest
  | .loop line loopType body :: rest => .loop line loopType body :: pieces rest
  | .ret line value :: rest => .ret line value :: pieces rest
  | .other _ :: rest => .skip :: pieces rest

/-- The line of the first statement of a block. Kind: D -/
def firstLine (stmts : List IRStatement) : ℤ := (stmts.head?.map IRStatement.lineNumber).getD 1

/-- One turn of the loop, with the index behind the piece: the graph and where it goes on.
Source: `analysis/cfg/builder.py`, `_build_statements_cfg`
Kind: D -/
def buildPiece (idx : ℕ) (p : Piece) (prev : Place) (cfg : CFG) : CFG × Place :=
  match p with
  | .block stmts =>
    let line := firstLine stmts
    let cfg := cfg.addNode (.stmt line idx) { nodeType := .statement, lineNumber := line, statements := stmts }
    (cfg.addEdge prev (.stmt line idx), .stmt line idx)
  | .branch line condition thens elses =>
    let cfg := cfg.addNode (.branch line)
      { nodeType := .condition, lineNumber := line, label := "If (" ++ condition ++ ")" }
    let cfg := cfg.addEdge prev (.branch line)
    let cfg := cfg.addNode (.thenArm line)
      { nodeType := .statement, lineNumber := line, statements := thens, label := "Then Branch" }
    let cfg := cfg.addEdge (.branch line) (.thenArm line) .trueBranch "True"
    let cfg := cfg.addNode (.elseArm line)
      { nodeType := .statement, lineNumber := line, statements := elses, label := "Else Branch" }
    let cfg := cfg.addEdge (.branch line) (.elseArm line) .falseBranch "False"
    let cfg := cfg.addNode (.merge line) { nodeType := .statement, lineNumber := line, label := "Merge" }
    let cfg := cfg.addEdge (.thenArm line) (.merge line)
    (cfg.addEdge (.elseArm line) (.merge line), .merge line)
  | .loop line loopType body =>
    let cfg := cfg.addNode (.loop line)
      { nodeType := .loop, lineNumber := line, label := "Loop Header (" ++ loopType ++ ")" }
    let cfg := cfg.addEdge prev (.loop line)
    let cfg := cfg.addNode (.body line)
      { nodeType := .statement, lineNumber := line, statements := body, label := "Loop Body" }
    let cfg := cfg.addEdge (.loop line) (.body line) .trueBranch
    let cfg := cfg.addEdge (.body line) (.loop line) .loopBack
    let cfg := cfg.addNode (.loopExit line) { nodeType := .statement, lineNumber := line, label := "Loop Exit" }
    (cfg.addEdge (.loop line) (.loopExit line) .falseBranch, .loopExit line)
  | .ret line value =>
    let cfg := cfg.addNode (.ret line) { nodeType := .ret, lineNumber := line, label := "Return (" ++ value ++ ")" }
    let cfg := cfg.addEdge prev (.ret line)
    (cfg.addEdge (.ret line) .exit .returnEdge, .ret line)
  | .skip => (cfg, prev)

/-- The loop over the statements. Source: `analysis/cfg/builder.py`, `_build_statements_cfg`. Kind: D -/
def buildPieces : ℕ → List Piece → Place → CFG → CFG × Place
  | _, [], prev, cfg => (cfg, prev)
  | idx, p :: ps, prev, cfg =>
    let r := buildPiece (idx + p.length) p prev cfg
    buildPieces (idx + p.length) ps r.2 r.1

/-- The entry and the exit. Source: `analysis/cfg/builder.py`, `build_cfg`, "Step 1". Kind: D -/
def startCfg (f : IRFunction) : CFG :=
  let cfg : CFG := { cfgId := f.id, functionName := f.name, filePath := f.filePath }
  (cfg.addNode .entry { nodeType := .entry, lineNumber := f.lineNumber, label := "ENTRY" }).addNode .exit
    { nodeType := .exit, lineNumber := f.lineNumber, label := "EXIT" }

/-- Source: `analysis/cfg/builder.py`, `CFGBuilder.build_cfg`. Kind: D -/
def buildCfg (f : IRFunction) : CFG :=
  if f.bodyStatements.isEmpty then (startCfg f).addEdge .entry .exit
  else
    let r := buildPieces 0 (pieces f.bodyStatements) .entry (startCfg f)
    if r.2 = .exit ∨ ∃ e ∈ r.1.edges, e.targetId = .exit ∧ e.sourceId = r.2 then r.1 else r.1.addEdge r.2 .exit

end KarsaSec.Ssa
