import KarsaSec.Found.Dict
import KarsaSec.Found.Text

/-!
# Control-flow graphs

Statements as the builder receives them, and the graph it makes of them.

* `Stmt` is a string line or a statement node with the lists nested in it; `tag` tells occurrences
  apart and is not read by the builder.
* `getStmtKind` is how the builder classifies a statement, by the text of its kind.
* `CFGEdge`, `BasicBlock` and `ControlFlowGraph` are the records of `graph/cfg/model.py`.
-/

namespace KarsaSec.Cfg

open KarsaSec.Found

/-! ## Statements -/

/-- A statement. A string line has no kind; for a node, the fields are what `_get_condition_ast` and
`_get_body_stmts` find.
Source: `builder.py`, `CFGBuilder`
Kind: D -/
inductive Stmt
  | mk (tag : ℕ) (kind : Option String) (text : String) (condition : Option String)
      (onTrue onFalse body : List Stmt)

namespace Stmt

/-- Tells occurrences of a statement apart. Kind: D -/
def tag : Stmt → ℕ | mk t _ _ _ _ _ _ => t

/-- The kind of a node. Kind: D -/
def kind : Stmt → Option String | mk _ k _ _ _ _ _ => k

/-- The text of a statement. Source: `builder.py`, `_get_stmt_text`. Kind: D -/
def text : Stmt → String | mk _ _ t _ _ _ _ => t

/-- The condition of a statement. Source: `builder.py`, `_get_condition_ast`. Kind: D -/
def condition : Stmt → Option String | mk _ _ _ c _ _ _ => c

/-- The true branch. Source: `builder.py`, `_get_body_stmts`. Kind: D -/
def onTrue : Stmt → List Stmt | mk _ _ _ _ t _ _ => t

/-- The false branch. Source: `builder.py`, `_get_body_stmts`. Kind: D -/
def onFalse : Stmt → List Stmt | mk _ _ _ _ _ f _ => f

/-- The body of a loop. Source: `builder.py`, `_get_body_stmts`. Kind: D -/
def body : Stmt → List Stmt | mk _ _ _ _ _ _ b => b

/-- A string line. Kind: D -/
def line (tag : ℕ) (text : String) : Stmt := mk tag none text none [] [] []

end Stmt

/-- The kinds of statements that the builder tells apart.
Source: `builder.py`, `_get_stmt_kind`
Kind: D -/
inductive StmtKind
  | branch
  | loop
  | exit
  | plain
  deriving DecidableEq, Repr

/-- The kind that a text is read as. Source: `builder.py`, `_get_stmt_kind`. Kind: D -/
def kindOfText (text : String) : StmtKind :=
  if text = "if" ∨ startsWith "if " text ∨ startsWith "if(" text ∨ startsWith "if(!" text then .branch
  else if ["while", "for", "foreach"].any fun k => text = k || startsWith k text then .loop
  else if ["exit", "die", "return", "throw"].any fun k => text = k || startsWith k text then .exit
  else .plain

/-- Source: `builder.py`, `_get_stmt_kind`. Kind: D -/
def getStmtKind (s : Stmt) : StmtKind := kindOfText (lower (strip (s.kind.getD s.text)))

/-! ## Graphs -/

/-- Kinds of control-flow edges. Source: `model.py`, `CFGEdgeKind`. Kind: D -/
inductive CFGEdgeKind
  | fallthrough
  | trueBranch
  | falseBranch
  | loopBackedge
  deriving DecidableEq, Repr

/-- A directed edge between blocks. Source: `model.py`, `CFGEdge`. Kind: D -/
structure CFGEdge where
  srcId : String
  targetId : String
  kind : CFGEdgeKind
  conditionAst : Option String
  deriving DecidableEq, Repr

/-- A sequential block of statements. Source: `model.py`, `BasicBlock`. Kind: D -/
structure BasicBlock where
  blockId : String
  label : String
  statements : List Stmt := []
  predecessors : List String := []
  successors : List String := []
  isEntry : Bool := false
  isExit : Bool := false
  isTerminate : Bool := false

/-- A control-flow graph. Source: `model.py`, `ControlFlowGraph`. Kind: D -/
structure ControlFlowGraph where
  name : String
  entryId : String
  exitId : String
  blocks : Dict String BasicBlock
  edges : List CFGEdge
  reachableBlocks : List String

namespace ControlFlowGraph

/-- The statements of a block. Kind: D -/
def statements (cfg : ControlFlowGraph) (blockId : String) : List Stmt :=
  ((cfg.blocks.get? blockId).map BasicBlock.statements).getD []

end ControlFlowGraph

end KarsaSec.Cfg
