import KarsaSec.Cfg.Model
import KarsaSec.Found.Reach

/-!
# Building a control-flow graph

`CFGBuilder.build_cfg`: source lines are first cut into nested statements, then blocks and edges are
made of them.

* `preprocessStatements` reads string lines into nodes by braces.
* `buildList` is the loop of `_build_subgraph`, `buildTop` the loop of `build_cfg`; both extend a
  `Builder`, the blocks and edges made so far.
* `buildFrom` builds the graph of a statement list, `buildCfg` that of raw statements.
-/

namespace KarsaSec.Cfg

open KarsaSec.Found

/-! ## Reading lines -/

/-- A string line with its tag. Kind: D -/
abbrev Line := ℕ × String

/-- `line.count(c)`. Kind: D -/
def countChar (c : Char) (line : String) : ℤ := line.toList.count c

/-- `c in line`. Kind: D -/
def hasChar (c : Char) (line : String) : Bool := c ∈ line.toList

/-- Whether a line inside a body is kept. Source: `builder.py`, `curr_line and curr_line != "}"`.
Kind: D -/
def kept (line : String) : Bool := line ≠ "" && line ≠ "\x7d"

/-- The lines of a body up to its closing brace, and what follows.
Source: `builder.py`, `_preprocess_statements`, loops over `f_line` and over a loop body
Kind: D -/
def takeBody : ℤ → List Line → List Line × List Line
  | _, [] => ([], [])
  | depth, (tag, raw) :: rest =>
    let line := strip raw
    let opened := depth + countChar '{' line
    let depth' := if hasChar '}' line then opened - countChar '}' line else opened
    if hasChar '}' line ∧ depth' ≤ 0 then ([], rest)
    else
      let (lines, after) := takeBody depth' rest
      (if kept line then (tag, line) :: lines else lines, after)

/-- The part of a line behind the first `else`, stripped. Kind: D -/
def afterElse (line : String) : String :=
  match splitFirst "else".toList line.toList with
  | some (_, after) => strip (String.ofList after)
  | none => ""

/-- `1 if "{" in line else 0`. Kind: D -/
def startDepth (line : String) : ℤ := if hasChar '{' line then 1 else 0

/-- The lines of the true branch, those of the false branch, and what follows.
Source: `builder.py`, `_preprocess_statements`, `if` case
Kind: D -/
def takeBranches : ℤ → List Line → List Line × List Line × List Line
  | _, [] => ([], [], [])
  | depth, (tag, raw) :: rest =>
    let line := strip raw
    let opened := depth + countChar '{' line
    let depth' := if hasChar '}' line then opened - countChar '}' line else opened
    if hasChar '}' line ∧ depth' ≤ 0 then
      if inStr "else" line then
        let (lines, after) := takeBody (startDepth (afterElse line)) rest
        ([], lines, after)
      else
        match rest with
        | (_, next) :: rest' =>
          if startsWith "else" (strip next) then
            let (lines, after) := takeBody (startDepth (strip next)) rest'
            ([], lines, after)
          else ([], [], rest)
        | [] => ([], [], [])
    else
      let (lines, others, after) := takeBranches depth' rest
      (if kept line then (tag, line) :: lines else lines, others, after)

/-- The text between the first opening and the last closing parenthesis; without a closing one the
last character is lost.
Source: `builder.py`, `_preprocess_statements`, `cond_str`
Kind: D -/
def conditionText (line : String) : String :=
  let clean := (strip (rstripChar '{' line)).toList
  if '(' ∈ clean then
    let firstOpen := clean.findIdx (· = '(')
    let lastClose := if ')' ∈ clean then clean.length - 1 - clean.reverse.findIdx (· = ')')
      else clean.length - 1
    strip (String.ofList ((clean.take lastClose).drop (firstOpen + 1)))
  else line

/-- An empty condition counts as none. Source: `builder.py`, `_get_condition_ast`. Kind: D -/
def conditionOf (line : String) : Option String :=
  if conditionText line = "" then none else some (conditionText line)

/-- String lines as nested statements; a node keeps the tag of its first line. Every call is on fewer
lines, so their number bounds the depth.
Source: `builder.py`, `_preprocess_statements`
Kind: D -/
def preprocessLines : ℕ → List Line → List Stmt
  | 0, _ => []
  | _ + 1, [] => []
  | n + 1, (tag, raw) :: rest =>
    let line := strip raw
    if line = "" ∨ startsWith "//" line ∨ startsWith "#" line then preprocessLines n rest
    else if startsWith "if (" line ∨ startsWith "if(" line ∨ startsWith "if (!" line then
      let (onTrue, onFalse, after) := takeBranches (startDepth line) rest
      .mk tag (some "if") line (conditionOf line) (preprocessLines n onTrue)
        (preprocessLines n onFalse) [] :: preprocessLines n after
    else if startsWith "while (" line ∨ startsWith "while(" line ∨ startsWith "for (" line ∨
        startsWith "foreach (" line then
      let (body, after) := takeBody (startDepth line) rest
      .mk tag (some (if inStr "while" line then "while" else "for")) line (conditionOf line) [] []
        (preprocessLines n body) :: preprocessLines n after
    else if ["exit;", "exit(", "die;", "die(", "return", "throw"].any fun k => startsWith k line then
      .mk tag (some "exit") line none [] [] [] :: preprocessLines n rest
    else Stmt.line tag line :: preprocessLines n rest

/-- Statements that are all string lines are read into nodes; others are left as they are.
Source: `builder.py`, `_preprocess_statements`
Kind: D -/
def preprocessStatements (raw : List Stmt) : List Stmt :=
  if raw.all fun s => s.kind.isNone then
    preprocessLines raw.length (raw.map fun s => (s.tag, s.text))
  else raw

/-! ## Blocks and edges -/

/-- The blocks and edges made so far. Source: `builder.py`, `blocks`, `edges`, `_block_counter`.
Kind: D -/
structure Builder where
  counter : ℕ
  blocks : Dict String BasicBlock
  edges : List CFGEdge

namespace Builder

/-- The identifier that the counter gives next. Source: `builder.py`, `_next_block_id`. Kind: D -/
def nextId (g : Builder) (label : String) : String := label ++ "_" ++ toString (g.counter + 1)

/-- The counter moved on. Source: `builder.py`, `_next_block_id`. Kind: D -/
def tick (g : Builder) : Builder := { g with counter := g.counter + 1 }

/-- `blocks[block.block_id] = block`. Kind: D -/
def addBlock (g : Builder) (block : BasicBlock) : Builder :=
  { g with blocks := g.blocks.set block.blockId block }

/-- A change to one block. Kind: D -/
def modifyBlock (g : Builder) (blockId : String) (f : BasicBlock → BasicBlock) : Builder :=
  match g.blocks.get? blockId with
  | some block => { g with blocks := g.blocks.set blockId (f block) }
  | none => g

/-- `block.statements.append(stmt)`. Kind: D -/
def appendStmt (g : Builder) (blockId : String) (s : Stmt) : Builder :=
  g.modifyBlock blockId fun b => { b with statements := b.statements ++ [s] }

/-- `block.is_terminate = True`. Kind: D -/
def terminate (g : Builder) (blockId : String) : Builder :=
  g.modifyBlock blockId fun b => { b with isTerminate := true }

/-- `l` with `a` at its end, unless it has it. Kind: D -/
def appendNew (l : List String) (a : String) : List String := if a ∈ l then l else l ++ [a]

/-- Source: `builder.py`, `_add_edge`. Kind: D -/
def addEdge (g : Builder) (srcId targetId : String) (kind : CFGEdgeKind)
    (conditionAst : Option String) : Builder :=
  let edge : CFGEdge := ⟨srcId, targetId, kind, conditionAst⟩
  let g' : Builder := { g with edges := g.edges ++ [edge] }
  (g'.modifyBlock srcId fun b => { b with successors := appendNew b.successors targetId }).modifyBlock
    targetId fun b => { b with predecessors := appendNew b.predecessors srcId }

/-- The statements of a block. Kind: D -/
def statements (g : Builder) (blockId : String) : List Stmt :=
  ((g.blocks.get? blockId).map BasicBlock.statements).getD []

/-- Whether a block is marked as terminated. Kind: D -/
def isTerminate (g : Builder) (blockId : String) : Bool :=
  ((g.blocks.get? blockId).map BasicBlock.isTerminate).getD false

/-- An edge unless the branch has terminated. Source: `builder.py`, `if not true_term`. Kind: D -/
def joinUnless (g : Builder) (terminated : Bool) (srcId targetId : String) (kind : CFGEdgeKind) :
    Builder :=
  if terminated then g else g.addEdge srcId targetId kind none

end Builder

/-! ## Branch and loop bodies -/

/-- The entry block of a branch or body, under the next identifier.
Source: `builder.py`, `_build_subgraph`, `entry_block`
Kind: D -/
def openSub (label : String) (g : Builder) : Builder :=
  g.tick.addBlock { blockId := g.nextId label, label := "SUBGRAPH(" ++ g.nextId label ++ ")" }

/-- The merge block of two branches that are built, and the edges to it.
Source: `builder.py`, `merge_block`, `m_block`
Kind: D -/
def mergeBranches (g : Builder) (onTrue onFalse : String × Bool) : Builder :=
  let mId := g.nextId "merge"
  ((g.tick.addBlock { blockId := mId, label := "MERGE" }).joinUnless onTrue.2 onTrue.1 mId
    .fallthrough).joinUnless onFalse.2 onFalse.1 mId .fallthrough

mutual

/-- One statement of a branch or body, from the current block: the last block and whether the list ends
here. A loop is kept as a plain statement.
Source: `builder.py`, `_build_subgraph`, loop body
Kind: D -/
def buildInner : Stmt → String → Builder → Builder × String × Bool
  | .mk tag kind text condition onTrue onFalse body, curr, g =>
    let s := Stmt.mk tag kind text condition onTrue onFalse body
    if getStmtKind s = .exit then
      (((g.appendStmt curr s).terminate curr).addEdge curr "exit" .fallthrough none, curr, true)
    else if getStmtKind s = .branch then
      let t := buildList onTrue (g.nextId "true_branch") (openSub "true_branch" g)
      let g' := t.1.addEdge curr (g.nextId "true_branch") .trueBranch condition
      let f := buildList onFalse (g'.nextId "false_branch") (openSub "false_branch" g')
      let g'' := f.1.addEdge curr (g'.nextId "false_branch") .falseBranch condition
      (mergeBranches g'' t.2 f.2, g''.nextId "merge", t.2.2 && f.2.2)
    else (g.appendStmt curr s, curr, false)

/-- The statements of a branch or body, from the current block: the last block and whether the list has
terminated.
Source: `builder.py`, `_build_subgraph`
Kind: D -/
def buildList : List Stmt → String → Builder → Builder × String × Bool
  | [], curr, g => (g, curr, g.isTerminate curr)
  | s :: rest, curr, g =>
    let r := buildInner s curr g
    if r.2.2 then r else buildList rest r.2.1 r.1

end

/-! ## The whole body -/

/-- The block that holds the condition of a branch: the current one, or a new one behind it if that
has statements already. Source: `builder.py`, `build_cfg`, `if` case. Kind: D -/
def conditionBlock (s : Stmt) (curr : String) (g : Builder) : Builder × String :=
  if (g.statements curr).isEmpty then (g.appendStmt curr s, curr)
  else
    let condId := g.nextId "cond"
    let block : BasicBlock :=
      { blockId := condId, label := "IF_COND(" ++ s.condition.getD "" ++ ")", statements := [s] }
    ((g.tick.addBlock block).addEdge curr condId .fallthrough none, condId)

/-- A branch in the body: the builder and the merge block.
Source: `builder.py`, `build_cfg`, `if` case
Kind: D -/
def buildBranch (s : Stmt) (curr : String) (g : Builder) : Builder × String :=
  let c := conditionBlock s curr g
  let t := buildList s.onTrue (c.1.nextId "true_branch") (openSub "true_branch" c.1)
  let g' := t.1.addEdge c.2 (c.1.nextId "true_branch") .trueBranch s.condition
  let f := buildList s.onFalse (g'.nextId "false_branch") (openSub "false_branch" g')
  let g'' := f.1.addEdge c.2 (g'.nextId "false_branch") .falseBranch s.condition
  (mergeBranches g'' t.2 f.2, g''.nextId "merge")

/-- The block of a loop condition, behind the current block.
Source: `builder.py`, `build_cfg`, `loop_cond_block`
Kind: D -/
def openLoop (s : Stmt) (curr : String) (g : Builder) : Builder :=
  let block : BasicBlock :=
    { blockId := g.nextId "loop_cond", label := "LOOP_COND(while)", statements := [s] }
  (g.tick.addBlock block).addEdge curr (g.nextId "loop_cond") .fallthrough none

/-- A loop in the body: the builder and the block behind the loop.
Source: `builder.py`, `build_cfg`, `while` case
Kind: D -/
def buildLoop (s : Stmt) (curr : String) (g : Builder) : Builder × String :=
  let condId := g.nextId "loop_cond"
  let g := openLoop s curr g
  let b := buildList s.body (g.nextId "loop_body") (openSub "loop_body" g)
  let g' := (b.1.addEdge condId (g.nextId "loop_body") .trueBranch s.condition).joinUnless b.2.2
    b.2.1 condId .loopBackedge
  let postId := g'.nextId "post_loop"
  ((g'.tick.addBlock { blockId := postId, label := "POST_LOOP" }).addEdge condId postId
    .falseBranch s.condition, postId)

/-- A terminator in the body: the builder and the block of what follows, which no edge leads to.
Source: `builder.py`, `build_cfg`, `exit` case
Kind: D -/
def buildExit (s : Stmt) (curr : String) (g : Builder) : Builder × String :=
  let g := ((g.appendStmt curr s).terminate curr).addEdge curr "exit" .fallthrough none
  let deadId := g.nextId "dead"
  (g.tick.addBlock { blockId := deadId, label := "UNREACHABLE" }, deadId)

/-- One statement of the body. Source: `builder.py`, `build_cfg`, loop body. Kind: D -/
def buildStmt (s : Stmt) (curr : String) (g : Builder) : Builder × String :=
  match getStmtKind s with
  | .branch => buildBranch s curr g
  | .loop => buildLoop s curr g
  | .exit => buildExit s curr g
  | .plain => (g.appendStmt curr s, curr)

/-- The loop over the statements of the body. Source: `builder.py`, `build_cfg`. Kind: D -/
def buildTop : List Stmt → String → Builder → Builder × String
  | [], curr, g => (g, curr)
  | s :: rest, curr, g =>
    let r := buildStmt s curr g
    buildTop rest r.2 r.1

/-- The entry and the exit block. Source: `builder.py`, `build_cfg`. Kind: D -/
def initBuilder : Builder :=
  ((⟨0, .empty, []⟩ : Builder).addBlock { blockId := "entry", label := "ENTRY", isEntry := true }).addBlock
    { blockId := "exit", label := "EXIT", isExit := true }

/-- The finished builder of a statement list. Source: `builder.py`, `build_cfg`. Kind: D -/
def buildBody (stmts : List Stmt) : Builder :=
  if stmts.isEmpty then initBuilder.addEdge "entry" "exit" .fallthrough none
  else
    let r := buildTop stmts "entry" initBuilder
    if !r.1.isTerminate r.2 && r.2 ≠ "exit" then r.1.addEdge r.2 "exit" .fallthrough none else r.1

/-- The graph of a statement list; the blocks that the entry reaches are computed last.
Source: `builder.py`, `build_cfg`, `_finalize_cfg`
Kind: D -/
def buildFrom (name : String) (stmts : List Stmt) : ControlFlowGraph :=
  let g := buildBody stmts
  { name, entryId := "entry", exitId := "exit", blocks := g.blocks, edges := g.edges
    reachableBlocks := reachFrom (g.edges.map fun e => (e.srcId, e.targetId)) "entry" }

/-- Source: `builder.py`, `CFGBuilder.build_cfg`. Kind: D -/
def buildCfg (name : String) (raw : List Stmt) : ControlFlowGraph :=
  buildFrom name (preprocessStatements raw)

end KarsaSec.Cfg
