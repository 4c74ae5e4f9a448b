import KarsaSec.Found.Collect
import KarsaSec.Found.Sorting
import KarsaSec.Ssa.Model
import Mathlib.Data.Prod.Lex

/-!
# From syntax to functions

`ir/builder.py`: the functions of a file, and its statements outside of functions as one more.

* `convertStatement` makes a statement of a node, without what is nested in it: the lists of an if or loop stay empty.
* `Produced` is what every function of the builder is like; `produced_of_mem`.
-/

namespace KarsaSec.Ssa

open KarsaSec.Found

/-! ## Nodes -/

/-- The classes that the builder asks for. Source: `ir/builder.py`, `isinstance`. Kind: D -/
inductive NodeClass
  | function
  | assignment
  | call
  | other
  deriving DecidableEq

/-- What the builder reads of a node. Source: `parser/ast_nodes.py`, `ASTNode` and its subclasses. Kind: D -/
structure SourceNode where
  nodeId : String
  parentId : Option String
  nodeType : String
  nodeClass : NodeClass
  startLine : ℤ
  byteStart : ℤ
  children : List String
  /-- `getattr(node, name, "")`. -/
  attr : String → String
  /-- `get_text(source_bytes)`. -/
  text : String

/-- Source: `parser/ast_nodes.py`, `FileNode`. Kind: D -/
structure SourceFile where
  filePath : Option String
  nodesMap : Dict String SourceNode

namespace SourceFile

/-- Source: `ir/builder.py`, `file_path_str`. Kind: D -/
def pathText (file : SourceFile) : String := file.filePath.getD "unknown"

end SourceFile

/-- `a or b` of texts. Kind: D -/
def orText (a b : String) : String := if a = "" then b else a

/-! ## Statements -/

namespace IRBuilder

/-- Source: `ir/builder.py`, `possible_op`. Kind: D -/
def possibleOps : List String := [".=", "+=", "-=", "*=", "/=", "&=", "|=", "^="]

/-- Target, operator and expression, from the attributes or else from the children.
Source: `ir/builder.py`, `_convert_statement`
Kind: D -/
def assignmentParts (file : SourceFile) (node : SourceNode) : String × String × String :=
  let target := node.attr "target"
  let valExpr := orText (node.attr "value_expression") (node.attr "value")
  let parts :=
    if target = "" ∨ valExpr = "" then
      match node.children.filterMap file.nodesMap.get? with
      | first :: second :: third :: _ => (first.text, second.text, third.text)
      | [first, second] => (first.text, "=", second.text)
      | _ => (target, "=", valExpr)
    else (target, "=", valExpr)
  if node.nodeType = "augmented_assignment_expression" ∧ parts.2.1 = "=" then
    (parts.1, ((possibleOps.find? fun op => inStr op node.text).getD "="), parts.2.2)
  else parts

/-- Source: `ir/builder.py`, `_convert_statement`. Kind: D -/
def convertStatement (file : SourceFile) (node : SourceNode) : Option IRStatement :=
  let lineNo := node.startLine
  if node.nodeClass = .assignment ∨
      node.nodeType ∈ ["assignment", "assignment_expression", "augmented_assignment_expression"] then
    let parts := assignmentParts file node
    some (.assignment
      { id := file.pathText ++ "::assign::" ++ toString lineNo
        lineNumber := lineNo
        target := parts.1
        valueExpression := parts.2.2
        operator := parts.2.1 })
  else if node.nodeClass = .call ∨ node.nodeType ∈ ["call", "call_expression"] then some (.call lineNo)
  else if inStr "if" (lower node.nodeType) then
    some (.branch lineNo (orText (node.attr "condition") (node.attr "condition_expr")) [] [])
  else if ["loop", "for", "while"].any fun k => inStr k (lower node.nodeType) then
    some (.loop lineNo (if inStr "while" (lower node.nodeType) then "WHILE" else "FOR") [])
  else none

/-! ## Functions -/

/-- Source: `ir/builder.py`, `_convert_file_node`. Kind: D -/
def isFunction (node : SourceNode) : Bool :=
  node.nodeClass = .function || decide (node.nodeType ∈ ["function_definition", "function_declaration", "def", "func_decl"])

/-- The loop over the parents, with a bound on its turns: parents in a circle would keep it going.
Source: `ir/builder.py`, `is_inside_function`
Kind: D -/
def isInsideFunction (file : SourceFile) : ℕ → String → Option Bool
  | 0, _ => none
  | n + 1, currId =>
    if currId = "" then some false
    else
      match file.nodesMap.get? currId with
      | none => some false
      | some parent =>
        if isFunction parent then some true
        else
          match parent.parentId with
          | none => some false
          | some parentId => isInsideFunction file n parentId

/-- Source: `ir/builder.py`, `_convert_file_node`, `ir_func`. Kind: D -/
def functionOf (file : SourceFile) (node : SourceNode) : IRFunction :=
  let funcName := orText (node.attr "name") "anonymous"
  { id := file.pathText ++ "::" ++ funcName ++ "::" ++ toString node.startLine
    lineNumber := node.startLine
    filePath := file.pathText
    name := funcName
    bodyStatements := (file.nodesMap.values.filter fun child => child.parentId = some node.nodeId).filterMap
      (convertStatement file) }

/-- A node is a child of the root. Source: `ir/builder.py`, `_convert_file_node`. Kind: D -/
def isTopLevel (file : SourceFile) (node : SourceNode) : Bool :=
  match node.parentId.bind file.nodesMap.get? with
  | none => true
  | some parent => parent.nodeType ∈ ["program", "file", "text_interpolation"]

/-- Source: `ir/builder.py`, `_convert_file_node`, `top_level_stmts`. Kind: D -/
def topLevelStmts (file : SourceFile) : Option (List IRStatement) :=
  let sortedNodes := sortBy (fun x : SourceNode => toLex (x.startLine, x.byteStart)) file.nodesMap.values
  (sortedNodes.mapM fun node =>
    (isInsideFunction file (file.nodesMap.keys.length + 1) node.nodeId).map fun inside =>
      if inside = false ∧ isTopLevel file node then convertStatement file node else none).map (List.filterMap id)

/-- Nothing where the parents of a node go in a circle. Source: `ir/builder.py`, `_convert_file_node`. Kind: D -/
def convertFileNode (file : SourceFile) : Option (List IRFunction) :=
  (topLevelStmts file).map fun stmts =>
    (file.nodesMap.values.filter isFunction).map (functionOf file) ++
      if stmts = [] then []
      else [{ id := file.pathText ++ "::__main__::1", lineNumber := 1, filePath := file.pathText, name := "__main__",
              bodyStatements := stmts }]

/-- Source: `ir/builder.py`, `build_from_file_nodes`. Kind: D -/
def buildFromFileNodes (files : List SourceFile) : Option (List IRFunction) := (files.mapM convertFileNode).map List.flatten

end IRBuilder

/-! ## What every function is like -/

/-- A statement of the builder: an assignment is named by its line, and nothing is nested. Kind: D -/
inductive IRStatement.Produced (path : String) : IRStatement → Prop
  | assignment {a : IRAssignment} (h : a.id = path ++ "::assign::" ++ toString a.lineNumber) : Produced path (.assignment a)
  | call (line : ℤ) : Produced path (.call line)
  | branch (line : ℤ) (condition : String) : Produced path (.branch line condition [] [])
  | loop (line : ℤ) (loopType : String) : Produced path (.loop line loopType [])

/-- A function of the builder is named by its file, name and line. Kind: D -/
structure IRFunction.Produced (f : IRFunction) : Prop where
  named : ∃ name line, f.id = f.filePath ++ "::" ++ name ++ "::" ++ toString (line : ℤ)
  statements : ∀ s ∈ f.bodyStatements, IRStatement.Produced f.filePath s

namespace IRBuilder

theorem produced_convertStatement {file : SourceFile} {node : SourceNode} {s : IRStatement}
    (h : convertStatement file node = some s) : IRStatement.Produced file.pathText s := by
  unfold convertStatement at h
  dsimp only at h
  split_ifs at h <;> obtain rfl := Option.some.inj h
  · exact .assignment rfl
  · exact .call _
  · exact .branch _ _
  · exact .loop _ _
  · exact .loop _ _

theorem produced_topLevelStmts {file : SourceFile} {stmts : List IRStatement} (h : topLevelStmts file = some stmts) :
    ∀ s ∈ stmts, IRStatement.Produced file.pathText s := by
  obtain ⟨found, hfound, rfl⟩ := Option.map_eq_some_iff.mp h
  intro s hs
  obtain ⟨_, hmem, rfl⟩ := List.mem_filterMap.mp hs
  obtain ⟨node, -, hnode⟩ := exists_of_mem_mapM hfound hmem
  obtain ⟨inside, -, hsome⟩ := Option.map_eq_some_iff.mp hnode
  split_ifs at hsome
  exact produced_convertStatement hsome

theorem produced_functionOf (file : SourceFile) (node : SourceNode) : (functionOf file node).Produced := by
  refine ⟨⟨_, _, rfl⟩, fun s hs => ?_⟩
  obtain ⟨child, -, hchild⟩ := List.mem_filterMap.mp hs
  exact produced_convertStatement hchild

/-- **What every function of the builder is like.** Source: `ir/builder.py`, `build_from_file_nodes`. Kind: P -/
theorem produced_of_mem {files : List SourceFile} {functions : List IRFunction} (h : buildFromFileNodes files = some functions)
    {f : IRFunction} (hf : f ∈ functions) : f.Produced := by
  obtain ⟨perFile, hperFile, rfl⟩ := Option.map_eq_some_iff.mp h
  obtain ⟨fs, hfs, hmem⟩ := List.mem_flatten.mp hf
  obtain ⟨file, -, hfile⟩ := exists_of_mem_mapM hperFile hfs
  obtain ⟨stmts, hstmts, rfl⟩ := Option.map_eq_some_iff.mp hfile
  rcases List.mem_append.mp hmem with hmem | hmem
  · grind [produced_functionOf]
  · split_ifs at hmem
    · exact absurd hmem List.not_mem_nil
    · rw [List.mem_singleton] at hmem
      subst hmem
      refine ⟨⟨"__main__", 1, ?_⟩, produced_topLevelStmts hstmts⟩
      have htext : "::__main__::1" = "::" ++ "__main__" ++ "::" ++ toString (1 : ℤ) := by decide +kernel
      simp only [htext, String.append_assoc]

end IRBuilder

end KarsaSec.Ssa
