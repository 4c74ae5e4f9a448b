import KarsaSec.Found.Dict
import KarsaSec.Found.Text
import KarsaSec.Found.TreeWalk

/-!
# From syntax trees to nodes

`parser/python_parser.py`, `parser/ast_nodes.py` and `parser/ast/walker.py`: a tree of the module `ast` becomes a file node with
a table of nodes, and a walker visits the nodes from there.

* `SyntaxTree` has a node for every node that `ast.iter_fields` leads to, in its order, also for those that are in lists.
* `convert` threads the table. A node is set after its children, under an identifier made of its start and its type.
* `walk` looks a node up by its identifier and visits none twice.
-/

namespace KarsaSec.Parser

open KarsaSec.Found

/-! ## Syntax trees -/

/-- What is read of a node; a node without positions has none of the four. Source: `parser/python_parser.py`, `_convert`.
Kind: D -/
structure PySyntax where
  className : String
  /-- `isinstance(py_node.value, str)`, of a constant. -/
  isText : Bool := false
  lineno : Option ℤ := none
  colOffset : Option ℤ := none
  endLineno : Option ℤ := none
  endColOffset : Option ℤ := none

/-- A tree of the module `ast`. Kind: D -/
abbrev SyntaxTree := RoseTree PySyntax

namespace PySyntax

/-- Source: `parser/python_parser.py`, `line_no`. Kind: D -/
def lineNo (n : PySyntax) : ℤ := n.lineno.getD 1

/-- Source: `parser/python_parser.py`, `col_no`. Kind: D -/
def colNo (n : PySyntax) : ℤ := n.colOffset.getD 0

/-- Source: `parser/python_parser.py`, `end_line`. Kind: D -/
def endLine (n : PySyntax) : ℤ := n.endLineno.getD n.lineNo

/-- Source: `parser/python_parser.py`, `end_col`. Kind: D -/
def endCol (n : PySyntax) : ℤ := n.endColOffset.getD n.colNo

/-- Source: `parser/python_parser.py`, `node_type`. Kind: D -/
def nodeType (n : PySyntax) : String :=
  if n.className = "Call" then "call"
  else if n.className = "Attribute" then "attribute"
  else if n.className = "Name" then "name"
  else if n.className = "Constant" then (if n.isText then "string" else "number")
  else if n.className = "FunctionDef" then "function_definition"
  else if n.className = "ClassDef" then "class_definition"
  else lower n.className

end PySyntax

/-! ## Identifiers -/

/-- `hashlib.sha1(text.encode()).hexdigest()[:16]`. Kind: D -/
structure Sha1 where
  digest : String → String
  length_digest : ∀ text, (digest text).length = 16

/-- `str(path).replace("\\", "/")`. Kind: D -/
def normalizedPath (filePath : String) : String :=
  String.ofList (filePath.toList.map fun c => if c = '\\' then '/' else c)

/-- Source: `parser/ast_nodes.py`, `raw_key`. Kind: D -/
def rawKey (filePath : String) (byteStart byteEnd : ℤ) (nodeType : String) : String :=
  normalizedPath filePath ++ ":" ++ toString byteStart ++ ":" ++ toString byteEnd ++ ":" ++ nodeType

/-- Source: `parser/ast_nodes.py`, `generate_node_id`. Kind: D -/
def generateNodeId (sha1 : Sha1) (filePath : String) (byteStart byteEnd : ℤ) (nodeType : String) : String :=
  sha1.digest (rawKey filePath byteStart byteEnd nodeType)

/-! ## Nodes -/

/-- Source: `parser/ast_nodes.py`, `Position`. Kind: D -/
structure Position where
  line : ℤ
  column : ℤ
  deriving DecidableEq

/-- The tags are left out. Source: `parser/ast_nodes.py`, `ASTNode`. Kind: D -/
structure ASTNode where
  nodeId : String := ""
  parentId : Option String := none
  nodeType : String := "node"
  language : String := ""
  filePath : Option String := none
  byteStart : ℤ := 0
  byteEnd : ℤ := 0
  start : Position := ⟨1, 0⟩
  stop : Position := ⟨1, 0⟩
  children : List String := []
  deriving DecidableEq

/-- Source: `parser/ast_nodes.py`, `FileNode`. Kind: D -/
structure FileNode extends ASTNode where
  totalLines : ℕ := 0
  nodesMap : Dict String ASTNode := .empty

/-! ## Byte offsets -/

/-- `code.splitlines(keepends=True)` behind the start of a line. Kind: D -/
def splitLinesFrom (line : List UInt8) : List UInt8 → List (List UInt8)
  | [] => if line.isEmpty then [] else [line]
  | b :: rest =>
    if b = 13 then
      match rest with
      | c :: rest' => if c = 10 then (line ++ [b, c]) :: splitLinesFrom [] rest' else (line ++ [b]) :: splitLinesFrom [] (c :: rest')
      | [] => [line ++ [b]]
    else if b = 10 then (line ++ [b]) :: splitLinesFrom [] rest
    else splitLinesFrom (line ++ [b]) rest

/-- `code.splitlines(keepends=True)`. Kind: D -/
def splitLines (code : List UInt8) : List (List UInt8) := splitLinesFrom [] code

/-- Source: `parser/python_parser.py`, `line_offsets`. Kind: D -/
def lineOffsets (code : List UInt8) : List ℕ := (splitLines code).scanl (fun offset line => offset + line.length) 0

/-- Source: `parser/python_parser.py`, `get_byte_offset`. Kind: D -/
def getByteOffset (code : List UInt8) (line col : ℤ) : ℤ :=
  if line < 1 then 0
  else
    let idx := (line - 1).toNat
    let offsets := lineOffsets code
    match offsets[idx]? with
    | none => code.length
    | some lineStart => min (lineStart + col) ((offsets[idx + 1]?).getD code.length : ℕ)

/-! ## The conversion -/

section convert

variable (sha1 : Sha1) (path : String) (code : List UInt8)

/-- Source: `parser/python_parser.py`, `node_id`. Kind: D -/
def PySyntax.nodeId (n : PySyntax) : String := generateNodeId sha1 path n.lineNo n.colNo n.nodeType

/-- Source: `parser/python_parser.py`, `ast_node`. Kind: D -/
def astNode (n : PySyntax) (parentId : Option String) (childrenIds : List String) : ASTNode where
  nodeId := n.nodeId sha1 path
  parentId := parentId
  nodeType := n.nodeType
  language := "Python"
  filePath := some path
  byteStart := getByteOffset code n.lineNo n.colNo
  byteEnd := getByteOffset code n.endLine n.endCol
  start := ⟨n.lineNo, n.colNo⟩
  stop := ⟨n.endLine, n.endCol⟩
  children := childrenIds

mutual

/-- Source: `parser/python_parser.py`, `_convert`. Kind: D -/
def convert (parentId : Option String) (nodesMap : Dict String ASTNode) : SyntaxTree → ASTNode × Dict String ASTNode
  | .node n children =>
    let converted := convertAll (n.nodeId sha1 path) nodesMap children
    let node := astNode sha1 path code n parentId converted.1
    (node, converted.2.set (n.nodeId sha1 path) node)

/-- Source: `parser/python_parser.py`, `children_ids`. Kind: D -/
def convertAll (nodeId : String) (nodesMap : Dict String ASTNode) : List SyntaxTree → List String × Dict String ASTNode
  | [] => ([], nodesMap)
  | t :: ts =>
    let first := convert (some nodeId) nodesMap t
    let rest := convertAll nodeId first.2 ts
    (first.1.nodeId :: rest.1, rest.2)

end

/-- Source: `parser/python_parser.py`, `_build_from_native_ast`. Kind: D -/
def buildFromNativeAst (pyAst : SyntaxTree) : FileNode :=
  let root := convert sha1 path code none .empty pyAst
  let totalLines := (splitLines code).length
  { nodeId := root.1.nodeId
    parentId := none
    nodeType := "file"
    language := "Python"
    filePath := some path
    byteStart := 0
    byteEnd := code.length
    start := ⟨1, 0⟩
    stop := ⟨if totalLines = 0 then 1 else totalLines, 0⟩
    children := root.1.children
    totalLines := totalLines
    nodesMap := root.2 }

end convert

/-! ## The walker -/

/-- Source: `parser/ast/strategy.py`, `TraversalStrategy`. Kind: D -/
inductive TraversalStrategy
  | dfs
  | bfs
  deriving DecidableEq

namespace FileNode

/-- Source: `parser/ast/walker.py`, `current_node`. Kind: D -/
def lookup (root : FileNode) (id : String) : Option ASTNode :=
  (root.nodesMap.get? id).or (if id = root.nodeId then some root.toASTNode else none)

/-- The turns that any walk needs at most. Kind: D -/
def turns (root : FileNode) : ℕ :=
  root.children.length + pending root.lookup ASTNode.children (root.nodeId :: root.nodesMap.keys) [] + 1

/-- All nodes, without a filter on types: new children are put on the stack, or at the end of the queue. A file without an
identifier is put there itself. Source: `parser/ast/walker.py`, `walk`. Kind: D -/
def walk (root : FileNode) (strategy : TraversalStrategy) : Option (List ASTNode) :=
  if root.nodeId ≠ "" then explore (strategy = .dfs) root.lookup ASTNode.children root.turns [root.nodeId] []
  else (explore (strategy = .dfs) root.lookup ASTNode.children root.turns root.children []).map (root.toASTNode :: ·)

end FileNode

end KarsaSec.Parser
