import KarsaSec.Found.Overwriting
import KarsaSec.Parser.PythonParser

/-!
# Faithful files

When the table of a file shows the whole syntax tree.

* `imageTree` has the node that every syntax node should get, with its own span, parent and children.
* `Faithful`: no two syntax nodes share an identifier, the table keeps the image of each, parents and children describe one
  tree, and both walks from the file visit every image once.
* `nodesMap_buildFromNativeAst`: the table is what is left of the images, set one after another.
* `faithful_iff`: this is so exactly where no two syntax nodes share start and type, and the hash keeps them apart.
-/

namespace KarsaSec.Parser

open KarsaSec.Found

/-! ## Images -/

section images

variable (sha1 : Sha1) (path : String) (code : List UInt8)

mutual

/-- The tree of the nodes that the syntax nodes should get. Kind: D -/
def imageTree (parentId : Option String) : SyntaxTree → RoseTree ASTNode
  | .node n children =>
    .node (astNode sha1 path code n parentId (children.map fun t => t.data.nodeId sha1 path))
      (imageForest (some (n.nodeId sha1 path)) children)

/-- The trees of the children of a node. Kind: D -/
def imageForest (parentId : Option String) : List SyntaxTree → List (RoseTree ASTNode)
  | [] => []
  | t :: ts => imageTree parentId t :: imageForest parentId ts

end

/-- The images of all syntax nodes. Kind: D -/
def images (t : SyntaxTree) : List ASTNode := (imageTree sha1 path code none t).toList

/-- The file shows the syntax tree. Source: `parser/python_parser.py`, `_build_from_native_ast`. Kind: D -/
structure Faithful (t : SyntaxTree) : Prop where
  distinct : (t.toList.map fun n => n.nodeId sha1 path).Nodup
  /-- The table keeps every node with its span, parent and children. -/
  kept : ∀ n ∈ images sha1 path code t, (buildFromNativeAst sha1 path code t).nodesMap.get? n.nodeId = some n
  /-- The parents of the nodes say the same as their children. -/
  agrees : ∀ m ∈ (buildFromNativeAst sha1 path code t).nodesMap.values,
    ∀ n ∈ (buildFromNativeAst sha1 path code t).nodesMap.values, n.parentId = some m.nodeId ↔ n.nodeId ∈ m.children
  /-- Each walk visits every image once. -/
  walked : ∀ strategy, ∃ l, (buildFromNativeAst sha1 path code t).walk strategy = some l ∧ l.Perm (images sha1 path code t)

end images

/-- The start and the type of a node. Kind: D -/
def PySyntax.start (n : PySyntax) : ℤ × ℤ × String := (n.lineNo, n.colNo, n.nodeType)

/-- No two syntax nodes share start and type, and the hash keeps those of the tree apart. Kind: D -/
structure Apart (sha1 : Sha1) (path : String) (t : SyntaxTree) : Prop where
  starts : (t.toList.map PySyntax.start).Nodup
  hashes : ∀ m ∈ t.toList, ∀ n ∈ t.toList, sha1.digest (rawKey path m.lineNo m.colNo m.nodeType) =
    sha1.digest (rawKey path n.lineNo n.colNo n.nodeType) → rawKey path m.lineNo m.colNo m.nodeType =
    rawKey path n.lineNo n.colNo n.nodeType

/-! ## Identifiers -/

/-- The text that is hashed says where the node starts and its type. Source: `parser/ast_nodes.py`, `generate_node_id`. Kind: L -/
theorem rawKey_inj {path : String} {m n : PySyntax} (h : rawKey path m.lineNo m.colNo m.nodeType =
    rawKey path n.lineNo n.colNo n.nodeType) : m.start = n.start := by
  have hchars := congrArg String.toList h
  have hsep : ":".toList = [':'] := rfl
  simp only [rawKey, String.toList_append, List.append_assoc, hsep, List.singleton_append] at hchars
  obtain ⟨hline, hchars⟩ := append_sep_inj (colon_not_mem_int _) (colon_not_mem_int _)
    (List.cons.inj (List.append_cancel_left hchars)).2
  obtain ⟨hcol, htype⟩ := append_sep_inj (colon_not_mem_int _) (colon_not_mem_int _) hchars
  unfold PySyntax.start
  rw [toString_int_inj (String.toList_injective hline), toString_int_inj (String.toList_injective hcol),
    String.toList_injective htype]

theorem nodup_nodeId_iff {sha1 : Sha1} {path : String} {t : SyntaxTree} :
    (t.toList.map fun n => n.nodeId sha1 path).Nodup ↔ Apart sha1 path t := by
  constructor
  · intro h
    have hinj : ∀ m ∈ t.toList, ∀ n ∈ t.toList, m.nodeId sha1 path = n.nodeId sha1 path → m = n := fun m hm n hn heq =>
      List.inj_on_of_nodup_map h hm hn heq
    refine ⟨(List.Nodup.of_map _ h).map_on fun m hm n hn heq => hinj m hm n hn ?_, fun m hm n hn heq => ?_⟩
    · obtain ⟨hline, hrest⟩ := Prod.mk.inj heq
      obtain ⟨hcol, htype⟩ := Prod.mk.inj hrest
      unfold PySyntax.nodeId
      rw [hline, hcol, htype]
    · rw [hinj m hm n hn heq]
  · intro h
    refine (List.Nodup.of_map _ h.starts).map_on fun m hm n hn heq => ?_
    exact List.inj_on_of_nodup_map h.starts hm hn (rawKey_inj (h.hashes m hm n hn heq))

/-! ## The tree of the images -/

section trees

variable {sha1 : Sha1} {path : String} {code : List UInt8} {parentId : Option String}

theorem data_imageTree (parentId : Option String) (t : SyntaxTree) : (imageTree sha1 path code parentId t).data =
    astNode sha1 path code t.data parentId (t.children.map fun c => c.data.nodeId sha1 path) := by
  cases t with
  | node n children => rw [imageTree]; rfl

theorem imageForest_eq (parentId : Option String) (ts : List SyntaxTree) :
    imageForest sha1 path code parentId ts = ts.map (imageTree sha1 path code parentId) := by
  induction ts with
  | nil => rw [imageForest]; rfl
  | cons t ts ih => rw [imageForest, ih]; rfl

mutual

/-- The images have the identifiers of the syntax nodes. Kind: L -/
theorem map_nodeId_imageTree : ∀ (parentId : Option String) (t : SyntaxTree),
    (imageTree sha1 path code parentId t).toList.map ASTNode.nodeId = t.toList.map fun n => n.nodeId sha1 path
  | parentId, .node n children => by
    rw [imageTree, RoseTree.toList, RoseTree.toList, List.map_cons, List.map_cons, map_nodeId_imageForest]
    rfl

theorem map_nodeId_imageForest : ∀ (parentId : Option String) (ts : List SyntaxTree),
    (RoseTree.toListAll (imageForest sha1 path code parentId ts)).map ASTNode.nodeId =
      (RoseTree.toListAll ts).map fun n => n.nodeId sha1 path
  | _, [] => by
    rw [imageForest]
    rfl
  | parentId, t :: ts => by
    rw [imageForest, RoseTree.toListAll, RoseTree.toListAll, List.map_append, List.map_append, map_nodeId_imageTree,
      map_nodeId_imageForest]

end

/-- A node that is set. Kind: D -/
def setNode (nodesMap : Dict String ASTNode) (n : ASTNode) : Dict String ASTNode := nodesMap.set n.nodeId n

mutual

/-- The conversion sets the images, children first. Source: `parser/python_parser.py`, `_convert`. Kind: L -/
theorem convert_eq : ∀ (parentId : Option String) (nodesMap : Dict String ASTNode) (t : SyntaxTree),
    convert sha1 path code parentId nodesMap t = ((imageTree sha1 path code parentId t).data,
      (imageTree sha1 path code parentId t).postList.foldl setNode nodesMap)
  | parentId, nodesMap, .node n children => by
    rw [convert, imageTree, RoseTree.postList, List.foldl_append, convertAll_eq]
    rfl

theorem convertAll_eq : ∀ (nodeId : String) (nodesMap : Dict String ASTNode) (ts : List SyntaxTree),
    convertAll sha1 path code nodeId nodesMap ts = (ts.map fun t => t.data.nodeId sha1 path,
      (RoseTree.postListAll (imageForest sha1 path code (some nodeId) ts)).foldl setNode nodesMap)
  | _, _, [] => by
    rw [convertAll, imageForest]
    rfl
  | nodeId, nodesMap, t :: ts => by
    rw [convertAll, imageForest, RoseTree.postListAll, List.foldl_append, convert_eq, convertAll_eq, data_imageTree]
    rfl

end

/-- **The table is what is left of the images.** Source: `parser/python_parser.py`, `_build_from_native_ast`. Kind: P -/
theorem nodesMap_buildFromNativeAst (t : SyntaxTree) : (buildFromNativeAst sha1 path code t).nodesMap =
    .ofList ((imageTree sha1 path code none t).postList.map fun n => (n.nodeId, n)) := by
  unfold buildFromNativeAst Dict.ofList
  dsimp only
  rw [convert_eq, List.foldl_map]
  rfl

mutual

/-- Every node but the root has a parent, which lists it. Kind: L -/
theorem parent_of_mem_imageTree : ∀ (parentId : Option String) (t : SyntaxTree),
    ∀ n ∈ (imageTree sha1 path code parentId t).toList, n = (imageTree sha1 path code parentId t).data ∨
      ∃ m ∈ (imageTree sha1 path code parentId t).toList, n.parentId = some m.nodeId ∧ n.nodeId ∈ m.children
  | parentId, .node head children => by
    intro n hn
    rw [imageTree, RoseTree.toList] at hn ⊢
    rcases List.mem_cons.mp hn with rfl | hn
    · exact .inl rfl
    · right
      rcases parent_of_mem_imageForest _ children n hn with ⟨t, ht, rfl⟩ | ⟨m, hm, hparent, hchild⟩
      · refine ⟨_, List.mem_cons_self, ?_, ?_⟩
        · rw [data_imageTree]
          rfl
        · rw [data_imageTree]
          exact List.mem_map_of_mem (f := fun t : SyntaxTree => t.data.nodeId sha1 path) ht
      · exact ⟨m, List.mem_cons_of_mem _ hm, hparent, hchild⟩

theorem parent_of_mem_imageForest : ∀ (parentId : Option String) (ts : List SyntaxTree),
    ∀ n ∈ RoseTree.toListAll (imageForest sha1 path code parentId ts),
      (∃ t ∈ ts, n = (imageTree sha1 path code parentId t).data) ∨
      ∃ m ∈ RoseTree.toListAll (imageForest sha1 path code parentId ts), n.parentId = some m.nodeId ∧ n.nodeId ∈ m.children
  | _, [] => by
    intro n hn
    rw [imageForest] at hn
    exact absurd hn List.not_mem_nil
  | parentId, t :: ts => by
    intro n hn
    rw [imageForest, RoseTree.toListAll] at hn ⊢
    rcases List.mem_append.mp hn with hn | hn
    · rcases parent_of_mem_imageTree parentId t n hn with heq | ⟨m, hm, h⟩
      · exact .inl ⟨t, List.mem_cons_self, heq⟩
      · exact .inr ⟨m, List.mem_append_left _ hm, h⟩
    · rcases parent_of_mem_imageForest parentId ts n hn with ⟨u, hu, heq⟩ | ⟨m, hm, h⟩
      · exact .inl ⟨u, List.mem_cons_of_mem _ hu, heq⟩
      · exact .inr ⟨m, List.mem_append_right _ hm, h⟩

end

mutual

/-- A child that a node lists is there and names it as its parent. Kind: L -/
theorem child_of_mem_imageTree : ∀ (parentId : Option String) (t : SyntaxTree),
    ∀ m ∈ (imageTree sha1 path code parentId t).toList, ∀ c ∈ m.children,
      ∃ n ∈ (imageTree sha1 path code parentId t).toList, n.nodeId = c ∧ n.parentId = some m.nodeId
  | parentId, .node head children => by
    intro m hm c hc
    rw [imageTree, RoseTree.toList] at hm ⊢
    rcases List.mem_cons.mp hm with rfl | hm
    · obtain ⟨t, ht, rfl⟩ := List.mem_map.mp hc
      refine ⟨(imageTree sha1 path code (some (head.nodeId sha1 path)) t).data, List.mem_cons_of_mem _ ?_, ?_, ?_⟩
      · refine RoseTree.data_mem_toListAll ?_
        rw [imageForest_eq]
        exact List.mem_map_of_mem ht
      · rw [data_imageTree]
        rfl
      · rw [data_imageTree]
        rfl
    · obtain ⟨n, hn, h⟩ := child_of_mem_imageForest _ children m hm c hc
      exact ⟨n, List.mem_cons_of_mem _ hn, h⟩

theorem child_of_mem_imageForest : ∀ (parentId : Option String) (ts : List SyntaxTree),
    ∀ m ∈ RoseTree.toListAll (imageForest sha1 path code parentId ts), ∀ c ∈ m.children,
      ∃ n ∈ RoseTree.toListAll (imageForest sha1 path code parentId ts), n.nodeId = c ∧ n.parentId = some m.nodeId
  | _, [] => by
    intro m hm
    rw [imageForest] at hm
    exact absurd hm List.not_mem_nil
  | parentId, t :: ts => by
    intro m hm c hc
    rw [imageForest, RoseTree.toListAll] at hm ⊢
    rcases List.mem_append.mp hm with hm | hm
    · obtain ⟨n, hn, h⟩ := child_of_mem_imageTree parentId t m hm c hc
      exact ⟨n, List.mem_append_left _ hn, h⟩
    · obtain ⟨n, hn, h⟩ := child_of_mem_imageForest parentId ts m hm c hc
      exact ⟨n, List.mem_append_right _ hn, h⟩

end

mutual

/-- A table that keeps the images holds their tree. Kind: L -/
theorem stored_imageTree {lookup : String → Option ASTNode} : ∀ (parentId : Option String) (t : SyntaxTree),
    (∀ v ∈ (imageTree sha1 path code parentId t).toList, lookup v.nodeId = some v) →
      Stored lookup ASTNode.children ASTNode.nodeId (imageTree sha1 path code parentId t)
  | parentId, .node n children => by
    intro h
    rw [imageTree, RoseTree.toList] at h
    rw [imageTree, Stored]
    refine ⟨h _ List.mem_cons_self, ?_, stored_imageForest _ children fun v hv => h v (List.mem_cons_of_mem _ hv)⟩
    rw [imageForest_eq, List.map_map]
    refine List.map_congr_left fun t _ => ?_
    rw [Function.comp_apply, data_imageTree]
    rfl

theorem stored_imageForest {lookup : String → Option ASTNode} : ∀ (parentId : Option String) (ts : List SyntaxTree),
    (∀ v ∈ RoseTree.toListAll (imageForest sha1 path code parentId ts), lookup v.nodeId = some v) →
      StoredAll lookup ASTNode.children ASTNode.nodeId (imageForest sha1 path code parentId ts)
  | _, [] => by
    intro _
    rw [imageForest]
    trivial
  | parentId, t :: ts => by
    intro h
    rw [imageForest, RoseTree.toListAll] at h
    rw [imageForest, StoredAll]
    exact ⟨stored_imageTree parentId t fun v hv => h v (List.mem_append_left _ hv),
      stored_imageForest parentId ts fun v hv => h v (List.mem_append_right _ hv)⟩

end

/-! ## The file -/

variable {t : SyntaxTree}

theorem mem_values_nodesMap {n : ASTNode} (h : n ∈ (buildFromNativeAst sha1 path code t).nodesMap.values) :
    n ∈ images sha1 path code t := by
  obtain ⟨k, hget⟩ := Dict.mem_values.mp h
  rw [nodesMap_buildFromNativeAst] at hget
  obtain ⟨m, hm, heq⟩ := List.mem_map.mp (Dict.mem_of_get?_ofList hget)
  obtain ⟨-, rfl⟩ := Prod.mk.inj heq
  exact (RoseTree.postList_perm _).mem_iff.mp hm

/-- Where no two syntax nodes share an identifier, the table keeps every image. Source: `parser/python_parser.py`, `nodes_map`.
Kind: L -/
theorem kept_of_nodup (h : ((images sha1 path code t).map ASTNode.nodeId).Nodup) {n : ASTNode}
    (hn : n ∈ images sha1 path code t) : (buildFromNativeAst sha1 path code t).nodesMap.get? n.nodeId = some n := by
  have hpost : n ∈ (imageTree sha1 path code none t).postList := (RoseTree.postList_perm _).mem_iff.mpr hn
  have hkey : n.nodeId ∈ (buildFromNativeAst sha1 path code t).nodesMap.keys := by
    grind [nodesMap_buildFromNativeAst, Dict.mem_keys_ofList]
  obtain ⟨m, hget⟩ := Option.isSome_iff_exists.mp (Dict.get?_isSome.mpr hkey)
  have hm := mem_values_nodesMap (Dict.mem_values.mpr ⟨_, hget⟩)
  have hid : m.nodeId = n.nodeId := by
    rw [nodesMap_buildFromNativeAst] at hget
    obtain ⟨u, -, heq⟩ := List.mem_map.mp (Dict.mem_of_get?_ofList hget)
    obtain ⟨hu, rfl⟩ := Prod.mk.inj heq
    exact hu
  rw [hget, List.inj_on_of_nodup_map h hm hn hid]

/-- Parents and children agree. Source: `parser/python_parser.py`, `_convert`. Kind: L -/
theorem agrees_of_nodup (h : ((images sha1 path code t).map ASTNode.nodeId).Nodup) {m n : ASTNode}
    (hm : m ∈ images sha1 path code t) (hn : n ∈ images sha1 path code t) :
    n.parentId = some m.nodeId ↔ n.nodeId ∈ m.children := by
  constructor
  · intro hparent
    rcases parent_of_mem_imageTree none t n hn with heq | ⟨m', hm', hparent', hchild⟩
    · rw [heq, data_imageTree] at hparent
      cases hparent
    · have hid : m'.nodeId = m.nodeId := Option.some.inj (hparent'.symm.trans hparent)
      rwa [List.inj_on_of_nodup_map h hm' hm hid] at hchild
  · intro hchild
    obtain ⟨n', hn', hid, hparent⟩ := child_of_mem_imageTree none t m hm _ hchild
    rwa [List.inj_on_of_nodup_map h hn' hn hid] at hparent

/-- Every walk of a file ends. Source: `parser/ast/walker.py`, `walk`. Kind: P -/
theorem walk_isSome (root : FileNode) (strategy : TraversalStrategy) : (root.walk strategy).isSome := by
  have hkeys : ∀ k v, root.lookup k = some v → k ∈ root.nodeId :: root.nodesMap.keys := by
    intro k v hlookup
    by_cases hk : k = root.nodeId
    · exact hk ▸ List.mem_cons_self
    · unfold FileNode.lookup at hlookup
      rw [if_neg hk, Option.or_none] at hlookup
      exact List.mem_cons_of_mem _ (Dict.get?_isSome.mp (by rw [hlookup]; rfl))
  unfold FileNode.walk
  split_ifs
  · refine explore_isSome hkeys ?_
    unfold FileNode.turns
    rw [List.length_singleton]
    omega
  · refine Option.isSome_map.trans (explore_isSome hkeys ?_)
    unfold FileNode.turns
    omega

/-- **Where no two syntax nodes share an identifier, a walk visits each image once.** Source: `parser/ast/walker.py`, `walk`.
Kind: P -/
theorem walked_of_nodup (h : ((images sha1 path code t).map ASTNode.nodeId).Nodup) (strategy : TraversalStrategy) :
    ∃ l, (buildFromNativeAst sha1 path code t).walk strategy = some l ∧ l.Perm (images sha1 path code t) := by
  obtain ⟨l, hl⟩ := Option.isSome_iff_exists.mp (walk_isSome (buildFromNativeAst sha1 path code t) strategy)
  refine ⟨l, hl, ?_⟩
  have hroot : (buildFromNativeAst sha1 path code t).nodeId = (imageTree sha1 path code none t).data.nodeId := by
    unfold buildFromNativeAst
    dsimp only
    rw [convert_eq]
  have hnamed : (buildFromNativeAst sha1 path code t).nodeId ≠ "" := by
    rw [hroot, data_imageTree]
    intro hempty
    have hlength := sha1.length_digest (rawKey path t.data.lineNo t.data.colNo t.data.nodeType)
    change sha1.digest (rawKey path t.data.lineNo t.data.colNo t.data.nodeType) = "" at hempty
    rw [hempty] at hlength
    exact absurd hlength (by decide)
  have hstored : StoredAll (buildFromNativeAst sha1 path code t).lookup ASTNode.children ASTNode.nodeId
      [imageTree sha1 path code none t] := by
    refine ⟨stored_imageTree none t fun v hv => ?_, trivial⟩
    unfold FileNode.lookup
    rw [kept_of_nodup h hv]
    rfl
  have hlist : RoseTree.toListAll [imageTree sha1 path code none t] = images sha1 path code t := List.append_nil _
  unfold FileNode.walk at hl
  rw [if_pos hnamed, hroot] at hl
  rw [← hlist] at h ⊢
  exact perm_of_explore hstored h (fun _ _ => List.not_mem_nil) hl

/-- **A file shows its syntax tree exactly where no two nodes share start and type.** Source: `parser/python_parser.py`,
`_build_from_native_ast`. Kind: P -/
theorem faithful_iff : Faithful sha1 path code t ↔ Apart sha1 path t := by
  rw [← nodup_nodeId_iff]
  constructor
  · exact Faithful.distinct
  · intro h
    have himages : ((images sha1 path code t).map ASTNode.nodeId).Nodup := by
      unfold images
      rwa [map_nodeId_imageTree]
    exact ⟨h, fun n hn => kept_of_nodup himages hn,
      fun m hm n hn => agrees_of_nodup himages (mem_values_nodesMap hm) (mem_values_nodesMap hn), walked_of_nodup himages⟩

end trees

/-! ## A call on the result of a call -/

/-- `os.popen(c).read()`. Kind: D -/
def popenRead : SyntaxTree :=
  .node ⟨"Module", false, none, none, none, none⟩ [.node ⟨"Expr", false, some 1, some 0, some 1, some 18⟩ [
    .node ⟨"Call", false, some 1, some 0, some 1, some 18⟩ [.node ⟨"Attribute", false, some 1, some 0, some 1, some 16⟩ [
      .node ⟨"Call", false, some 1, some 0, some 1, some 11⟩ [
        .node ⟨"Attribute", false, some 1, some 0, some 1, some 8⟩ [
          .node ⟨"Name", false, some 1, some 0, some 1, some 2⟩ [.node ⟨"Load", false, none, none, none, none⟩ []],
          .node ⟨"Load", false, none, none, none, none⟩ []],
        .node ⟨"Name", false, some 1, some 9, some 1, some 10⟩ [.node ⟨"Load", false, none, none, none, none⟩ []]],
      .node ⟨"Load", false, none, none, none, none⟩ []]]]]

/-- The call of `popen` has the identifier of the call of `read`, and is overwritten. Source: `parser/ast_nodes.py`,
`generate_node_id`. Kind: P -/
theorem inner_call_lost : ¬∃ sha1 path code, Faithful sha1 path code popenRead := by
  rintro ⟨sha1, path, code, h⟩
  have hstarts := (nodup_nodeId_iff.mp h.distinct).starts
  have hcalls : (popenRead.toList.map PySyntax.start).count (1, 0, "call") = 2 := by decide +kernel
  have hone := List.nodup_iff_count_le_one.mp hstarts (1, 0, "call")
  omega

end KarsaSec.Parser
