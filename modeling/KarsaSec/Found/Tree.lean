import Mathlib.Data.List.Basic

/-!
# Trees rewritten from the leaves up

A tree whose nodes carry data and any number of children, a rewriting that replaces every node after its children,
and the meanings that go down the first children only.

* `bottomUp rule` rewrites the children of a node, then puts `rule` to the node with its new children.
* `run f` is the meaning of a tree in which a node sees its data and what its first child means. A node that does not
  look at its child (`reads`) makes everything below it irrelevant.
* `OnPath reads P`: the nodes that the meaning of the tree depends on all satisfy `P`.
* `run_bottomUp`: a rewriting keeps the meaning of a tree if the rule keeps the meaning of every node on its path,
  with its children rewritten.
-/

namespace KarsaSec.Found

/-- A node with its data and its children. Kind: D -/
inductive RoseTree (α : Type*) where
  | node (a : α) (children : List (RoseTree α))

namespace RoseTree

variable {α β : Type*}

/-- The data of the root. Kind: D -/
def data : RoseTree α → α
  | node a _ => a

/-- The children of the root. Kind: D -/
def children : RoseTree α → List (RoseTree α)
  | node _ children => children

mutual
/-- Every node is replaced after its children. Kind: D -/
def bottomUp (rule : RoseTree α → RoseTree α) : RoseTree α → RoseTree α
  | node a children => rule (node a (bottomUpAll rule children))

/-- Each tree of a list is rewritten. Kind: D -/
def bottomUpAll (rule : RoseTree α → RoseTree α) : List (RoseTree α) → List (RoseTree α)
  | [] => []
  | t :: ts => bottomUp rule t :: bottomUpAll rule ts
end

/-- The meaning of a tree, a node of which sees the meaning of its first child. Kind: D -/
def run (f : α → Option β → β) : RoseTree α → β
  | node a [] => f a none
  | node a (t :: _) => f a (some (t.run f))

/-- The node with its children rewritten. Kind: D -/
def rebuilt (rule : RoseTree α → RoseTree α) (t : RoseTree α) : RoseTree α := node t.data (bottomUpAll rule t.children)

/-- The nodes from the root down the first children, to the first node that does not read its child. Kind: D -/
def OnPath (reads : α → Bool) (P : RoseTree α → Prop) : RoseTree α → Prop
  | node a [] => P (node a [])
  | node a (t :: ts) => P (node a (t :: ts)) ∧ (reads a = true → t.OnPath reads P)

variable {rule : RoseTree α → RoseTree α} {f : α → Option β → β} {reads : α → Bool} {P Q : RoseTree α → Prop}

theorem bottomUp_eq (t : RoseTree α) : t.bottomUp rule = rule (t.rebuilt rule) := by
  cases t with
  | node a children => rw [bottomUp]; rfl

theorem OnPath.imp (h : ∀ t, P t → Q t) : {t : RoseTree α} → t.OnPath reads P → t.OnPath reads Q
  | node _ [], hpath => h _ hpath
  | node _ (_ :: _), hpath => ⟨h _ hpath.1, fun hread => (hpath.2 hread).imp h⟩

theorem onPath_of_forall (h : ∀ t, P t) : (t : RoseTree α) → t.OnPath reads P
  | node _ [] => h _
  | node _ (t :: _) => ⟨h _, fun _ => onPath_of_forall h t⟩

/-- A rewriting that keeps the meaning of every node on the path keeps the meaning of the tree. Kind: P -/
theorem run_bottomUp (hreads : ∀ a, reads a = false → ∀ x y, f a x = f a y) : {t : RoseTree α} →
    t.OnPath reads (fun t => (rule (t.rebuilt rule)).run f = (t.rebuilt rule).run f) → (t.bottomUp rule).run f = t.run f
  | node a [], hpath => by
    rw [bottomUp_eq, hpath]
    rfl
  | node a (t :: ts), hpath => by
    rw [bottomUp_eq, hpath.1]
    show f a (some ((t.bottomUp rule).run f)) = f a (some (t.run f))
    by_cases hread : reads a = true
    · rw [run_bottomUp hreads (hpath.2 hread)]
    · exact hreads a (by simpa using hread) _ _

/-- What holds of every result a node makes of such a result holds of the meaning of a tree. Kind: L -/
theorem run_induction {M : β → Prop} (hnone : ∀ a, M (f a none)) (hsome : ∀ a r, M r → M (f a (some r))) :
    (t : RoseTree α) → M (t.run f)
  | node a [] => hnone a
  | node a (t :: _) => hsome a _ (run_induction hnone hsome t)

end RoseTree

end KarsaSec.Found
