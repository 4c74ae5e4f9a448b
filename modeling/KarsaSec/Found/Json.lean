import KarsaSec.Found.Dict
import KarsaSec.Found.Text
import Mathlib.Data.List.Forall2

/-!
# Documents

The values that a document of the exchange format holds, as the modelled language reads them.

* `Json F` is such a value; `F` is the type of its floats, whose arithmetic stays outside. A mapping is a
  list of members, and a key reads as its first member.
* `asObj`, `iterate`, `truthy` are what the language does with a value that is used as a mapping, in a
  loop, or as a condition; an `.error` is the exception it raises.
* `mapM_ok` reads a list element by element.
-/

namespace KarsaSec.Found

/-- A value of a document. Kind: D -/
inductive Json (F : Type) where
  | null
  | bool (b : Bool)
  | int (n : ℤ)
  | float (x : F)
  | str (s : String)
  | arr (items : List (Json F))
  | obj (members : List (String × Json F))

/-- What the language writes for a value, `str(v)`, which floats are zero, and the lower case of a text.
Kind: D -/
structure Wording (F : Type) where
  text : Json F → String
  /-- A text is written as it is. -/
  text_str : ∀ s, text (.str s) = s
  isZero : F → Bool
  lower : String → String

/-- The values of documents without floats. Kind: D -/
def plainWording : Wording Empty where
  text
    | .str s => s
    | _ => "?"
  text_str _ := rfl
  isZero := Empty.elim
  lower := lower

namespace Json

variable {F : Type}

/-- `bool(v)`. Kind: D -/
def truthy (w : Wording F) : Json F → Bool
  | null => false
  | bool b => b
  | int n => n ≠ 0
  | float x => !w.isZero x
  | str s => s ≠ ""
  | arr items => !items.isEmpty
  | obj members => !members.isEmpty

/-- A value used as a mapping. Kind: D -/
def asObj : Json F → Except String (List (String × Json F))
  | obj members => .ok members
  | _ => .error "AttributeError: object is not a mapping"

/-- A value used as a text. Kind: D -/
def asStr : Json F → Except String String
  | str s => .ok s
  | _ => .error "TypeError: expected str"

/-- The items that a loop over a value sees: a text gives its characters, a mapping its keys. Kind: D -/
def iterate : Json F → Except String (List (Json F))
  | arr items => .ok items
  | str s => .ok (s.toList.map fun c => str (String.ofList [c]))
  | obj members => .ok (members.map fun m => str m.1)
  | _ => .error "TypeError: object is not iterable"

/-- `data[key]`. Kind: D -/
def require (key : String) (data : List (String × Json F)) : Except String (Json F) :=
  match Dict.lookup key data with
  | some v => .ok v
  | none => .error ("KeyError: '" ++ key ++ "'")

/-- `data.get(key, default)`. Kind: D -/
def getD (key : String) (data : List (String × Json F)) (default : Json F) : Json F :=
  (Dict.lookup key data).getD default

/-- `v is None`. Kind: D -/
def isNull : Json F → Bool
  | null => true
  | _ => false

/-- `v == s` for a text `s`. Kind: D -/
def isText (s : String) : Json F → Bool
  | str t => t = s
  | _ => false

theorem isText_iff {s : String} {v : Json F} : v.isText s = true ↔ v = str s := by
  cases v <;> simp [isText]

theorem isNull_iff {v : Json F} : v.isNull = true ↔ v = null := by
  cases v <;> simp [isNull]

/-! ### The order of members -/

mutual

/-- The members of every mapping sorted by their keys. Kind: D -/
def sortKeys : Json F → Json F
  | null => null
  | bool b => bool b
  | int n => int n
  | float x => float x
  | str s => str s
  | arr items => arr (sortKeysItems items)
  | obj members => obj ((sortKeysMembers members).insertionSort fun a b => a.1 ≤ b.1)

/-- The items of a list. Kind: D -/
def sortKeysItems : List (Json F) → List (Json F)
  | [] => []
  | v :: rest => v.sortKeys :: sortKeysItems rest

/-- The members of a mapping. Kind: D -/
def sortKeysMembers : List (String × Json F) → List (String × Json F)
  | [] => []
  | (k, v) :: rest => (k, v.sortKeys) :: sortKeysMembers rest

end

/-- Equal documents: mappings do not remember the order of their members. Kind: D -/
def Same (a b : Json F) : Prop := a.sortKeys = b.sortKeys

@[simp] theorem sortKeys_null : (null : Json F).sortKeys = null := rfl

@[simp] theorem sortKeys_int (n : ℤ) : (int n : Json F).sortKeys = int n := rfl

@[simp] theorem sortKeys_float (x : F) : (float x).sortKeys = float x := rfl

@[simp] theorem sortKeys_str (s : String) : (str s : Json F).sortKeys = str s := rfl

@[simp] theorem sortKeys_texts (l : List String) : (arr (l.map str) : Json F).sortKeys = arr (l.map str) := by
  have h : sortKeysItems (l.map str : List (Json F)) = l.map str := by
    induction l with
    | nil => rfl
    | cons s rest ih =>
      show (str s).sortKeys :: sortKeysItems (rest.map str) = _
      rw [ih, sortKeys_str, List.map_cons]
  show arr (sortKeysItems (l.map str)) = _
  rw [h]

theorem sortKeysMembers_eq_map (members : List (String × Json F)) :
    sortKeysMembers members = members.map fun m => (m.1, m.2.sortKeys) := by
  induction members with
  | nil => rfl
  | cons m rest ih =>
    show (m.1, m.2.sortKeys) :: sortKeysMembers rest = _
    rw [ih, List.map_cons]

/-- The members of a mapping, sorted. Kind: D -/
def sortMembers (members : List (String × Json F)) : List (String × Json F) :=
  (sortKeysMembers members).insertionSort fun a b => a.1 ≤ b.1

theorem sortKeys_obj (members : List (String × Json F)) : (obj members).sortKeys = obj (sortMembers members) := rfl

theorem sortMembers_perm (members : List (String × Json F)) :
    (sortMembers members).Perm (members.map fun m => (m.1, m.2.sortKeys)) := by
  rw [← sortKeysMembers_eq_map]
  exact List.perm_insertionSort _ _

theorem keys_sortMembers_perm (members : List (String × Json F)) :
    ((sortMembers members).map Prod.fst).Perm (members.map Prod.fst) := by
  have h := (sortMembers_perm members).map Prod.fst
  rwa [List.map_map] at h

/-- A key reads as before. Kind: L -/
theorem lookup_sortMembers {members : List (String × Json F)} (h : (members.map Prod.fst).Nodup)
    (key : String) : Dict.lookup key (sortMembers members) = (Dict.lookup key members).map sortKeys := by
  have hnodup := (keys_sortMembers_perm members).nodup_iff.mpr h
  rw [Dict.lookup_perm (sortMembers_perm members) hnodup]
  clear h hnodup
  induction members with
  | nil => rfl
  | cons m rest ih =>
    by_cases hkey : m.1 = key
    · simp [Dict.lookup, hkey]
    · simp [Dict.lookup, hkey, ih]

/-! ### What holds of every part -/

mutual

/-- `p` holds of every float, and `q` of the keys of every mapping. Kind: D -/
def Forall (p : F → Prop) (q : List String → Prop) : Json F → Prop
  | float x => p x
  | arr items => ForallItems p q items
  | obj members => q (members.map Prod.fst) ∧ ForallMembers p q members
  | _ => True

/-- The items of a list. Kind: D -/
def ForallItems (p : F → Prop) (q : List String → Prop) : List (Json F) → Prop
  | [] => True
  | v :: rest => Forall p q v ∧ ForallItems p q rest

/-- The members of a mapping. Kind: D -/
def ForallMembers (p : F → Prop) (q : List String → Prop) : List (String × Json F) → Prop
  | [] => True
  | (_, v) :: rest => Forall p q v ∧ ForallMembers p q rest

end

variable {p : F → Prop} {q : List String → Prop}

theorem forallMembers_iff {members : List (String × Json F)} :
    ForallMembers p q members ↔ ∀ m ∈ members, Forall p q m.2 := by
  induction members with
  | nil => exact ⟨fun _ m hm => absurd hm List.not_mem_nil, fun _ => trivial⟩
  | cons m rest ih =>
    rw [List.forall_mem_cons, ← ih]
    exact Iff.rfl

theorem forallItems_iff {items : List (Json F)} :
    ForallItems p q items ↔ ∀ v ∈ items, Forall p q v := by
  induction items with
  | nil => exact ⟨fun _ v hv => absurd hv List.not_mem_nil, fun _ => trivial⟩
  | cons v rest ih =>
    rw [List.forall_mem_cons, ← ih]
    exact Iff.rfl

mutual

/-- The order of members is not asked for. Kind: L -/
theorem forall_sortKeys (hq : ∀ {ks ks'}, ks.Perm ks' → q ks → q ks') :
    {v : Json F} → Forall p q v → Forall p q v.sortKeys
  | null, _ => trivial
  | bool _, _ => trivial
  | int _, _ => trivial
  | float _, h => h
  | str _, _ => trivial
  | arr _, h => forallItems_sortKeys hq h
  | obj members, h => by
    rw [sortKeys_obj]
    refine ⟨hq (keys_sortMembers_perm members).symm h.1, ?_⟩
    have hall := forallMembers_iff.mp (forallMembers_sortKeys hq h.2)
    exact forallMembers_iff.mpr fun m hm => hall m ((List.perm_insertionSort _ _).mem_iff.mp hm)

theorem forallItems_sortKeys (hq : ∀ {ks ks'}, ks.Perm ks' → q ks → q ks') :
    {items : List (Json F)} → ForallItems p q items → ForallItems p q (sortKeysItems items)
  | [], _ => trivial
  | _ :: _, h => ⟨forall_sortKeys hq h.1, forallItems_sortKeys hq h.2⟩

theorem forallMembers_sortKeys (hq : ∀ {ks ks'}, ks.Perm ks' → q ks → q ks') :
    {members : List (String × Json F)} → ForallMembers p q members →
      ForallMembers p q (sortKeysMembers members)
  | [], _ => trivial
  | (_, _) :: _, h => ⟨forall_sortKeys hq h.1, forallMembers_sortKeys hq h.2⟩

end

end Json

section reading

variable {ε α β : Type}

/-- A computation that succeeds, step by step. Kind: L -/
theorem bind_ok {x : Except ε α} {f : α → Except ε β} {b : β} (h : (x >>= f) = .ok b) :
    ∃ a, x = .ok a ∧ f a = .ok b := by
  rcases x with e | a
  · cases h
  · exact ⟨a, rfl, h⟩

/-- A list is read if each element is. Kind: L -/
theorem mapM_ok {f : α → Except ε β} {l : List α} {r : List β} :
    l.mapM f = .ok r ↔ List.Forall₂ (fun a b => f a = .ok b) l r := by
  induction l generalizing r with
  | nil =>
    simp only [List.mapM_nil, List.forall₂_nil_left_iff]
    exact ⟨fun h => (Except.ok.inj h).symm, fun h => congrArg Except.ok h.symm⟩
  | cons a l ih =>
    rw [List.mapM_cons, List.forall₂_cons_left_iff]
    simp only [Bind.bind, Except.bind, pure, Except.pure]
    rcases ha : f a with e | b
    · simp
    · rcases hl : l.mapM f with e | bs
      · simp_all
      · constructor
        · grind
        · simp_all

end reading

end KarsaSec.Found
