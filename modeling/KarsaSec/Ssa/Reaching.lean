import KarsaSec.Found.Precedes
import KarsaSec.Ssa.Builder
import Mathlib.Data.List.Pairwise
import Mathlib.Logic.Relation

/-!
# Reaching definitions

What the single assignment form of a graph covers: the definitions that reach a use along a path (`CFG.Reaches`), and those that
the versions of the use lead to (`SSAFunction.Covers`).

* `single_definition`: a version has one node that defines it.
* `covers_iff`: a use leads to the last assignment before it, in the order of the nodes, and to nothing else. The phi nodes
  lead from a version to the one before it.
* `coversReaching_iff`: all definitions that reach a use are covered if and only if those that arrive from nodes come from
  the last node that assigns the variable before the use.
-/

namespace KarsaSec.Ssa

open KarsaSec.Found
open Relation (ReflTransGen)

/-! ## Paths -/

/-- A definition at a start arrives: a path of links leads there, and no place on the way assigns again. Kind: D -/
inductive Arrives (link : Place → Place → Prop) (assigns : Place → Prop) (start : Place) : Place → Prop
  | step {a : Place} (hlink : link start a) : Arrives link assigns start a
  | pass {a b : Place} (h : Arrives link assigns start a) (hfree : ¬assigns a) (hlink : link a b) :
      Arrives link assigns start b

/-- Every assignment that arrives at a place stands in the last place before it that assigns. Kind: D -/
def FromLast (link : Place → Place → Prop) (assigns : Place → Prop) (places : List Place) (place : Place) : Prop :=
  ∀ start, assigns start → Arrives link assigns start place → Precedes places start place ∧
    ∀ between, assigns between → ¬(Precedes places start between ∧ Precedes places between place)

namespace CFG

/-- There is an edge. Kind: D -/
def Links (cfg : CFG) (a b : Place) : Prop := ∃ e ∈ cfg.edges, e.sourceId = a ∧ e.targetId = b

/-- A node assigns a variable. Kind: D -/
def Assigns (cfg : CFG) (v : String) (place : Place) : Prop := ∃ o ∈ cfg.occurrences, o.place = place ∧ o.stmt.target = v

/-- Nothing before an occurrence in its node assigns the variable. Kind: D -/
def Exposed (cfg : CFG) (v : String) (u : Occurrence) : Prop :=
  ∀ o ∈ cfg.occurrences, o.place = u.place → o.index < u.index → o.stmt.target ≠ v

/-- A definition reaches an occurrence: within its node, or from the end of its node along a path. Kind: D -/
inductive Reaches (cfg : CFG) (d u : Occurrence) : Prop
  | within (hplace : d.place = u.place) (hlt : d.index < u.index)
      (hfree : ∀ o ∈ cfg.occurrences, o.place = d.place → d.index < o.index → o.index < u.index →
        o.stmt.target ≠ d.stmt.target)
  | along (hlast : ∀ o ∈ cfg.occurrences, o.place = d.place → d.index < o.index → o.stmt.target ≠ d.stmt.target)
      (hpath : Arrives cfg.Links (cfg.Assigns d.stmt.target) d.place u.place) (hexposed : cfg.Exposed d.stmt.target u)

end CFG

/-! ## Versions -/

namespace SSAFunction

/-- The assignments with the nodes made for them. Kind: D -/
def definitions (ssa : SSAFunction) (cfg : CFG) : List (Occurrence × SSANode) :=
  cfg.occurrences.zip (ssa.nodes.filter fun n => n.phiNode.isNone)

/-- From the target of a phi node to an operand. Kind: D -/
def PhiStep (ssa : SSAFunction) (x y : SSAVar) : Prop := ∃ phi ∈ ssa.phiNodes, phi.targetVar = x ∧ y ∈ phi.operandVars

/-- A version is used, or phi operands lead to it from one that is. Source: `analysis/ssa/models.py`, `use_vars`. Kind: D -/
def Covers (ssa : SSAFunction) (n : SSANode) (w : SSAVar) : Prop := ∃ x ∈ n.useVars, ReflTransGen ssa.PhiStep x w

/-- The versions that occur in the form. Kind: D -/
def Named (ssa : SSAFunction) (w : SSAVar) : Prop :=
  (∃ n ∈ ssa.nodes, n.target = w ∨ w ∈ n.useVars) ∨ ∃ phi ∈ ssa.phiNodes, phi.targetVar = w ∨ w ∈ phi.operandVars

end SSAFunction

/-- Every definition that reaches an assignment, of a variable that its expression reads, is covered. Kind: D -/
def CoversReaching (reads : IRAssignment → String → Prop) (cfg : CFG) : Prop :=
  ∀ u n d m, (u, n) ∈ (buildSsa cfg).definitions cfg → (d, m) ∈ (buildSsa cfg).definitions cfg →
    reads u.stmt d.stmt.target → cfg.Reaches d u → (buildSsa cfg).Covers n m.target

/-! ## The numbers of the entries -/

section numbered

variable {entries before between after : List Entry} {e e' : Entry}

theorem defCount_le_of_prefix {v : String} {nodes nodes' : List SSANode} (h : nodes <+: nodes') :
    defCount v nodes ≤ defCount v nodes' := h.sublist.countP_le

/-- A later entry of the same variable has a greater version. Kind: L -/
theorem Numbered.version_lt (h : Numbered entries) (heq : entries = before ++ e :: (between ++ e' :: after))
    (hbase : e.1.target.baseName = e'.1.target.baseName) : e.1.target.version < e'.1.target.version := by
  have hfirst := (h before e _ heq).version
  have hsecond := (h (before ++ e :: between) e' after (by rw [heq, List.append_assoc, List.cons_append])).version
  have hsnoc := defCount_snoc e.1.target.baseName (before.map Prod.fst) e.1
  have hle : defCount e.1.target.baseName (before.map Prod.fst ++ [e.1]) ≤
      defCount e.1.target.baseName ((before ++ e :: between).map Prod.fst) := by
    refine defCount_le_of_prefix ⟨between.map Prod.fst, ?_⟩
    rw [List.map_append, List.map_cons, List.append_assoc]
    rfl
  rw [if_pos rfl] at hsnoc
  rw [hbase] at hfirst hsnoc hle
  omega

/-- **No version is defined twice.** Source: `analysis/ssa/builder.py`, `get_new_version`. Kind: P -/
theorem Numbered.nodup_targets (h : Numbered entries) : (entries.map fun e => e.1.target).Nodup := by
  refine List.pairwise_map.mpr (List.pairwise_iff_forall_sublist.mpr fun {e e'} hsub heq => ?_)
  obtain ⟨before, between, after, hentries⟩ : ∃ before between after, entries = before ++ e :: (between ++ e' :: after) := by
    obtain ⟨r₁, r₂, hentries, he, htail⟩ := List.cons_sublist_iff.mp hsub
    obtain ⟨s₁, t₁, rfl⟩ := List.append_of_mem he
    obtain ⟨s₂, t₂, rfl⟩ := List.append_of_mem (List.singleton_sublist.mp htail)
    exact ⟨s₁, t₁ ++ s₂, t₂, by rw [hentries]; simp only [List.append_assoc, List.cons_append]⟩
  have hlt := h.version_lt hentries (congrArg SSAVar.baseName heq)
  rw [heq] at hlt
  exact lt_irrefl _ hlt

theorem Numbered.prefix (h : Numbered (before ++ after)) : Numbered before := by
  rintro s e t rfl
  exact h s e (t ++ after) (by rw [List.append_assoc]; rfl)

/-- Every number up to that of the last is given. Kind: L -/
theorem Numbered.exists_version (h : Numbered entries) {v : String} {k : ℕ} (hpos : 0 < k)
    (hle : k ≤ defCount v (entries.map Prod.fst)) : ∃ e ∈ entries, e.1.target = ⟨v, k⟩ := by
  induction entries using List.reverseRecOn with
  | nil => exact absurd (hpos.trans_le hle) (lt_irrefl _)
  | append_singleton entries e ih =>
    rw [List.map_append, List.map_singleton, defCount_snoc] at hle
    by_cases hlast : e.1.target = ⟨v, k⟩
    · exact ⟨e, List.mem_append_right _ (List.mem_singleton.mpr rfl), hlast⟩
    · have hbelow : k ≤ defCount v (entries.map Prod.fst) := by
        split_ifs at hle with hv
        · have hversion := (h entries e [] rfl).version
          rw [hv] at hversion
          have hne : k ≠ e.1.target.version := fun hk => hlast (by rw [hk, ← hv])
          omega
        · exact hle
      obtain ⟨e', he', htarget⟩ := ih h.prefix hbelow
      exact ⟨e', List.mem_append_left _ he', htarget⟩

end numbered

/-! ## What a use leads to -/

section uses

variable {cfg : CFG} {entries : List Entry} {e e' : Entry} {o d u : Occurrence} {n m : SSANode} {x y w : SSAVar}

/-- A node is a phi node exactly where no assignment is behind it. Kind: L -/
theorem Numbered.phiNode_isNone (h : Numbered entries) (he : e ∈ entries) : e.1.phiNode.isNone = e.2.isSome := by
  obtain ⟨before, after, rfl⟩ := List.append_of_mem he
  have hnumbered := h before e after rfl
  rcases ho : e.2 with _ | o
  · obtain ⟨-, -, nid, hphi⟩ := hnumbered.phi ho
    rw [hphi]
    rfl
  · rw [(hnumbered.assignment o ho).1]
    rfl

theorem filter_assignments (h : ∀ e ∈ entries, e.1.phiNode.isNone = e.2.isSome) :
    (entries.map Prod.fst).filter (fun n => n.phiNode.isNone) =
      (entries.filterMap fun e => e.2.map fun o => (o, e.1)).map Prod.snd ∧
    entries.filterMap Prod.snd = (entries.filterMap fun e => e.2.map fun o => (o, e.1)).map Prod.fst := by
  induction entries with
  | nil => exact ⟨rfl, rfl⟩
  | cons e entries ih =>
    obtain ⟨hnodes, hoccs⟩ := ih fun e' he' => h e' (List.mem_cons_of_mem _ he')
    have hhead := h e List.mem_cons_self
    rcases e with ⟨n, _ | o⟩
    · grind
    · rw [List.map_cons, List.filter_cons_of_pos (by rw [hhead]; rfl), hnodes]
      exact ⟨rfl, congrArg (o :: ·) hoccs⟩

theorem EntriesOf.mem_definitions (h : EntriesOf cfg entries) :
    (o, n) ∈ (buildSsa cfg).definitions cfg ↔ (n, some o) ∈ entries := by
  obtain ⟨hnodes, hoccs⟩ := filter_assignments fun e he => h.numbered.phiNode_isNone (e := e) he
  unfold SSAFunction.definitions
  rw [h.nodes, ← h.occurrences, hnodes, hoccs, ← List.zip_of_prod rfl rfl, List.mem_filterMap]
  constructor
  · grind [Option.map_eq_some_iff]
  · exact fun he => ⟨_, he, rfl⟩

/-- A phi node that was recorded stands among the nodes. Kind: L -/
theorem EntriesOf.phi_form (h : EntriesOf cfg entries) {phi : PhiNode} (hphi : phi ∈ (buildSsa cfg).phiNodes) :
    ∃ e ∈ entries, e.2 = none ∧ phi.targetVar = e.1.target ∧
      phi.operandVars = [⟨e.1.target.baseName, e.1.target.version - 1⟩, e.1.target] := by
  rw [h.phis, h.nodes] at hphi
  obtain ⟨n, hn, hsome⟩ := List.mem_filterMap.mp hphi
  obtain ⟨e, he, rfl⟩ := List.mem_map.mp hn
  have hnone : e.2 = none := by
    have hiff := h.numbered.phiNode_isNone he
    rw [hsome] at hiff
    exact Option.not_isSome_iff_eq_none.mp (by rw [← hiff]; exact Bool.false_ne_true)
  obtain ⟨before, after, heq⟩ := List.append_of_mem he
  obtain ⟨-, -, nid, hform⟩ := (h.numbered before e after heq).phi hnone
  obtain rfl := Option.some.inj (hsome.symm.trans hform)
  exact ⟨e, he, hnone, rfl, rfl⟩

theorem EntriesOf.phiStep_iff (h : EntriesOf cfg entries) : (buildSsa cfg).PhiStep x y ↔
    ∃ e ∈ entries, e.2 = none ∧ e.1.target = x ∧ (y = ⟨x.baseName, x.version - 1⟩ ∨ y = x) := by
  constructor
  · rintro ⟨phi, hphi, rfl, hy⟩
    obtain ⟨e, he, hnone, htarget, hoperands⟩ := h.phi_form hphi
    refine ⟨e, he, hnone, htarget.symm, ?_⟩
    rw [hoperands] at hy
    rw [htarget]
    simpa only [List.mem_cons, List.not_mem_nil, or_false] using hy
  · rintro ⟨e, he, hnone, rfl, hy⟩
    obtain ⟨before, after, heq⟩ := List.append_of_mem he
    obtain ⟨-, -, nid, hform⟩ := (h.numbered before e after heq).phi hnone
    have hphi := List.mem_filterMap.mpr ⟨e.1, List.mem_map.mpr ⟨e, he, rfl⟩, hform⟩
    rw [← h.nodes, ← h.phis] at hphi
    refine ⟨_, hphi, rfl, ?_⟩
    simpa only [List.mem_cons, List.not_mem_nil, or_false] using hy

/-- Phi operands lead down through versions of phi nodes. Kind: L -/
theorem EntriesOf.descends (h : EntriesOf cfg entries) (hsteps : ReflTransGen (buildSsa cfg).PhiStep x w) :
    w.baseName = x.baseName ∧ w.version ≤ x.version ∧ ∀ e ∈ entries, e.1.target.baseName = x.baseName →
      w.version < e.1.target.version → e.1.target.version ≤ x.version → e.2 = none := by
  induction hsteps using ReflTransGen.head_induction_on with
  | refl => exact ⟨rfl, le_rfl, fun e _ _ hlt hle => absurd (hlt.trans_le hle) (lt_irrefl _)⟩
  | @head x y hstep _ ih =>
    obtain ⟨e', he', hnone, htarget, rfl | rfl⟩ := h.phiStep_iff.mp hstep
    · obtain ⟨hbase, hle, hphis⟩ := ih
      refine ⟨hbase, hle.trans (Nat.sub_le _ _), fun e he hebase hlt hle' => ?_⟩
      by_cases htop : e.1.target.version = x.version
      · -- the version that is left is that of the phi node
        have hsame : e.1.target = e'.1.target := by
          rw [htarget]
          exact congrArg₂ SSAVar.mk hebase htop
        rwa [List.inj_on_of_nodup_map h.numbered.nodup_targets he he' hsame]
      · grind
    · exact ih

theorem Numbered.version_le (h : Numbered entries) (he : e ∈ entries) :
    e.1.target.version ≤ defCount e.1.target.baseName (entries.map Prod.fst) := by
  obtain ⟨before, after, rfl⟩ := List.append_of_mem he
  have hsnoc := defCount_snoc e.1.target.baseName (before.map Prod.fst) e.1
  rw [if_pos rfl] at hsnoc
  rw [(h before e after rfl).version, ← hsnoc]
  refine defCount_le_of_prefix ⟨after.map Prod.fst, ?_⟩
  rw [List.map_append, List.map_cons, List.append_assoc]
  rfl

theorem EntriesOf.exists_target (h : EntriesOf cfg entries) (hw : (buildSsa cfg).Named w) :
    ∃ e ∈ entries, e.1.target = w := by
  -- the versions up to the number behind an initial part have their nodes there
  have hcounted : ∀ {before e after}, entries = before ++ e :: after → 0 < w.version →
      w.version = defCount w.baseName (before.map Prod.fst) → ∃ e ∈ entries, e.1.target = w := by
    rintro before e after rfl hpos hversion
    obtain ⟨e', he', htarget⟩ := h.numbered.prefix.exists_version hpos hversion.le
    exact ⟨e', List.mem_append_left _ he', htarget⟩
  rcases hw with ⟨n, hn, hw⟩ | ⟨phi, hphi, hw⟩
  · rw [h.nodes] at hn
    obtain ⟨e, he, rfl⟩ := List.mem_map.mp hn
    rcases hw with htarget | huse
    · exact ⟨e, he, htarget⟩
    · obtain ⟨before, after, heq⟩ := List.append_of_mem he
      have hnumbered := h.numbered before e after heq
      rcases ho : e.2 with _ | o
      · rw [(hnumbered.phi ho).2.1] at huse
        exact absurd huse List.not_mem_nil
      · obtain ⟨hversion, hpos, -⟩ := ((hnumbered.assignment o ho).2.2.2.2 w).mp huse
        exact hcounted heq hpos hversion
  · obtain ⟨e, he, hnone, htarget, hoperands⟩ := h.phi_form hphi
    rw [htarget, hoperands] at hw
    obtain ⟨before, after, heq⟩ := List.append_of_mem he
    have hnumbered := h.numbered before e after heq
    have hcases : w = e.1.target ∨ w = ⟨e.1.target.baseName, e.1.target.version - 1⟩ := by grind
    rcases hcases with rfl | rfl
    · exact ⟨e, he, rfl⟩
    · have hversion : e.1.target.version - 1 = defCount e.1.target.baseName (before.map Prod.fst) := by
        rw [hnumbered.version, Nat.add_sub_cancel]
      exact hcounted heq (hversion.symm ▸ (hnumbered.phi hnone).1) hversion

/-- **Every version that occurs is defined by one node.** Source: `analysis/ssa/builder.py`, `build_ssa`. Kind: P -/
theorem single_definition (cfg : CFG) (hw : (buildSsa cfg).Named w) :
    ((buildSsa cfg).nodes.filter fun n => n.target = w).length = 1 := by
  obtain ⟨entries, h⟩ := exists_entriesOf cfg
  obtain ⟨e, he, rfl⟩ := h.exists_target hw
  have hnodup : ((buildSsa cfg).nodes.map SSANode.target).Nodup := by
    rw [h.nodes, List.map_map]
    exact h.numbered.nodup_targets
  have hmem : e.1.target ∈ (buildSsa cfg).nodes.map SSANode.target := by
    rw [h.nodes]
    exact List.mem_map_of_mem (List.mem_map_of_mem he)
  have hcount := List.count_eq_one_of_mem hnodup hmem
  rw [List.count, List.countP_map, List.countP_eq_length_filter] at hcount
  rw [← hcount]
  congr 1

/-- **A use leads to the last assignment before it.** Source: `analysis/ssa/builder.py`, `build_ssa`. Kind: P -/
theorem EntriesOf.covers_iff_split (h : EntriesOf cfg entries) {before after : List Entry}
    (heq : entries = before ++ (n, some u) :: after) (hd : (m, some d) ∈ entries)
    (hread : inStr d.stmt.target u.stmt.valueExpression = true ∨ (u.stmt.operator ≠ "=" ∧ d.stmt.target = u.stmt.target)) :
    (buildSsa cfg).Covers n m.target ↔ ∃ start between, before = start ++ (m, some d) :: between ∧
      ∀ e ∈ between, ∀ o, e.2 = some o → o.stmt.target ≠ d.stmt.target := by
  have hbefore : Numbered before := Numbered.prefix (heq ▸ h.numbered)
  have huses := ((h.numbered before _ after heq).assignment u rfl).2.2.2.2
  have hbase : ∀ {e o}, e ∈ entries → e.2 = some o → e.1.target.baseName = o.stmt.target := by
    intro e o he ho
    obtain ⟨s, t, hst⟩ := List.append_of_mem he
    exact ((h.numbered s e t hst).assignment o ho).2.2.2.1
  have hmem : ∀ {e}, e ∈ before → e ∈ entries := fun he => heq ▸ List.mem_append_left _ he
  constructor
  · rintro ⟨x, hx, hsteps⟩
    obtain ⟨hversion, -, -⟩ := (huses x).mp hx
    obtain ⟨hxbase, hle, hphis⟩ := h.descends hsteps
    have hpos : 0 < m.target.version := by
      obtain ⟨s, t, hst⟩ := List.append_of_mem hd
      rw [(h.numbered s _ t hst).version]
      exact Nat.succ_pos _
    obtain ⟨e, he, htarget⟩ := hbefore.exists_version hpos (hle.trans hversion.le)
    -- the version has no other node
    obtain rfl : e = (m, some d) := by
      refine List.inj_on_of_nodup_map h.numbered.nodup_targets (hmem he) hd ?_
      rw [htarget, ← hxbase]
    obtain ⟨start, between, rfl⟩ := List.append_of_mem he
    refine ⟨start, between, rfl, fun e' he' o ho htarget' => ?_⟩
    have hin : e' ∈ start ++ (m, some d) :: between := List.mem_append_right _ (List.mem_cons_of_mem _ he')
    have hsame : e'.1.target.baseName = m.target.baseName := by
      rw [hbase (hmem hin) ho, htarget', ← hbase hd rfl]
    obtain ⟨b₁, b₂, rfl⟩ := List.append_of_mem he'
    have hlt := hbefore.version_lt rfl hsame.symm
    have hle' := hbefore.version_le hin
    rw [hsame, hxbase, ← hversion] at hle'
    rw [hphis e' (hmem hin) (hsame.trans hxbase) hlt hle'] at ho
    cases ho
  · rintro ⟨start, between, rfl, hfree⟩
    -- from the number behind some of the nodes between down to the assignment
    have hchain : ∀ l, (∃ rest, between = l ++ rest) → ReflTransGen (buildSsa cfg).PhiStep
        ⟨d.stmt.target, defCount d.stmt.target ((start ++ (m, some d) :: l).map Prod.fst)⟩ m.target := by
      intro l
      induction l using List.reverseRecOn with
      | nil =>
        intro _
        have hversion := (hbefore start _ between rfl).version
        have hm : m.target.baseName = d.stmt.target := hbase hd rfl
        rw [List.map_append, List.map_singleton, defCount_snoc, if_pos hm, ← hm, ← hversion]
      | append_singleton l e ih =>
        rintro ⟨rest, rfl⟩
        have hrest := ih ⟨e :: rest, by rw [List.append_assoc]; rfl⟩
        have he : e ∈ l ++ [e] ++ rest := List.mem_append_left _ (List.mem_append_right _ (List.mem_singleton.mpr rfl))
        rw [← List.cons_append, ← List.append_assoc, List.map_append, List.map_singleton, defCount_snoc]
        split_ifs with hv
        · have hin := hmem (List.mem_append_right start (List.mem_cons_of_mem (m, some d) he))
          have hnone : e.2 = none := Option.eq_none_iff_forall_not_mem.mpr fun o ho =>
            hfree e he o ho ((hbase hin ho).symm.trans hv)
          have hsplit : start ++ (m, some d) :: (l ++ [e] ++ rest) = (start ++ (m, some d) :: l) ++ e :: rest := by simp
          have hversion := (hbefore _ e rest hsplit).version
          rw [hv] at hversion
          refine ReflTransGen.head (h.phiStep_iff.mpr ⟨e, hin, hnone, ?_, .inl rfl⟩) hrest
          rw [← hversion, ← hv]
        · rwa [Nat.add_zero]
    refine ⟨_, (huses _).mpr ⟨rfl, ?_, hread⟩, hchain between ⟨[], (List.append_nil _).symm⟩⟩
    refine List.countP_pos_iff.mpr ⟨m, ?_, decide_eq_true (hbase hd rfl)⟩
    exact List.mem_map.mpr ⟨_, List.mem_append_right _ List.mem_cons_self, rfl⟩

end uses

/-! ## The order of the occurrences -/

section occurrences

variable {cfg : CFG} {o o' d u : Occurrence} {n m : SSANode} {entries : List Entry}

/-- In an earlier node, or earlier in the same node. Kind: D -/
def CFG.Earlier (cfg : CFG) (o o' : Occurrence) : Prop :=
  Precedes cfg.nodes.keys o.place o'.place ∨ (o.place = o'.place ∧ o.index < o'.index)

theorem CFG.Earlier.asymm (h : cfg.Earlier o o') : ¬cfg.Earlier o' o := by
  rintro (hback | ⟨hplace, hlt'⟩)
  · rcases h with h | ⟨hplace, -⟩
    · exact h.asymm hback
    · exact hback.ne hplace.symm
  · rcases h with h | ⟨-, hlt⟩
    · exact h.ne hplace.symm
    · exact lt_asymm hlt hlt'

theorem pairwise_index (place : Place) (stmts : List IRStatement) :
    (nodeOccurrences place stmts).Pairwise fun o o' => o.index < o'.index := by
  unfold nodeOccurrences
  refine List.pairwise_map.mpr ?_
  have hindexes : ((directAssignments stmts).zipIdx.map Prod.snd).Pairwise (· < ·) := by
    rw [List.zipIdx_map_snd]
    exact List.pairwise_lt_range'
  exact List.pairwise_map.mp hindexes

theorem place_of_mem {place : Place} {stmts : List IRStatement} (h : o ∈ nodeOccurrences place stmts) : o.place = place := by
  obtain ⟨_, _, rfl⟩ := List.mem_map.mp h
  rfl

theorem pairwise_earlier (cfg : CFG) : cfg.occurrences.Pairwise cfg.Earlier := by
  refine List.pairwise_flatMap.mpr ⟨fun entry _ => ?_, ?_⟩
  · refine List.Pairwise.imp_of_mem ?_ (pairwise_index entry.1 entry.2.statements)
    exact fun ho ho' hlt => .inr ⟨(place_of_mem ho).trans (place_of_mem ho').symm, hlt⟩
  · refine (List.pairwise_map.mp (pairwise_precedes cfg.nodes.nodup)).imp fun {a b} hab o ho o' ho' => .inl ?_
    rw [place_of_mem ho, place_of_mem ho']
    exact hab

theorem precedes_occurrences_iff (ho : o ∈ cfg.occurrences) (ho' : o' ∈ cfg.occurrences) :
    Precedes cfg.occurrences o o' ↔ cfg.Earlier o o' :=
  precedes_iff_of_pairwise (pairwise_earlier cfg) CFG.Earlier.asymm ho ho'

theorem nodup_occurrences (cfg : CFG) : cfg.occurrences.Nodup := by
  refine (pairwise_earlier cfg).imp fun {o o'} h heq => ?_
  rw [heq] at h
  exact h.asymm h

theorem filterMap_split (s t : List Entry) (n : SSANode) (o : Occurrence) :
    (s ++ (n, some o) :: t).filterMap Prod.snd = s.filterMap Prod.snd ++ o :: t.filterMap Prod.snd := List.filterMap_append

/-- Only one node is made for an occurrence. Kind: L -/
theorem EntriesOf.node_unique (h : EntriesOf cfg entries) (hn : (n, some o) ∈ entries) (hm : (m, some o) ∈ entries) :
    n = m := by
  obtain ⟨s, t, rfl⟩ := List.append_of_mem hn
  have hnodup := nodup_occurrences cfg
  rw [← h.occurrences, filterMap_split] at hnodup
  obtain ⟨-, htail, hdisjoint⟩ := List.nodup_append.mp hnodup
  have hmem : ∀ {l : List Entry}, (m, some o) ∈ l → o ∈ l.filterMap Prod.snd := fun hm =>
    List.mem_filterMap.mpr ⟨_, hm, rfl⟩
  rcases List.mem_append.mp hm with hm | hm
  · exact absurd rfl (hdisjoint o (hmem hm) o List.mem_cons_self)
  · rcases List.mem_cons.mp hm with heq | hm
    · exact (congrArg Prod.fst heq).symm
    · exact absurd (hmem hm) (List.nodup_cons.mp htail).1

/-- **A use leads to the last assignment before it.** Source: `analysis/ssa/builder.py`, `build_ssa`. Kind: P -/
theorem EntriesOf.covers_iff (h : EntriesOf cfg entries) (hu : (n, some u) ∈ entries) (hd : (m, some d) ∈ entries)
    (hread : inStr d.stmt.target u.stmt.valueExpression = true ∨ (u.stmt.operator ≠ "=" ∧ d.stmt.target = u.stmt.target)) :
    (buildSsa cfg).Covers n m.target ↔ cfg.Earlier d u ∧
      ∀ o ∈ cfg.occurrences, o.stmt.target = d.stmt.target → ¬(cfg.Earlier d o ∧ cfg.Earlier o u) := by
  have hmem : ∀ {n o}, (n, some o) ∈ entries → o ∈ cfg.occurrences := fun hn =>
    h.occurrences ▸ List.mem_filterMap.mpr ⟨_, hn, rfl⟩
  obtain ⟨before, after, heq⟩ := List.append_of_mem hu
  have hoccs : cfg.occurrences = before.filterMap Prod.snd ++ u :: after.filterMap Prod.snd := by
    rw [← h.occurrences, heq, filterMap_split]
  have hnodup := nodup_occurrences cfg
  -- what stands between the two nodes are the occurrences between
  have hbetween : ∀ {start between}, before = start ++ (m, some d) :: between →
      (∀ {o}, o ∈ between.filterMap Prod.snd ↔ Precedes cfg.occurrences d o ∧ Precedes cfg.occurrences o u) := by
    rintro start between rfl o
    rw [filterMap_split, List.append_assoc, List.cons_append] at hoccs
    rw [hoccs] at hnodup ⊢
    exact mem_between_iff hnodup
  rw [h.covers_iff_split heq hd hread, ← precedes_occurrences_iff (hmem hd) (hmem hu)]
  constructor
  · rintro ⟨start, between, hbefore, hfree⟩
    refine ⟨?_, fun o ho htarget => ?_⟩
    · rw [hoccs] at hnodup ⊢
      refine (precedes_append_cons_iff hnodup).mpr (List.mem_filterMap.mpr ⟨(m, some d), ?_, rfl⟩)
      rw [hbefore]
      exact List.mem_append_right _ List.mem_cons_self
    · rw [← precedes_occurrences_iff (hmem hd) ho, ← precedes_occurrences_iff ho (hmem hu), ← hbetween hbefore]
      intro hmember
      obtain ⟨e, he, heo⟩ := List.mem_filterMap.mp hmember
      exact hfree e he o heo htarget
  · rintro ⟨hprec, hfree⟩
    rw [hoccs] at hprec hnodup
    obtain ⟨⟨m', _⟩, he, rfl⟩ := List.mem_filterMap.mp ((precedes_append_cons_iff hnodup).mp hprec)
    obtain rfl := h.node_unique hd (heq ▸ List.mem_append_left _ he)
    obtain ⟨start, between, hbefore⟩ := List.append_of_mem he
    refine ⟨start, between, hbefore, fun e he' o heo htarget => ?_⟩
    have hin : o ∈ between.filterMap Prod.snd := List.mem_filterMap.mpr ⟨e, he', heo⟩
    have ho : o ∈ cfg.occurrences := by
      rw [hoccs, hbefore, List.filterMap_append]
      exact List.mem_append_left _ (List.mem_append_right _ (List.mem_filterMap.mpr ⟨e, List.mem_cons_of_mem _ he', heo⟩))
    refine hfree o ho htarget ?_
    rw [← precedes_occurrences_iff (hmem hd) ho, ← precedes_occurrences_iff ho (hmem hu)]
    exact (hbetween hbefore).mp hin

/-- Of the assignments of a variable in a node one is the last. Kind: L -/
theorem exists_last {v : String} {place : Place} (h : cfg.Assigns v place) : ∃ d ∈ cfg.occurrences, d.place = place ∧
    d.stmt.target = v ∧ ∀ o ∈ cfg.occurrences, o.place = place → d.index < o.index → o.stmt.target ≠ v := by
  obtain ⟨o₀, ho₀, hplace₀, htarget₀⟩ := h
  have hmem : ∀ {o}, o ∈ cfg.occurrences.filter (fun o => o.place = place ∧ o.stmt.target = v) ↔
      o ∈ cfg.occurrences ∧ o.place = place ∧ o.stmt.target = v := by
    intro o
    rw [List.mem_filter, decide_eq_true_iff]
  have hsorted : (cfg.occurrences.filter fun o => o.place = place ∧ o.stmt.target = v).Pairwise cfg.Earlier :=
    (pairwise_earlier cfg).sublist List.filter_sublist
  rcases List.eq_nil_or_concat (cfg.occurrences.filter fun o => o.place = place ∧ o.stmt.target = v) with hnil | ⟨l, d, hl⟩
  · simp_all
  · rw [List.concat_eq_append] at hl
    rw [hl] at hsorted hmem
    obtain ⟨hd, hplace, htarget⟩ := hmem.mp (List.mem_append_right _ (List.mem_singleton.mpr rfl))
    refine ⟨d, hd, hplace, htarget, fun o ho hoplace hlt hotarget => ?_⟩
    rcases List.mem_append.mp (hmem.mpr ⟨ho, hoplace, hotarget⟩) with hin | hin
    · rcases (List.pairwise_append.mp hsorted).2.2 o hin d (List.mem_singleton.mpr rfl) with hprec | ⟨-, hback⟩
      · exact hprec.ne (hoplace.trans hplace.symm)
      · exact lt_asymm hlt hback
    · simp_all

/-- **The definitions that reach are covered exactly when they come from the last node before that assigns.**
Source: `analysis/ssa/builder.py`, `build_ssa`
Kind: P -/
theorem coversReaching_iff (cfg : CFG) {reads : IRAssignment → String → Prop}
    (hreads : ∀ a v, reads a v → inStr v a.valueExpression = true ∨ (a.operator ≠ "=" ∧ v = a.target)) :
    CoversReaching reads cfg ↔ ∀ u ∈ cfg.occurrences, ∀ v, reads u.stmt v → cfg.Exposed v u →
      FromLast cfg.Links (cfg.Assigns v) cfg.nodes.keys u.place := by
  obtain ⟨entries, h⟩ := exists_entriesOf cfg
  have hnode : ∀ {o}, o ∈ cfg.occurrences → ∃ n, (n, some o) ∈ entries := by
    intro o ho
    rw [← h.occurrences] at ho
    obtain ⟨⟨n, _⟩, hn, rfl⟩ := List.mem_filterMap.mp ho
    exact ⟨n, hn⟩
  have hmem : ∀ {n o}, (n, some o) ∈ entries → o ∈ cfg.occurrences := fun hn =>
    h.occurrences ▸ List.mem_filterMap.mpr ⟨_, hn, rfl⟩
  constructor
  · intro hcovers u hu v hread hexposed start hstart harrives
    obtain ⟨d, hd, rfl, rfl, hlast⟩ := exists_last hstart
    obtain ⟨n, hn⟩ := hnode hu
    obtain ⟨m, hm⟩ := hnode hd
    have hcovered := hcovers u n d m (h.mem_definitions.mpr hn) (h.mem_definitions.mpr hm) hread
      (.along hlast harrives hexposed)
    obtain ⟨hearlier, hfree⟩ := (h.covers_iff hn hm (hreads _ _ hread)).mp hcovered
    constructor
    · rcases hearlier with hprec | ⟨hplace, hlt⟩
      · exact hprec
      · exact absurd rfl (hexposed d hd hplace hlt)
    · rintro between ⟨o, ho, rfl, htarget⟩ ⟨hdo, hou⟩
      exact hfree o ho htarget ⟨.inl hdo, .inl hou⟩
  · intro hlastly u n d m hn hm hread hreaches
    have hn := h.mem_definitions.mp hn
    have hm := h.mem_definitions.mp hm
    rw [h.covers_iff hn hm (hreads _ _ hread)]
    cases hreaches with
    | within hplace hlt hfree =>
      refine ⟨.inr ⟨hplace, hlt⟩, fun o ho htarget => ?_⟩
      rintro ⟨hdo | ⟨hdo, hlo⟩, hou | ⟨hou, hhi⟩⟩
      · exact (hdo.trans hou).ne hplace
      · exact hdo.ne (hplace.trans hou.symm)
      · exact hou.ne (hdo.symm.trans hplace)
      · exact hfree o ho hdo.symm hlo hhi htarget
    | along hlast hpath hexposed =>
      obtain ⟨hprec, hbetween⟩ := hlastly u (hmem hn) _ hread hexposed d.place ⟨d, hmem hm, rfl, rfl⟩ hpath
      refine ⟨.inl hprec, fun o ho htarget => ?_⟩
      rintro ⟨hdo | ⟨hdo, hlo⟩, hou | ⟨hou, hhi⟩⟩
      · exact hbetween o.place ⟨o, ho, rfl, htarget⟩ ⟨hdo, hou⟩
      · exact hexposed o ho hou hhi htarget
      · exact hlast o ho hdo.symm hlo htarget
      · exact hlast o ho hdo.symm hlo htarget

end occurrences

end KarsaSec.Ssa
