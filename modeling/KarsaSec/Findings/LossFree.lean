import KarsaSec.Findings.Correlator

/-!
# What correlation keeps

Correlation loses nothing if every finding ends up in one group that has its rule, groups do not mix
categories, members with opposite outcomes are reported, and the order of the findings is irrelevant
(`LossFree`). The exact pass replaces the findings of one rule at one line by the strongest of them, so
this is not so for every list of findings.

* `Duplicates`: the findings of one rule at one line; `Strongest`: those the exact pass can keep.
* `Readable`: equal keys say equal fields; `readable_of_noBar`: they do where the digest is collision
  free on the keys and no path has a bar.
* `correlate_lossFree_iff`: where no two different strongest duplicates tie, correlation loses nothing
  exactly when duplicates agree on their category and opposite outcomes leave a conflict between
  strongest findings.
-/

namespace KarsaSec.Findings

open KarsaSec.Found KarsaSec.Dataflow

/-! ## What equal keys say -/

/-- A number is written without a bar. Kind: L -/
theorem bar_not_mem_toString_int (a : ℤ) : '|' ∉ (toString a).toList := by
  have hnat : ∀ n : ℕ, '|' ∉ (toString n).toList := fun n hmem =>
    absurd (isDigit_of_mem_toString hmem) (by decide)
  rw [toList_toString_int]
  split
  · exact hnat _
  · simp_all

/-- The category of a finding: its sink category, or the one its CWE stands for. Kind: D -/
def Finding.category (f : Finding) : String := catKey f.sinkCategory f.cweId

/-- The normalized path of a finding. Kind: D -/
def Finding.path (f : Finding) : String := normalizeFindingPath f.filePath

/-- Same rule at the same line. Source: `correlator.py`, `correlate`, case A. Kind: D -/
def Duplicates (f g : Finding) : Prop := f.path = g.path ∧ f.line = g.line ∧ f.ruleId = g.ruleId

/-- Same category at the same line. Source: `correlator.py`, `correlate`, case B. Kind: D -/
def SameSink (f g : Finding) : Prop := f.path = g.path ∧ f.line = g.line ∧ f.category = g.category

instance (f g : Finding) : Decidable (Duplicates f g) := inferInstanceAs (Decidable (_ ∧ _ ∧ _))

instance (f g : Finding) : Decidable (SameSink f g) := inferInstanceAs (Decidable (_ ∧ _ ∧ _))

/-- Three fields behind a tag are told apart by their bars. Kind: L -/
theorem joinBar_inj {tag p p' r r' : String} {l l' : ℤ} (hp : '|' ∉ p.toList)
    (hp' : '|' ∉ p'.toList)
    (h : joinStr "|" [tag, p, toString l, r] = joinStr "|" [tag, p', toString l', r']) :
    p = p' ∧ l = l' ∧ r = r' := by
  have hchars := congrArg String.toList h
  simp only [joinStr, String.toList_append, List.append_assoc] at hchars
  have hbar : "|".toList = ['|'] := by decide
  rw [hbar] at hchars
  have hrest := List.append_cancel_left (List.append_cancel_left hchars)
  obtain ⟨hpath, hrest⟩ := append_sep_inj hp hp' hrest
  obtain ⟨hline, hrule⟩ := append_sep_inj (bar_not_mem_toString_int l)
    (bar_not_mem_toString_int l') hrest
  exact ⟨String.toList_injective hpath, toString_int_inj (String.toList_injective hline),
    String.toList_injective hrule⟩

variable (sha256 : ByteArray → String)

/-- The keys of the findings say what was hashed for them. Kind: C -/
structure Readable (findings : List Finding) : Prop where
  exact : ∀ f ∈ findings, ∀ g ∈ findings, exactKey sha256 f = exactKey sha256 g → Duplicates f g
  semantic : ∀ f ∈ findings, ∀ g ∈ findings,
    semanticKey sha256 f = semanticKey sha256 g → SameSink f g

variable {sha256}

/-- Where no path has a bar and the digest does not collide on what is hashed for the findings, their
keys are readable.
Source: `model.py`, `CanonicalFindingIdentity.create`
Kind: P -/
theorem readable_of_noBar {findings : List Finding} (hbar : ∀ f ∈ findings, '|' ∉ f.path.toList)
    (hexact : ∀ f ∈ findings, ∀ g ∈ findings, exactKey sha256 f = exactKey sha256 g →
      exactRaw f.filePath f.line f.ruleId = exactRaw g.filePath g.line g.ruleId)
    (hsem : ∀ f ∈ findings, ∀ g ∈ findings, semanticKey sha256 f = semanticKey sha256 g →
      semanticRaw f.filePath f.line f.sinkCategory f.cweId =
        semanticRaw g.filePath g.line g.sinkCategory g.cweId) : Readable sha256 findings :=
  { exact := fun f hf g hg h => joinBar_inj (hbar f hf) (hbar g hg) (hexact f hf g hg h)
    semantic := fun f hf g hg h => joinBar_inj (hbar f hf) (hbar g hg) (hsem f hf g hg h) }

/-- Source: `model.py`, `CanonicalFindingIdentity.create`, `exact_key`. Kind: L -/
theorem exactKey_eq_of_duplicates {f g : Finding} (h : Duplicates f g) :
    exactKey sha256 f = exactKey sha256 g := by
  obtain ⟨hpath, hline, hrule⟩ := h
  change normalizeFindingPath _ = normalizeFindingPath _ at hpath
  simp only [exactKey, CanonicalFindingIdentity.ofFinding, CanonicalFindingIdentity.create,
    exactRaw, hpath, hline, hrule]

/-- Source: `model.py`, `CanonicalFindingIdentity.create`, `semantic_key`. Kind: L -/
theorem semanticKey_eq_of_sameSink {f g : Finding} (h : SameSink f g) :
    semanticKey sha256 f = semanticKey sha256 g := by
  obtain ⟨hpath, hline, hcat⟩ := h
  change normalizeFindingPath _ = normalizeFindingPath _ at hpath
  change catKey _ _ = catKey _ _ at hcat
  simp only [semanticKey, CanonicalFindingIdentity.ofFinding, CanonicalFindingIdentity.create,
    semanticRaw, hpath, hline, hcat]

theorem exactKey_eq_iff {findings : List Finding} (hr : Readable sha256 findings) {f g : Finding}
    (hf : f ∈ findings) (hg : g ∈ findings) :
    exactKey sha256 f = exactKey sha256 g ↔ Duplicates f g :=
  ⟨hr.exact f hf g hg, exactKey_eq_of_duplicates⟩

theorem semanticKey_eq_iff {findings : List Finding} (hr : Readable sha256 findings) {f g : Finding}
    (hf : f ∈ findings) (hg : g ∈ findings) :
    semanticKey sha256 f = semanticKey sha256 g ↔ SameSink f g :=
  ⟨hr.semantic f hf g hg, semanticKey_eq_of_sameSink⟩

/-! ## The primaries -/

/-- None of the duplicates of `f` is stronger. Kind: D -/
def Strongest (findings : List Finding) (f : Finding) : Prop :=
  ∀ g ∈ findings, Duplicates g f → rank g ≤ rank f

/-- No two different duplicates are both the strongest. Kind: D -/
def NoTies (findings : List Finding) : Prop :=
  ∀ f ∈ findings, ∀ g ∈ findings, Duplicates f g → Strongest findings f → Strongest findings g → f = g

theorem Duplicates.symm {f g : Finding} (h : Duplicates f g) : Duplicates g f :=
  ⟨h.1.symm, h.2.1.symm, h.2.2.symm⟩

section primaries

variable {findings : List Finding} (hr : Readable sha256 findings)

include hr

/-- The primary of the exact group of a finding is one of its strongest duplicates.
Source: `correlator.py`, `correlate`, first pass
Kind: P -/
theorem primary_spec {f p : Finding} (hf : f ∈ findings)
    (hp : pickMax rank (groupOf (exactKey sha256) findings f) = some p) :
    p ∈ findings ∧ Duplicates p f ∧ Strongest findings p := by
  obtain ⟨hmem, hmax⟩ := pickMax_spec rank hp
  obtain ⟨hp, hkey⟩ := (mem_groupOf _).mp hmem
  have hdup := (exactKey_eq_iff hr hp hf).mp hkey
  refine ⟨hp, hdup, fun g hg hgp => hmax g ((mem_groupOf _).mpr ⟨hg, ?_⟩)⟩
  exact ((exactKey_eq_iff hr hg hp).mpr hgp).trans hkey

/-- Without ties, the primaries of the exact groups are the strongest findings.
Source: `correlator.py`, `correlate`, first pass
Kind: P -/
theorem mem_exactPrimaries_iff (hn : NoTies findings) {p : Finding} :
    p ∈ exactPrimaries sha256 findings ↔ p ∈ findings ∧ Strongest findings p := by
  constructor
  · intro hp
    obtain ⟨hmem, hpick⟩ := pickMax_of_mem_primariesBy rank _ hp
    exact ⟨hmem, (primary_spec hr hmem hpick).2.2⟩
  · rintro ⟨hmem, hstrong⟩
    obtain ⟨q, hq, hpick, -, -⟩ := exists_primary rank (exactKey sha256) hmem
    obtain ⟨hqmem, hdup, hqstrong⟩ := primary_spec hr hmem hpick
    rw [← hn q hqmem p hmem hdup hqstrong hstrong]
    exact hq

/-- Primaries of one rule, line and category are the same finding. Kind: L -/
theorem primaries_tie {p q : Finding} (hp : p ∈ exactPrimaries sha256 findings)
    (hq : q ∈ exactPrimaries sha256 findings) (hkey : semanticKey sha256 p = semanticKey sha256 q)
    (hrank : rank p = rank q) : p = q := by
  have hpmem := (pickMax_of_mem_primariesBy rank _ hp).1
  have hqmem := (pickMax_of_mem_primariesBy rank _ hq).1
  have hsame := (semanticKey_eq_iff hr hpmem hqmem).mp hkey
  have hrule : p.ruleId = q.ruleId := congrArg (fun r => (ofLex (ofLex r).2).2) hrank
  exact primariesBy_key_inj rank _ hp hq
    ((exactKey_eq_iff hr hpmem hqmem).mpr ⟨hsame.1, hsame.2.1, hrule⟩)

/-- The primary of a finding is in the output, in one group. Kind: L -/
theorem exists_primary_of_mem {f : Finding} (hf : f ∈ findings) :
    ∃ p ∈ exactPrimaries sha256 findings,
      pickMax rank (groupOf (exactKey sha256) findings f) = some p ∧ p ∈ findings ∧
      Duplicates p f := by
  obtain ⟨p, hp, hpick, -, -⟩ := exists_primary rank (exactKey sha256) hf
  obtain ⟨hmem, hdup, -⟩ := primary_spec hr hf hpick
  exact ⟨p, hp, hpick, hmem, hdup⟩

end primaries

/-! ## Groups -/

theorem mem_semanticGroup {findings : List Finding} {p q : Finding} :
    q ∈ semanticGroup sha256 findings p ↔
      q ∈ exactPrimaries sha256 findings ∧ semanticKey sha256 q = semanticKey sha256 p :=
  mem_groupOf _

/-- A canonical finding describes the semantic group of a primary.
Source: `correlator.py`, `correlate`, second pass
Kind: L -/
theorem output_spec {findings : List Finding} {c : CanonicalFinding}
    (hc : c ∈ (correlate sha256 findings).canonical) :
    ∃ q ∈ exactPrimaries sha256 findings, c.semanticFingerprint = semanticKey sha256 q ∧
      c.evidenceConflict = firstConflict (sortDesc rank (semanticGroup sha256 findings q)) ∧
      ∀ r, r ∈ c.correlatedRuleIds ↔ ∃ f ∈ semanticGroup sha256 findings q, f.ruleId = r := by
  obtain ⟨q, hq, hcan⟩ := (mem_correlate sha256).mp hc
  exact ⟨q, hq, canonicalOf_some hcan⟩

/-- Canonical findings with one fingerprint are the same. Kind: L -/
theorem output_inj {findings : List Finding} {c d : CanonicalFinding}
    (hc : c ∈ (correlate sha256 findings).canonical)
    (hd : d ∈ (correlate sha256 findings).canonical)
    (h : c.semanticFingerprint = d.semanticFingerprint) : c = d := by
  obtain ⟨p, -, hp⟩ := (mem_correlate sha256).mp hc
  obtain ⟨q, -, hq⟩ := (mem_correlate sha256).mp hd
  have hkey : semanticKey sha256 p = semanticKey sha256 q := by
    rw [← (canonicalOf_some hp).1, h, (canonicalOf_some hq).1]
  have hgroup : semanticGroup sha256 findings p = semanticGroup sha256 findings q := by
    unfold semanticGroup groupOf
    rw [hkey]
  rw [hkey, hgroup, hq] at hp
  exact (Option.some_injective _ hp).symm

/-- Each finding is in exactly one group. Source: `correlator.py`, `correlate`. Kind: P -/
theorem existsUnique_group {findings : List Finding} {f : Finding} (hf : f ∈ findings) :
    ∃! c, c ∈ (correlate sha256 findings).canonical ∧ InGroup sha256 findings f c := by
  obtain ⟨p, hp, hpick, -, -⟩ := exists_primary rank (exactKey sha256) hf
  have hne : semanticGroup sha256 findings p ≠ [] :=
    List.ne_nil_of_mem (mem_semanticGroup.mpr ⟨hp, rfl⟩)
  obtain ⟨c, hc⟩ := @exists_canonicalOf sha256 (semanticKey sha256 p) _ hne
  have hmem := (mem_correlate sha256).mpr ⟨p, hp, hc⟩
  refine ⟨c, ⟨hmem, p, hpick, (canonicalOf_some hc).1.symm⟩, ?_⟩
  rintro d ⟨hd, q, hq, hkey⟩
  rw [hpick] at hq
  obtain rfl := Option.some_injective _ hq
  exact output_inj hd hmem (hkey.symm.trans (canonicalOf_some hc).1.symm)

/-- A finding's rule is recorded in its group. Source: `correlator.py`, `all_rule_ids`. Kind: P -/
theorem ruleId_mem_of_inGroup {findings : List Finding} (hr : Readable sha256 findings)
    {f : Finding} {c : CanonicalFinding} (hf : f ∈ findings)
    (hc : c ∈ (correlate sha256 findings).canonical) (h : InGroup sha256 findings f c) :
    f.ruleId ∈ c.correlatedRuleIds := by
  obtain ⟨q, -, hfp, -, hrules⟩ := output_spec hc
  obtain ⟨p, hpick, hkey⟩ := h
  obtain ⟨p', hp', hpick', -, hdup⟩ := exists_primary_of_mem hr hf
  rw [hpick] at hpick'
  obtain rfl := Option.some_injective _ hpick'
  exact (hrules _).mpr ⟨p, mem_semanticGroup.mpr ⟨hp', hkey.trans hfp⟩, hdup.2.2⟩

/-! ## Nothing is lost -/

/-- The qualification state of a finding, if it is qualified. Kind: D -/
def Finding.status (f : Finding) : Option QualificationState :=
  f.qualified.map Qualified.qualificationState

variable (sha256)

/-- Correlation of a list loses nothing. Source: `correlator.py`, `FindingCorrelator`. Kind: C -/
structure LossFree (findings : List Finding) : Prop where
  oneGroup : ∀ f ∈ findings,
    ∃! c, c ∈ (correlate sha256 findings).canonical ∧ InGroup sha256 findings f c
  ruleKept : ∀ f ∈ findings, ∀ c ∈ (correlate sha256 findings).canonical,
    InGroup sha256 findings f c → f.ruleId ∈ c.correlatedRuleIds
  noMix : ∀ f ∈ findings, ∀ g ∈ findings, ∀ c ∈ (correlate sha256 findings).canonical,
    InGroup sha256 findings f c → InGroup sha256 findings g c → f.category = g.category
  conflicts : ∀ f ∈ findings, ∀ g ∈ findings, ∀ c ∈ (correlate sha256 findings).canonical,
    InGroup sha256 findings f c → InGroup sha256 findings g c →
    f.status = some .confirmed → g.status = some .rejected → c.evidenceConflict.isSome
  orderFree : ∀ findings', findings'.Perm findings →
    (∀ c, c ∈ (correlate sha256 findings').canonical ↔ c ∈ (correlate sha256 findings).canonical) ∧
    ∀ f c, InGroup sha256 findings' f c ↔ InGroup sha256 findings f c

variable {sha256}

/-- Duplicates agree on their category. Kind: C -/
def SameClass (findings : List Finding) : Prop :=
  ∀ f ∈ findings, ∀ g ∈ findings, Duplicates f g → f.category = g.category

/-- Opposite outcomes at one sink leave a conflict between two strongest findings of that sink.
Kind: C -/
def Visible (findings : List Finding) : Prop :=
  ∀ f ∈ findings, ∀ g ∈ findings, SameSink f g →
    f.status = some .confirmed → g.status = some .rejected →
    ∃ d ∈ findings, ∃ e ∈ findings, SameSink d f ∧ SameSink e f ∧
      Strongest findings d ∧ Strongest findings e ∧ (conflictOf d e).isSome

/-- Where duplicates agree on their category, findings of one group have one category.
Source: `correlator.py`, `correlate`
Kind: L -/
theorem sameSink_of_inGroup {findings : List Finding} (hr : Readable sha256 findings)
    (hs : SameClass findings) {f : Finding} {c : CanonicalFinding} {q : Finding}
    (hf : f ∈ findings) (hq : q ∈ findings) (hc : c.semanticFingerprint = semanticKey sha256 q) :
    InGroup sha256 findings f c ↔ SameSink f q := by
  obtain ⟨p, -, hpick, hmem, hdup⟩ := exists_primary_of_mem hr hf
  have hcat := hs p hmem f hf hdup
  have hiff : InGroup sha256 findings f c ↔ semanticKey sha256 p = semanticKey sha256 q := by simp_all [InGroup]
  rw [hiff, semanticKey_eq_iff hr hmem hq]
  unfold SameSink
  rw [hdup.1, hdup.2.1, hcat]

/-- Where no two different strongest duplicates tie, the order of the findings is irrelevant.
Source: `correlator.py`, `correlate`
Kind: P -/
theorem order_irrelevant {findings findings' : List Finding} (hr : Readable sha256 findings)
    (hn : NoTies findings) (hp : findings'.Perm findings) :
    (∀ c, c ∈ (correlate sha256 findings').canonical ↔ c ∈ (correlate sha256 findings).canonical) ∧
    ∀ f c, InGroup sha256 findings' f c ↔ InGroup sha256 findings f c := by
  have hties : ∀ a ∈ findings, ∀ b ∈ findings, exactKey sha256 a = exactKey sha256 b →
      (∀ c ∈ findings, exactKey sha256 c = exactKey sha256 a → rank c ≤ rank a) →
      (∀ c ∈ findings, exactKey sha256 c = exactKey sha256 a → rank c ≤ rank b) → a = b := by
    intro a ha b hb hkey hamax hbmax
    have hdup := (exactKey_eq_iff hr ha hb).mp hkey
    refine hn a ha b hb hdup (fun c hc hca => hamax c hc ((exactKey_eq_iff hr hc ha).mpr hca))
      fun c hc hcb => hbmax c hc ?_
    exact ((exactKey_eq_iff hr hc hb).mpr hcb).trans hkey.symm
  have hpick := pickMax_groupOf_perm rank (exactKey sha256) hp.symm hties
  have hprim : (exactPrimaries sha256 findings).Perm (exactPrimaries sha256 findings') :=
    primariesBy_perm rank _ hp.symm hties
  have hcan : ∀ k p, canonicalOf sha256 k (semanticGroup sha256 findings' p) =
      canonicalOf sha256 k (semanticGroup sha256 findings p) := by
    intro k p
    have hgroup : (semanticGroup sha256 findings p).Perm (semanticGroup sha256 findings' p) :=
      hprim.filter _
    have hsort := sortDesc_eq_of_perm rank hgroup fun a ha b hb hab => by
      obtain ⟨ha, hka⟩ := mem_semanticGroup.mp ha
      obtain ⟨hb, hkb⟩ := mem_semanticGroup.mp hb
      exact primaries_tie hr ha hb (hka.trans hkb.symm) hab
    have hrules := sortStrings_eq_of_perm (hgroup.map Finding.ruleId).dedup
    unfold canonicalOf pickMax
    rw [hsort, hrules]
  constructor
  · grind [mem_correlate]
  · intro f c
    unfold InGroup
    rw [hpick f]

/-- The pair loop of a sink finds a conflict exactly when two of its strongest findings have one.
Source: `correlator.py`, `correlate`, loops over `i` and `j`
Kind: L -/
theorem conflict_iff {findings : List Finding} (hr : Readable sha256 findings)
    (hn : NoTies findings) {c : CanonicalFinding} {f : Finding} (hf : f ∈ findings)
    (hc : c ∈ (correlate sha256 findings).canonical)
    (hkey : c.semanticFingerprint = semanticKey sha256 f) :
    c.evidenceConflict.isSome ↔ ∃ d ∈ findings, ∃ e ∈ findings, SameSink d f ∧ SameSink e f ∧
      Strongest findings d ∧ Strongest findings e ∧ (conflictOf d e).isSome := by
  obtain ⟨q, hq, hfp, hconf, -⟩ := output_spec hc
  have hmem : ∀ d, d ∈ sortDesc rank (semanticGroup sha256 findings q) ↔
      d ∈ findings ∧ SameSink d f ∧ Strongest findings d := by
    intro d
    rw [mem_sortDesc, mem_semanticGroup, mem_exactPrimaries_iff hr hn, ← hfp, hkey]
    constructor
    · grind [semanticKey_eq_iff]
    · grind [semanticKey_eq_iff]
  rw [hconf]
  constructor
  · intro h
    obtain ⟨d, hd, e, he, hde⟩ := exists_conflictOf h
    obtain ⟨hd, hdf, hdmax⟩ := (hmem d).mp hd
    obtain ⟨he, hef, hemax⟩ := (hmem e).mp he
    exact ⟨d, hd, e, he, hdf, hef, hdmax, hemax, hde⟩
  · rintro ⟨d, hd, e, he, hdf, hef, hdmax, hemax, hde⟩
    have hne : d ≠ e := by
      rintro rfl
      rw [conflictOf_self] at hde
      cases hde
    exact firstConflict_isSome ((hmem d).mpr ⟨hd, hdf, hdmax⟩) ((hmem e).mpr ⟨he, hef, hemax⟩) hne
      hde

/-- The semantic key of a group is that of each of its findings. Kind: L -/
theorem key_of_inGroup {findings : List Finding} (hr : Readable sha256 findings)
    (hs : SameClass findings) {f : Finding} {c : CanonicalFinding} (hf : f ∈ findings)
    (hc : c ∈ (correlate sha256 findings).canonical) (hfc : InGroup sha256 findings f c) :
    c.semanticFingerprint = semanticKey sha256 f := by
  obtain ⟨q, hq, hfp, -, -⟩ := output_spec hc
  have hqmem := (pickMax_of_mem_primariesBy rank _ hq).1
  have hfq := (sameSink_of_inGroup hr hs hf hqmem hfp).mp hfc
  exact hfp.trans (semanticKey_eq_of_sameSink hfq).symm

theorem SameSink.symm {f g : Finding} (h : SameSink f g) : SameSink g f :=
  ⟨h.1.symm, h.2.1.symm, h.2.2.symm⟩

/-- Duplicates share their group, so they must agree on their category.
Source: `correlator.py`, `correlate`, first pass
Kind: P -/
theorem LossFree.sameClass {findings : List Finding} (hl : LossFree sha256 findings) :
    SameClass findings := by
  intro f hf g hg hdup
  obtain ⟨c, ⟨hc, hfc⟩, -⟩ := hl.oneGroup f hf
  refine hl.noMix f hf g hg c hc hfc ?_
  have hsame : groupOf (exactKey sha256) findings g = groupOf (exactKey sha256) findings f := by
    unfold groupOf
    rw [exactKey_eq_of_duplicates hdup]
  unfold InGroup
  rw [hsame]
  exact hfc

/-- A reported conflict is one between strongest findings.
Source: `correlator.py`, `correlate`, second pass
Kind: P -/
theorem LossFree.visible {findings : List Finding} (hr : Readable sha256 findings)
    (hn : NoTies findings) (hl : LossFree sha256 findings) : Visible findings := by
  intro f hf g hg hfg hconf hrej
  obtain ⟨c, ⟨hc, hfc⟩, -⟩ := hl.oneGroup f hf
  have hkey := key_of_inGroup hr hl.sameClass hf hc hfc
  have hgc := (sameSink_of_inGroup hr hl.sameClass hg hf hkey).mpr hfg.symm
  exact (conflict_iff hr hn hf hc hkey).mp (hl.conflicts f hf g hg c hc hfc hgc hconf hrej)

/-- **Nothing is lost exactly when the duplicates agree.** Without ties among the strongest duplicates,
correlation loses nothing if and only if duplicates agree on their category and opposite outcomes at a
sink leave a conflict between strongest findings.
Source: `correlator.py`, `FindingCorrelator.correlate`
Kind: P -/
theorem correlate_lossFree_iff {findings : List Finding} (hr : Readable sha256 findings)
    (hn : NoTies findings) :
    LossFree sha256 findings ↔ SameClass findings ∧ Visible findings := by
  constructor
  · intro hl
    exact ⟨hl.sameClass, hl.visible hr hn⟩
  · rintro ⟨hs, hv⟩
    refine
      { oneGroup := fun f hf => existsUnique_group hf
        ruleKept := fun f hf c hc => ruleId_mem_of_inGroup hr hf hc
        noMix := fun f hf g hg c hc hfc hgc => ?_
        conflicts := fun f hf g hg c hc hfc hgc hconf hrej => ?_
        orderFree := fun findings' hp => order_irrelevant hr hn hp }
    · have hgkey := key_of_inGroup hr hs hg hc hgc
      exact ((sameSink_of_inGroup hr hs hf hg hgkey).mp hfc).2.2
    · have hkey := key_of_inGroup hr hs hf hc hfc
      have hgf := (sameSink_of_inGroup hr hs hg hf hkey).mp hgc
      exact (conflict_iff hr hn hf hc hkey).mpr (hv f hf g hg hgf.symm hconf hrej)

/-! ## Two findings at one sink -/

section sample

/-- The digests of the keys of the two rules at the line. Kind: D -/
def sampleDigests : List (String × String) :=
  [("EXACT|a.php|1|R1", "842fa54bbd7eeef950e73df268234f7092b76f7164904dadbd5df808263d3975"),
    ("EXACT|a.php|1|R2", "4d7d5587368ecea32663a440f37e425c65311c06e9170ac6498b1f8e20f28c1e"),
    ("SEM|a.php|1|SQL_EXECUTION",
      "8b1568430e1a5edb2d01abcc4a20637cfc8cdcd9d838eb6bda18ab5f5d92ebfd")]

/-- The digest on these keys. Kind: D -/
def sampleSha256 (b : ByteArray) : String :=
  ((decodeUtf8 b).bind fun t => sampleDigests.lookup (String.ofList t)).getD ""

theorem sampleSha256_toByteArray (s : String) :
    sampleSha256 s.toByteArray = (sampleDigests.lookup s).getD "" := by
  have h := decodeUtf8_encodeUtf8 s.toList
  rw [encodeUtf8, String.ofList_toList] at h
  simp [sampleSha256, h]

/-- A finding of a rule at the first line of `a.php` with a severity and an outcome. Kind: D -/
def sampleFinding (ruleId : String) (severity : Severity) (state : QualificationState) : Finding :=
  { findingId := "", ruleId, fingerprint := "", title := "", severity
    confidence := .likely, cweId := "CWE-89", owasp := "", filePath := "a.php"
    evidence := some ⟨"mysql_query($q);", 1, 0, []⟩
    description := "", remediation := "", ruleVersion := "1.0", verdict := none
    qualified := some ⟨state, none, some
      { snippet := "mysql_query($q);", line := 1, column := 0, ruleId, nodeType := ""
        matchedText := "", sinkSymbol := "mysql_query", sinkCategory := "SQL_EXECUTION"
        sourceSymbol := "", sourceCategory := "", taintState := .unknown
        constantResolution := "", sanitizerSymbol := "", sanitizerCapability := ""
        taintPath := [], astMatch := true, semanticMatch := true
        qualificationState := state.value, rejectionReason := "", contextLines := [] }⟩ }

/-- Two rules disagree about one sink: the conflict is reported. Kind: L -/
theorem two_rules_lossFree : LossFree sampleSha256
    [sampleFinding "R1" .high .confirmed, sampleFinding "R2" .low .rejected] := by
  set f := sampleFinding "R1" .high .confirmed with hf
  set g := sampleFinding "R2" .low .rejected with hg
  have hexact : ∀ r, exactKey sampleSha256 (sampleFinding r .high .confirmed) =
      String.ofList (((sampleDigests.lookup (exactRaw "a.php" 1 r)).getD "").toList.take 32) := by
    intro r
    rw [← sampleSha256_toByteArray]
    rfl
  have hexact' : ∀ r, exactKey sampleSha256 (sampleFinding r .low .rejected) =
      String.ofList (((sampleDigests.lookup (exactRaw "a.php" 1 r)).getD "").toList.take 32) := by
    intro r
    rw [← sampleSha256_toByteArray]
    rfl
  have hkey : exactKey sampleSha256 f ≠ exactKey sampleSha256 g := by
    rw [hf, hg, hexact, hexact']
    decide
  have hfg : ¬ Duplicates f g := fun h => hkey (exactKey_eq_of_duplicates h)
  have hsink : ∀ a ∈ [f, g], ∀ b ∈ [f, g], SameSink a b := by decide
  have hdup : ∀ a ∈ [f, g], ∀ b ∈ [f, g], Duplicates a b → a = b := by
    simp only [List.mem_cons, List.not_mem_nil, or_false]
    rintro a (rfl | rfl) b (rfl | rfl) h
    · rfl
    · exact absurd h hfg
    · exact absurd h.symm hfg
    · rfl
  have hstrong : ∀ a ∈ [f, g], Strongest [f, g] a := fun a ha b hb h => by rw [hdup b hb a ha h]
  have hr : Readable sampleSha256 [f, g] := by
    refine ⟨?_, fun a ha b hb _ => hsink a ha b hb⟩
    simp only [List.mem_cons, List.not_mem_nil, or_false]
    rintro a (rfl | rfl) b (rfl | rfl) h
    · exact ⟨rfl, rfl, rfl⟩
    · exact absurd h hkey
    · exact absurd h.symm hkey
    · exact ⟨rfl, rfl, rfl⟩
  refine (correlate_lossFree_iff hr fun a ha b hb h _ _ => hdup a ha b hb h).mpr
    ⟨fun a ha b hb h => by rw [hdup a ha b hb h], fun a ha b hb hab _ _ => ?_⟩
  exact ⟨f, by simp, g, by simp, hsink _ (by simp) _ ha, hsink _ (by simp) _ ha,
    hstrong _ (by simp), hstrong _ (by simp), by decide⟩

/-- One rule reports one sink twice, confirmed and rejected: the exact pass drops the rejected finding
and no conflict is reported.
Source: `correlator.py`, `correlate`, first pass
Kind: P -/
theorem duplicate_conflict_dropped : ¬ LossFree sampleSha256
    [sampleFinding "R1" .high .confirmed, sampleFinding "R1" .low .rejected] := by
  set f := sampleFinding "R1" .high .confirmed
  set g := sampleFinding "R1" .low .rejected
  intro hl
  have hdup : ∀ a ∈ [f, g], ∀ b ∈ [f, g], Duplicates a b := by decide
  have hsink : ∀ a ∈ [f, g], ∀ b ∈ [f, g], SameSink a b := by decide
  -- only the confirmed finding is strongest
  have hstrong : ∀ a ∈ [f, g], Strongest [f, g] a → a = f := by
    intro a ha hmax
    rcases List.mem_cons.mp ha with rfl | ha
    · rfl
    · obtain rfl := List.mem_singleton.mp ha
      exact absurd (hmax f (by simp) (hdup _ (by simp) _ (by simp))) (by decide)
  have hr : Readable sampleSha256 [f, g] :=
    ⟨fun a ha b hb _ => hdup a ha b hb, fun a ha b hb _ => hsink a ha b hb⟩
  have hn : NoTies [f, g] := fun a ha b hb _ hamax hbmax => by
    rw [hstrong a ha hamax, hstrong b hb hbmax]
  obtain ⟨d, hd, e, he, -, -, hdmax, hemax, hde⟩ := hl.visible hr hn f (by simp) g (by simp)
    (hsink _ (by simp) _ (by simp)) rfl rfl
  rw [hstrong d hd hdmax, hstrong e he hemax, conflictOf_self] at hde
  cases hde

end sample

end KarsaSec.Findings
