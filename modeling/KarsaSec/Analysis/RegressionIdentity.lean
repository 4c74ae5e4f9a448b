import KarsaSec.Analysis.RegressionReport
import Mathlib.Data.Rat.Defs
import Mathlib.Data.Set.Function

/-!
# What a fingerprint tells apart

A fingerprint reads the class of a cluster, the first of its sources, the path of the first of its sinks, and the rule
of the first finding from one of its sources.

* `Corresponds`: two clusters with the same class, sources, sink locations and rules.
* `mem_newFingerprints`, `mem_resolvedFingerprints`: what `compare` reports, by the four parts (`Alike`).
* `steady_iff`: a run compared with itself in another order persists, and merges nothing, exactly if the findings of
  each cluster have one rule and clusters that are alike correspond.
* `comparison_sound_iff` adds what two runs need; `comparison_unsound` has a run that fails against itself and one
  whose clusters are merged.
-/

namespace KarsaSec.Analysis

open KarsaSec.Found

/-- The clusters and the findings of an analysis. Kind: D -/
structure AnalysisRun (ε F : Type) where
  clusters : List (VulnerabilityCluster F)
  findings : List (SecurityFinding ε)

variable {ε F : Type}

/-- The same run in another order. Kind: D -/
structure AnalysisRun.Reordered (r r' : AnalysisRun ε F) : Prop where
  clusters : r.clusters.Perm r'.clusters
  findings : r.findings.Perm r'.findings

namespace AnalysisRun.Reordered

variable {r r' r'' : AnalysisRun ε F}

theorem refl (r : AnalysisRun ε F) : r.Reordered r := ⟨.refl _, .refl _⟩

theorem trans (h : r.Reordered r') (h' : r'.Reordered r'') : r.Reordered r'' :=
  ⟨h.clusters.trans h'.clusters, h.findings.trans h'.findings⟩

end AnalysisRun.Reordered

/-- What a fingerprint is made of. Kind: D -/
structure FingerprintKey where
  vulnerabilityClass : String
  source : String
  path : String
  rule : String
  deriving DecidableEq

namespace RegressionEngine

variable (engine : RegressionEngine ε)

/-! ## Keys -/

/-- The path is normalised twice. Kind: D -/
def key (findings : List (SecurityFinding ε)) (x : VulnerabilityCluster F) : FingerprintKey where
  vulnerabilityClass := x.vulnerabilityClass
  source := x.sourceFactIds.head?.getD "unknown_source"
  path := engine.normalizePath (engine.normalizePath (x.sinkNodes.head?.getD "unknown_file"))
  rule := engine.ruleKeyOf x findings

/-- The fields of the text that is digested. Kind: D -/
def fields (k : FingerprintKey) : List (String × Json Empty) :=
  [("schema_version", .str "1.0"), ("vulnerability_class", .str k.vulnerabilityClass), ("source_kind", .str k.source),
    ("sink_category", .str (sinkCategoryOf (engine.upper k.vulnerabilityClass))), ("normalized_path", .str k.path),
    ("rule_key", .str k.rule), ("call_context", .str "")]

/-- Kind: D -/
def document (k : FingerprintKey) : Json Empty := (Json.obj (engine.fields k)).sortKeys

theorem fingerprintId_eq (findings : List (SecurityFinding ε)) (x : VulnerabilityCluster F) :
    (engine.deriveClusterFingerprint x findings).fingerprintId =
      engine.sha256 "E14-FINGERPRINT:" (engine.document (engine.key findings x)) := rfl

/-- The text has the four parts in it. Kind: L -/
theorem document_injective : Function.Injective engine.document := by
  intro k k' h
  unfold document at h
  rw [Json.sortKeys_obj, Json.sortKeys_obj] at h
  have hkeys (k : FingerprintKey) : ((engine.fields k).map Prod.fst).Nodup := by simp [fields]
  have hfield (name : String) : (Dict.lookup name (engine.fields k)).map Json.sortKeys =
      (Dict.lookup name (engine.fields k')).map Json.sortKeys := by
    rw [← Json.lookup_sortMembers (hkeys k), ← Json.lookup_sortMembers (hkeys k'), Json.obj.inj h]
  have hclass : k.vulnerabilityClass = k'.vulnerabilityClass := by
    simpa [Dict.lookup, fields] using hfield "vulnerability_class"
  have hsource : k.source = k'.source := by simpa [Dict.lookup, fields] using hfield "source_kind"
  have hpath : k.path = k'.path := by simpa [Dict.lookup, fields] using hfield "normalized_path"
  have hrule : k.rule = k'.rule := by simpa [Dict.lookup, fields] using hfield "rule_key"
  obtain ⟨c, s, p, r⟩ := k
  obtain ⟨c', s', p', r'⟩ := k'
  simp only at hclass hsource hpath hrule
  rw [hclass, hsource, hpath, hrule]

/-! ## The same vulnerability -/

/-- The rules of the findings from the sources of a cluster. Kind: D -/
def rulesOf (findings : List (SecurityFinding ε)) (x : VulnerabilityCluster F) : List String :=
  (findings.filter fun f => f.sourceFactId ∈ x.sourceFactIds).map fun f => engine.ruleKey f.rest

/-- The same class, sources, sink locations and rules; a location is a canonical path, without lines. Kind: D -/
structure Corresponds (fs : List (SecurityFinding ε)) (x : VulnerabilityCluster F) (gs : List (SecurityFinding ε))
    (y : VulnerabilityCluster F) : Prop where
  vulnerabilityClass : x.vulnerabilityClass = y.vulnerabilityClass
  sources : ∀ s, s ∈ x.sourceFactIds ↔ s ∈ y.sourceFactIds
  sinks : ∀ p, p ∈ x.sinkNodes.map engine.normalizePath ↔ p ∈ y.sinkNodes.map engine.normalizePath
  rules : ∀ k, k ∈ engine.rulesOf fs x ↔ k ∈ engine.rulesOf gs y

/-- The comparison of one run with another. Kind: D -/
def report (base curr : AnalysisRun ε F) (valid : Bool) : RegressionReport :=
  engine.compare base.clusters curr.clusters valid base.findings curr.findings

/-- The fingerprint of a cluster in a run. Kind: D -/
def idIn (r : AnalysisRun ε F) (x : VulnerabilityCluster F) : String :=
  (engine.deriveClusterFingerprint x r.findings).fingerprintId

/-- Everything persists. Kind: D -/
structure Unchanged (report : RegressionReport) : Prop where
  new : report.newFingerprints = []
  resolved : report.resolvedFingerprints = []
  changed : report.changedFingerprints = []
  unknown : report.unknownFingerprints = []
  status : report.status = .pass

/-- A run compared with itself in any order persists, and in no order are two of its clusters merged. Kind: D -/
structure Steady (r : AnalysisRun ε F) : Prop where
  stable : ∀ r', r.Reordered r' → Unchanged (engine.report r r' true)
  unmerged : ∀ r', r.Reordered r' → ∀ x ∈ r'.clusters, ∀ y ∈ r'.clusters, engine.idIn r' x = engine.idIn r' y →
    engine.Corresponds r'.findings x r'.findings y

/-- New is what corresponds to nothing before, and resolved what nothing corresponds to after a valid analysis.
Kind: D -/
structure Tracks (base curr : AnalysisRun ε F) : Prop where
  new : ∀ valid, ∀ c ∈ curr.clusters, engine.idIn curr c ∈ (engine.report base curr valid).newFingerprints ↔
    ∀ b ∈ base.clusters, ¬engine.Corresponds base.findings b curr.findings c
  resolved : ∀ valid, ∀ b ∈ base.clusters, engine.idIn base b ∈ (engine.report base curr valid).resolvedFingerprints ↔
    valid = true ∧ ∀ c ∈ curr.clusters, ¬engine.Corresponds base.findings b curr.findings c

/-- What a comparison is for: two runs are tracked in any order, and each is steady. Kind: D -/
structure Sound (base curr : AnalysisRun ε F) : Prop where
  steadyBase : engine.Steady base
  steadyCurr : engine.Steady curr
  tracks : ∀ base' curr', base.Reordered base' → curr.Reordered curr' → engine.Tracks base' curr'

/-! ## What is reported -/

variable {engine}

theorem mem_ids {r : AnalysisRun ε F} {i : String} :
    i ∈ engine.fingerprintIds r.clusters r.findings ↔ ∃ x ∈ r.clusters, engine.idIn r x = i := mem_fingerprintIds

variable {base curr : AnalysisRun ε F} {valid : Bool} {i : String}

theorem mem_newFingerprints : i ∈ (engine.report base curr valid).newFingerprints ↔
    (∃ c ∈ curr.clusters, engine.idIn curr c = i) ∧ ¬∃ b ∈ base.clusters, engine.idIn base b = i := by
  have hfield : (engine.report base curr valid).newFingerprints =
      sortedSet ((engine.fingerprintIds curr.clusters curr.findings).filter
        (· ∉ engine.fingerprintIds base.clusters base.findings)) := by
    unfold report compare
    dsimp only
    split_ifs <;> rfl
  rw [hfield, mem_sortedSet, List.mem_filter, decide_eq_true_eq, mem_ids, mem_ids]

theorem mem_resolvedFingerprints : i ∈ (engine.report base curr valid).resolvedFingerprints ↔
    valid = true ∧ (∃ b ∈ base.clusters, engine.idIn base b = i) ∧ ¬∃ c ∈ curr.clusters, engine.idIn curr c = i := by
  have hfield : (engine.report base curr valid).resolvedFingerprints =
      sortedSet (if valid = true then (engine.fingerprintIds base.clusters base.findings).filter
        (· ∉ engine.fingerprintIds curr.clusters curr.findings) else []) := by
    unfold report compare
    dsimp only
    split_ifs <;> rfl
  rw [hfield, mem_sortedSet]
  cases valid with
  | false =>
    rw [if_neg Bool.false_ne_true]
    exact iff_of_false List.not_mem_nil fun h => Bool.false_ne_true h.1
  | true =>
    rw [if_pos rfl, List.mem_filter, decide_eq_true_eq, mem_ids, mem_ids]
    exact ⟨fun h => ⟨rfl, h⟩, fun h => h.2⟩

/-- When nothing is new or resolved, everything persists. Kind: L -/
theorem unchanged_report (hcurr : ∀ c ∈ curr.clusters, ∃ b ∈ base.clusters, engine.idIn base b = engine.idIn curr c)
    (hbase : ∀ b ∈ base.clusters, ∃ c ∈ curr.clusters, engine.idIn curr c = engine.idIn base b) :
    Unchanged (engine.report base curr true) := by
  have hnew : (engine.fingerprintIds curr.clusters curr.findings).filter
      (· ∉ engine.fingerprintIds base.clusters base.findings) = [] := by
    rw [List.filter_eq_nil_iff]
    intro j hj
    obtain ⟨c, hc, rfl⟩ := mem_ids.mp hj
    rw [decide_eq_true_eq, not_not]
    exact mem_ids.mpr (hcurr c hc)
  have hmissing : (engine.fingerprintIds base.clusters base.findings).filter
      (· ∉ engine.fingerprintIds curr.clusters curr.findings) = [] := by
    rw [List.filter_eq_nil_iff]
    intro j hj
    obtain ⟨b, hb, rfl⟩ := mem_ids.mp hj
    rw [decide_eq_true_eq, not_not]
    exact mem_ids.mpr (hbase b hb)
  unfold report compare
  dsimp only
  rw [hnew, hmissing, if_neg, if_neg (not_not_intro rfl)]
  · exact ⟨rfl, rfl, rfl, rfl, rfl⟩
  · simp

/-! ## Rules and order -/

section order

variable {fs gs : List (SecurityFinding ε)} {x y : VulnerabilityCluster F}

/-- The rule is the first one, or the class if there is none. Kind: L -/
theorem ruleKeyOf_eq : engine.ruleKeyOf x fs = (engine.rulesOf fs x).head?.getD x.vulnerabilityClass := by
  grind [rulesOf, List.head?_map, ruleKeyOf]

theorem rulesOf_perm (h : fs.Perm gs) (x : VulnerabilityCluster F) :
    (engine.rulesOf fs x).Perm (engine.rulesOf gs x) := (h.filter _).map _

theorem mem_rulesOf {k : String} : k ∈ engine.rulesOf fs x ↔
    ∃ f ∈ fs, f.sourceFactId ∈ x.sourceFactIds ∧ engine.ruleKey f.rest = k := by
  simp [rulesOf, and_assoc]

/-- Two clusters with the same sources have the same rules of one list. Kind: L -/
theorem rulesOf_congr (h : ∀ s, s ∈ x.sourceFactIds ↔ s ∈ y.sourceFactIds) :
    engine.rulesOf fs x = engine.rulesOf fs y := by
  unfold rulesOf
  simp only [h]

/-- The first finding that matters decides. Kind: L -/
theorem ruleKeyOf_cons {f : SecurityFinding ε} (h : f.sourceFactId ∈ x.sourceFactIds) :
    engine.ruleKeyOf x (f :: fs) = engine.ruleKey f.rest := by
  rw [ruleKeyOf_eq, rulesOf, List.filter_cons_of_pos (by simpa using h)]
  rfl

theorem ruleKeyOf_cons_of_not {f : SecurityFinding ε} (h : f.sourceFactId ∉ x.sourceFactIds) :
    engine.ruleKeyOf x (f :: fs) = engine.ruleKeyOf x fs := by
  rw [ruleKeyOf_eq, rulesOf, List.filter_cons_of_neg (by simpa using h), ruleKeyOf_eq, rulesOf]

theorem Corresponds.perm {fs' gs' : List (SecurityFinding ε)} (h : engine.Corresponds fs x gs y) (hf : fs.Perm fs')
    (hg : gs.Perm gs') : engine.Corresponds fs' x gs' y :=
  ⟨h.1, h.2, h.3, fun k => by rw [← (rulesOf_perm hf x).mem_iff, ← (rulesOf_perm hg y).mem_iff, h.rules]⟩

theorem exists_front {α : Type} {l : List α} {a : α} (h : a ∈ l) : ∃ rest, l.Perm (a :: rest) := by
  obtain ⟨s, t, rfl⟩ := List.append_of_mem h
  exact ⟨s ++ t, List.perm_middle⟩

/-- All findings from the sources of a cluster have one rule. Kind: D -/
def OneRule (engine : RegressionEngine ε) (fs : List (SecurityFinding ε)) (x : VulnerabilityCluster F) : Prop :=
  ∀ k ∈ engine.rulesOf fs x, ∀ k' ∈ engine.rulesOf fs x, k = k'

/-- With one rule the order is of no importance. Kind: L -/
theorem key_perm (hone : engine.OneRule fs x) (h : fs.Perm gs) : engine.key gs x = engine.key fs x := by
  have hrules : (engine.rulesOf fs x).Perm (engine.rulesOf gs x) := rulesOf_perm h x
  have hrule : engine.ruleKeyOf x gs = engine.ruleKeyOf x fs := by
    rw [ruleKeyOf_eq, ruleKeyOf_eq]
    cases hfs : engine.rulesOf fs x with
    | nil =>
      rw [hfs] at hrules
      rw [hrules.nil_eq]
    | cons k ks =>
      cases hgs : engine.rulesOf gs x with
      | nil =>
        rw [hfs, hgs] at hrules
        exact absurd hrules.symm.nil_eq.symm (List.cons_ne_nil _ _)
      | cons k' ks' =>
        have hk' : k' ∈ engine.rulesOf fs x := hrules.mem_iff.mpr (hgs ▸ List.mem_cons_self)
        exact hone k' hk' k (hfs ▸ List.mem_cons_self)
  simp only [key, hrule]

end order

/-! ## One run -/

/-- The texts that are digested for a run, in whatever order. Kind: D -/
def documentsOf (engine : RegressionEngine ε) (r : AnalysisRun ε F) : Set (Json Empty) :=
  {d | ∃ r', r.Reordered r' ∧ ∃ x ∈ r'.clusters, engine.document (engine.key r'.findings x) = d}

section run

variable {r r₁ r₂ s : AnalysisRun ε F} {x y : VulnerabilityCluster F}

theorem document_mem (h : r.Reordered r₁) (hx : x ∈ r₁.clusters) :
    engine.document (engine.key r₁.findings x) ∈ engine.documentsOf r := ⟨r₁, h, x, hx, rfl⟩

/-- Where no two texts have one digest, a fingerprint has the four parts in it. Kind: L -/
theorem key_eq_of_idIn {docs : Set (Json Empty)} (hsha : Set.InjOn (engine.sha256 "E14-FINGERPRINT:") docs)
    (hx : engine.document (engine.key r₁.findings x) ∈ docs) (hy : engine.document (engine.key r₂.findings y) ∈ docs)
    (h : engine.idIn r₁ x = engine.idIn r₂ y) : engine.key r₁.findings x = engine.key r₂.findings y :=
  engine.document_injective (hsha hx hy h)

theorem idIn_eq_of_key (h : engine.key r₁.findings x = engine.key r₂.findings y) : engine.idIn r₁ x = engine.idIn r₂ y := by
  rw [idIn, idIn, fingerprintId_eq, fingerprintId_eq, h]

/-- The clusters of the run that are alike correspond. Kind: D -/
def ToldApart (engine : RegressionEngine ε) (r : AnalysisRun ε F) : Prop :=
  ∀ x ∈ r.clusters, ∀ y ∈ r.clusters, engine.key r.findings x = engine.key r.findings y →
    engine.Corresponds r.findings x r.findings y

/-- An order that gives a cluster with a second rule the key of another one merges the two. Kind: L -/
theorem oneRule_of_steady (hsha : Set.InjOn (engine.sha256 "E14-FINGERPRINT:") (engine.documentsOf r))
    (h : engine.Steady r) (hx : x ∈ r.clusters) : engine.OneRule r.findings x := by
  suffices hfirst : ∀ g ∈ r.findings, g.sourceFactId ∈ x.sourceFactIds →
      engine.ruleKey g.rest = engine.ruleKeyOf x r.findings by
    intro k hk k' hk'
    obtain ⟨f, hf, hfx, rfl⟩ := mem_rulesOf.mp hk
    obtain ⟨g, hg, hgx, rfl⟩ := mem_rulesOf.mp hk'
    rw [hfirst f hf hfx, hfirst g hg hgx]
  intro g hg hgx
  by_contra hne
  have order {fs : List (SecurityFinding ε)} (hfs : r.findings.Perm fs) : r.Reordered ⟨r.clusters, fs⟩ := ⟨.refl _, hfs⟩
  -- a cluster that has had the key which `x` gets when `g` comes first
  obtain ⟨rest, hrest⟩ := exists_front hg
  have hstable := (h.stable _ (order hrest)).new
  have hnot : engine.idIn ⟨r.clusters, g :: rest⟩ x ∉
      (engine.report r ⟨r.clusters, g :: rest⟩ true).newFingerprints := by
    rw [hstable]
    exact List.not_mem_nil
  rw [mem_newFingerprints, not_and, not_not] at hnot
  obtain ⟨y, hy, hid⟩ := hnot ⟨x, hx, rfl⟩
  have hkey := key_eq_of_idIn hsha (document_mem (.refl r) hy) (document_mem (order hrest) hx) hid
  have hrule : engine.ruleKeyOf y r.findings = engine.ruleKey g.rest := by
    have := congrArg FingerprintKey.rule hkey
    rwa [key, key, ruleKeyOf_cons hgx] at this
  -- in no order are the two merged
  have hapart : ∀ fs, r.findings.Perm fs → engine.ruleKeyOf x fs = engine.ruleKey g.rest →
      engine.ruleKeyOf y fs = engine.ruleKey g.rest → False := by
    intro fs hfs hxr hyr
    have hkeys : engine.key fs x = engine.key fs y := by
      simp only [key, FingerprintKey.mk.injEq] at hkey ⊢
      exact ⟨hkey.1.symm, hkey.2.1.symm, hkey.2.2.1.symm, hxr.trans hyr.symm⟩
    have hcorr := h.unmerged _ (order hfs) x hx y hy (idIn_eq_of_key hkeys)
    have hsame : engine.ruleKeyOf x r.findings = engine.ruleKeyOf y r.findings := by
      rw [ruleKeyOf_eq, ruleKeyOf_eq, rulesOf_congr hcorr.sources, hcorr.vulnerabilityClass]
    exact hne (hrule.symm.trans hsame.symm)
  by_cases hyg : g.sourceFactId ∈ y.sourceFactIds
  · exact hapart _ hrest (ruleKeyOf_cons hgx) (ruleKeyOf_cons hyg)
  · cases hfind : engine.rulesOf r.findings y with
    | nil =>
      -- no finding is from `y`, which keeps its class for the rule
      have hnil : engine.rulesOf (g :: rest) y = [] := by
        have hperm : (engine.rulesOf r.findings y).Perm (engine.rulesOf (g :: rest) y) := rulesOf_perm hrest y
        rw [hfind] at hperm
        exact hperm.nil_eq.symm
      refine hapart _ hrest (ruleKeyOf_cons hgx) ?_
      rw [ruleKeyOf_eq, hfind] at hrule
      rw [ruleKeyOf_eq, hnil]
      exact hrule
    | cons k ks =>
      -- the finding that gives `y` its rule goes first, and `g` second if `x` does not have the other
      have hk : k = engine.ruleKey g.rest := by
        rw [ruleKeyOf_eq, hfind] at hrule
        exact hrule
      obtain ⟨f, hf, hfy, hfk⟩ := mem_rulesOf.mp (hfind ▸ List.mem_cons_self : k ∈ engine.rulesOf r.findings y)
      obtain ⟨others, hothers⟩ := exists_front hf
      by_cases hfx : f.sourceFactId ∈ x.sourceFactIds
      · grind [ruleKeyOf_cons]
      · have hgo : g ∈ others := by grind
        obtain ⟨last, hlast⟩ := exists_front hgo
        refine hapart (f :: g :: last) (hothers.trans (hlast.cons f)) ?_ ((ruleKeyOf_cons hfy).trans (hfk.trans hk))
        rw [ruleKeyOf_cons_of_not hfx, ruleKeyOf_cons hgx]

/-- **A run is steady exactly if the findings of each cluster have one rule, and alike clusters correspond.**
Kind: P -/
theorem steady_iff (hsha : Set.InjOn (engine.sha256 "E14-FINGERPRINT:") (engine.documentsOf r)) :
    engine.Steady r ↔ (∀ x ∈ r.clusters, engine.OneRule r.findings x) ∧ engine.ToldApart r := by
  constructor
  · intro h
    refine ⟨fun x hx => oneRule_of_steady hsha h hx, fun x hx y hy hkey => ?_⟩
    exact h.unmerged r (.refl r) x hx y hy (idIn_eq_of_key hkey)
  · rintro ⟨hone, htold⟩
    have hkey {r' : AnalysisRun ε F} (h : r.Reordered r') {x : VulnerabilityCluster F} (hx : x ∈ r.clusters) :
        engine.key r'.findings x = engine.key r.findings x := key_perm (hone x hx) h.findings
    refine ⟨fun r' h => unchanged_report (fun c hc => ?_) fun b hb => ?_, fun r' h x hx y hy hid => ?_⟩
    · have hc' := h.clusters.mem_iff.mpr hc
      exact ⟨c, hc', idIn_eq_of_key (hkey h hc').symm⟩
    · exact ⟨b, h.clusters.mem_iff.mp hb, idIn_eq_of_key (hkey h hb)⟩
    · have hx' := h.clusters.mem_iff.mpr hx
      have hy' := h.clusters.mem_iff.mpr hy
      have hkeys := key_eq_of_idIn hsha (document_mem h hx) (document_mem h hy) hid
      rw [hkey h hx', hkey h hy'] at hkeys
      exact (htold x hx' y hy' hkeys).perm h.findings h.findings

end run

/-! ## Two runs -/

section runs

variable {base curr base' curr' : AnalysisRun ε F}

/-- A cluster of one run has one like it in the other exactly if it has a corresponding one there. Kind: D -/
structure Matched (engine : RegressionEngine ε) (base curr : AnalysisRun ε F) : Prop where
  current : ∀ c ∈ curr.clusters, (∃ b ∈ base.clusters, engine.key base.findings b = engine.key curr.findings c) ↔
    ∃ b ∈ base.clusters, engine.Corresponds base.findings b curr.findings c
  baseline : ∀ b ∈ base.clusters, (∃ c ∈ curr.clusters, engine.key base.findings b = engine.key curr.findings c) ↔
    ∃ c ∈ curr.clusters, engine.Corresponds base.findings b curr.findings c

theorem documentsOf_subset (h : base.Reordered base') : engine.documentsOf base' ⊆ engine.documentsOf base := by
  rintro d ⟨r, hr, x, hx, rfl⟩
  exact ⟨r, h.trans hr, x, hx, rfl⟩

/-- Two runs are tracked exactly if likeness is correspondence. Kind: L -/
theorem tracks_iff (hsha : Set.InjOn (engine.sha256 "E14-FINGERPRINT:") (engine.documentsOf base ∪ engine.documentsOf curr)) :
    engine.Tracks base curr ↔ engine.Matched base curr := by
  have hid {b c : VulnerabilityCluster F} (hb : b ∈ base.clusters) (hc : c ∈ curr.clusters) :
      engine.idIn base b = engine.idIn curr c ↔ engine.key base.findings b = engine.key curr.findings c :=
    ⟨key_eq_of_idIn hsha (.inl (document_mem (.refl base) hb)) (.inr (document_mem (.refl curr) hc)), idIn_eq_of_key⟩
  have hnew {c : VulnerabilityCluster F} (hc : c ∈ curr.clusters) (valid : Bool) :
      engine.idIn curr c ∈ (engine.report base curr valid).newFingerprints ↔
        ¬∃ b ∈ base.clusters, engine.key base.findings b = engine.key curr.findings c := by
    rw [mem_newFingerprints]
    refine ⟨fun h => fun ⟨b, hb, hkey⟩ => h.2 ⟨b, hb, (hid hb hc).mpr hkey⟩, fun h => ⟨⟨c, hc, rfl⟩, ?_⟩⟩
    rintro ⟨b, hb, heq⟩
    exact h ⟨b, hb, (hid hb hc).mp heq⟩
  have hresolved {b : VulnerabilityCluster F} (hb : b ∈ base.clusters) (valid : Bool) :
      engine.idIn base b ∈ (engine.report base curr valid).resolvedFingerprints ↔
        valid = true ∧ ¬∃ c ∈ curr.clusters, engine.key base.findings b = engine.key curr.findings c := by
    rw [mem_resolvedFingerprints]
    refine and_congr_right fun _ => ⟨fun h => fun ⟨c, hc, hkey⟩ => h.2 ⟨c, hc, ((hid hb hc).mpr hkey).symm⟩,
      fun h => ⟨⟨b, hb, rfl⟩, ?_⟩⟩
    rintro ⟨c, hc, heq⟩
    exact h ⟨c, hc, (hid hb hc).mp heq.symm⟩
  constructor
  · intro h
    refine ⟨fun c hc => ?_, fun b hb => ?_⟩
    · have hiff := (hnew hc true).symm.trans (h.new true c hc)
      rw [← not_iff_not, hiff]
      push Not
      rfl
    · have hiff := (hresolved hb true).symm.trans (h.resolved true b hb)
      simp only [true_and] at hiff
      rw [← not_iff_not, hiff]
      push Not
      rfl
  · intro h
    refine ⟨fun valid c hc => ?_, fun valid b hb => ?_⟩
    · rw [hnew hc, h.current c hc]
      push Not
      rfl
    · rw [hresolved hb, h.baseline b hb]
      push Not
      rfl

/-- Likeness and correspondence do not depend on the order. Kind: L -/
theorem Matched.reordered (hb : base.Reordered base') (hc : curr.Reordered curr')
    (hbase : ∀ x ∈ base.clusters, engine.OneRule base.findings x)
    (hcurr : ∀ x ∈ curr.clusters, engine.OneRule curr.findings x) (h : engine.Matched base curr) :
    engine.Matched base' curr' := by
  have hkeyb {x : VulnerabilityCluster F} (hx : x ∈ base.clusters) :
      engine.key base'.findings x = engine.key base.findings x := key_perm (hbase x hx) hb.findings
  have hkeyc {x : VulnerabilityCluster F} (hx : x ∈ curr.clusters) :
      engine.key curr'.findings x = engine.key curr.findings x := key_perm (hcurr x hx) hc.findings
  have hcorr {x y : VulnerabilityCluster F} : engine.Corresponds base'.findings x curr'.findings y ↔
      engine.Corresponds base.findings x curr.findings y :=
    ⟨fun h => h.perm hb.findings.symm hc.findings.symm, fun h => h.perm hb.findings hc.findings⟩
  have hmemb {x : VulnerabilityCluster F} : x ∈ base'.clusters ↔ x ∈ base.clusters := hb.clusters.mem_iff.symm
  have hmemc {x : VulnerabilityCluster F} : x ∈ curr'.clusters ↔ x ∈ curr.clusters := hc.clusters.mem_iff.symm
  refine ⟨fun c hcin => ?_, fun b hbin => ?_⟩
  · have hcin' := hmemc.mp hcin
    simp only [hcorr, hmemb, ← h.current c hcin']
    refine exists_congr fun b => and_congr_right fun hbin => ?_
    rw [hkeyb hbin, hkeyc hcin']
  · have hbin' := hmemb.mp hbin
    simp only [hcorr, hmemc, ← h.baseline b hbin']
    refine exists_congr fun c => and_congr_right fun hcin => ?_
    rw [hkeyb hbin', hkeyc hcin]

/-- **When a comparison is sound.** The findings of each cluster have one rule, clusters of one run that are alike
correspond, and likeness across the runs is correspondence. Kind: P -/
theorem comparison_sound_iff (engine : RegressionEngine ε) (base curr : AnalysisRun ε F)
    (hsha : Set.InjOn (engine.sha256 "E14-FINGERPRINT:") (engine.documentsOf base ∪ engine.documentsOf curr)) :
    engine.Sound base curr ↔
      (∀ x ∈ base.clusters, engine.OneRule base.findings x) ∧ (∀ x ∈ curr.clusters, engine.OneRule curr.findings x) ∧
        engine.ToldApart base ∧ engine.ToldApart curr ∧ engine.Matched base curr := by
  have hbase := hsha.mono (Set.subset_union_left (s := engine.documentsOf base) (t := engine.documentsOf curr))
  have hcurr := hsha.mono (Set.subset_union_right (s := engine.documentsOf base) (t := engine.documentsOf curr))
  constructor
  · intro h
    obtain ⟨hone, htold⟩ := (steady_iff hbase).mp h.steadyBase
    obtain ⟨hone', htold'⟩ := (steady_iff hcurr).mp h.steadyCurr
    exact ⟨hone, hone', htold, htold', (tracks_iff hsha).mp (h.tracks base curr (.refl base) (.refl curr))⟩
  · rintro ⟨hone, hone', htold, htold', hmatched⟩
    refine ⟨(steady_iff hbase).mpr ⟨hone, htold⟩, (steady_iff hcurr).mpr ⟨hone', htold'⟩, fun base' curr' hb hc => ?_⟩
    have hsub : engine.documentsOf base' ∪ engine.documentsOf curr' ⊆ engine.documentsOf base ∪ engine.documentsOf curr :=
      Set.union_subset_union (documentsOf_subset hb) (documentsOf_subset hc)
    exact (tracks_iff (hsha.mono hsub)).mpr (hmatched.reordered hb hc hone hone')

end runs

/-! ## Runs that are not told apart -/

section sample

/-- A digest that keeps the rule. Kind: D -/
def ruleDigest : Json Empty → String
  | .obj members =>
    match Dict.lookup "rule_key" members with
    | some (.str s) => s
    | _ => ""
  | _ => ""

/-- Kind: D -/
def ruleEngine : RegressionEngine String where
  chars := ⟨fun _ => false, fun _ => false⟩
  upper := Found.upper
  lower := Found.lower
  ruleKey := id
  sha256 _ := ruleDigest

/-- A cluster with the given sources and one sink. Kind: D -/
def injectionFrom (clusterId : String) (sources : List String) : VulnerabilityCluster ℚ where
  clusterId := clusterId
  vulnerabilityClass := "SQL_INJECTION"
  findingIds := []
  sourceFactIds := sources
  sinkFactIds := ["k1"]
  flowIds := ["fl1"]
  sourceNodes := ["n1"]
  sinkNodes := ["app/views.py"]
  sharedContexts := []
  confidence := 9 / 10
  severity := "HIGH"
  status := .confirmed
  evidenceCount := 1

/-- A finding of a rule. Kind: D -/
def findingOf (source rule : String) : SecurityFinding String where
  findingId := rule
  vulnerabilityClass := "SQL_INJECTION"
  sourceFactId := source
  sinkFactId := "k1"
  flowId := "fl1"
  sourceNodeId := "n1"
  sinkNodeId := "app/views.py"
  flowEvidence := []
  rest := rule

/-- A run with a cluster for each of two rules. Kind: D -/
def twoClusters : AnalysisRun String ℚ :=
  ⟨[injectionFrom "c1" ["s1"], injectionFrom "c2" ["s2"]], [findingOf "s1" "SQL-001", findingOf "s2" "SQL-002"]⟩

/-- The same run the other way round. Kind: D -/
def twoClustersSwapped : AnalysisRun String ℚ :=
  ⟨[injectionFrom "c2" ["s2"], injectionFrom "c1" ["s1"]], [findingOf "s2" "SQL-002", findingOf "s1" "SQL-001"]⟩

/-- A cluster of two rules. Kind: D -/
def twoRules : AnalysisRun String ℚ :=
  ⟨[injectionFrom "c1" ["s1"]], [findingOf "s1" "SQL-001", findingOf "s1" "SQL-002"]⟩

/-- The same findings the other way round. Kind: D -/
def twoRulesSwapped : AnalysisRun String ℚ :=
  ⟨[injectionFrom "c1" ["s1"]], [findingOf "s1" "SQL-002", findingOf "s1" "SQL-001"]⟩

/-- Two clusters that have the first source in common. Kind: D -/
def sharedSource : AnalysisRun String ℚ :=
  ⟨[injectionFrom "c1" ["s1", "s2"], injectionFrom "c2" ["s1", "s3"]], [findingOf "s1" "SQL-001"]⟩

theorem ruleDigest_document (k : FingerprintKey) : ruleDigest (ruleEngine.document k) = k.rule := by
  have hkeys : ((ruleEngine.fields k).map Prod.fst).Nodup := by simp [fields]
  have hlookup := Json.lookup_sortMembers hkeys "rule_key"
  have hrule : (Dict.lookup "rule_key" (ruleEngine.fields k)).map Json.sortKeys = some (.str k.rule) := by
    simp [Dict.lookup, fields]
  rw [hrule] at hlookup
  rw [document, Json.sortKeys_obj]
  simp only [ruleDigest, hlookup]

theorem idIn_ruleEngine (r : AnalysisRun String ℚ) (x : VulnerabilityCluster ℚ) :
    ruleEngine.idIn r x = ruleEngine.ruleKeyOf x r.findings := by
  rw [idIn, fingerprintId_eq]
  exact ruleDigest_document _

/-- A run of two clusters compared with itself in another order. Kind: P -/
theorem comparison_sound_twoClusters : ruleEngine.Sound twoClusters twoClustersSwapped := by
  have hswap : twoClusters.Reordered twoClustersSwapped := ⟨.swap _ _ _, .swap _ _ _⟩
  have hcases : ∀ x ∈ twoClusters.clusters, x = injectionFrom "c1" ["s1"] ∨ x = injectionFrom "c2" ["s2"] := by
    simp [twoClusters]
  have hone : ∀ x ∈ twoClusters.clusters, ruleEngine.OneRule twoClusters.findings x := by
    intro x hx
    obtain rfl | rfl := hcases x hx
    · have hrules : ruleEngine.rulesOf twoClusters.findings (injectionFrom "c1" ["s1"]) = ["SQL-001"] := by decide
      simp [OneRule, hrules]
    · have hrules : ruleEngine.rulesOf twoClusters.findings (injectionFrom "c2" ["s2"]) = ["SQL-002"] := by decide
      simp [OneRule, hrules]
  have hone' : ∀ x ∈ twoClustersSwapped.clusters, ruleEngine.OneRule twoClustersSwapped.findings x := by
    intro x hx k hk k' hk'
    have hperm : (ruleEngine.rulesOf twoClusters.findings x).Perm (ruleEngine.rulesOf twoClustersSwapped.findings x) :=
      rulesOf_perm hswap.findings x
    exact hone x (hswap.clusters.mem_iff.mpr hx) k (hperm.mem_iff.mpr hk) k' (hperm.mem_iff.mpr hk')
  -- The rule tells the two clusters apart, and so does the digest.
  have happart : ∀ x ∈ twoClusters.clusters, ∀ y ∈ twoClusters.clusters,
      (ruleEngine.key twoClusters.findings x).rule = (ruleEngine.key twoClusters.findings y).rule → x = y := by
    intro x hx y hy h
    obtain rfl | rfl := hcases x hx <;> obtain rfl | rfl := hcases y hy
    · rfl
    · exact absurd h (by decide)
    · exact absurd h (by decide)
    · rfl
  have hkey {x : VulnerabilityCluster ℚ} (hx : x ∈ twoClusters.clusters) :
      ruleEngine.key twoClustersSwapped.findings x = ruleEngine.key twoClusters.findings x :=
    key_perm (hone x hx) hswap.findings
  have hself (fs : List (SecurityFinding String)) (x : VulnerabilityCluster ℚ) : ruleEngine.Corresponds fs x fs x :=
    ⟨rfl, fun _ => Iff.rfl, fun _ => Iff.rfl, fun _ => Iff.rfl⟩
  have hsha : Set.InjOn (ruleEngine.sha256 "E14-FINGERPRINT:") (ruleEngine.documentsOf twoClusters) := by
    rintro d ⟨r, hr, x, hx, rfl⟩ d' ⟨r', hr', x', hx', rfl⟩ h
    have hin := hr.clusters.mem_iff.mpr hx
    have hin' := hr'.clusters.mem_iff.mpr hx'
    rw [key_perm (hone x hin) hr.findings, key_perm (hone x' hin') hr'.findings] at h ⊢
    rw [happart x hin x' hin' ((ruleDigest_document _).symm.trans (h.trans (ruleDigest_document _)))]
  rw [← Set.union_eq_left.mpr (documentsOf_subset hswap)] at hsha
  refine (comparison_sound_iff ruleEngine twoClusters twoClustersSwapped hsha).mpr
    ⟨hone, hone', fun x hx y hy h => ?_, fun x hx y hy h => ?_, fun c hc => ?_, fun b hb => ?_⟩
  · rw [happart x hx y hy (congrArg FingerprintKey.rule h)]
    exact hself _ _
  · have hx' := hswap.clusters.mem_iff.mpr hx
    have hy' := hswap.clusters.mem_iff.mpr hy
    rw [hkey hx', hkey hy'] at h
    rw [happart x hx' y hy' (congrArg FingerprintKey.rule h)]
    exact hself _ _
  · have hc' := hswap.clusters.mem_iff.mpr hc
    exact iff_of_true ⟨c, hc', (hkey hc').symm⟩ ⟨c, hc', (hself _ c).perm (.refl _) hswap.findings⟩
  · have hb' := hswap.clusters.mem_iff.mp hb
    exact iff_of_true ⟨b, hb', (hkey hb).symm⟩ ⟨b, hb', (hself _ b).perm (.refl _) hswap.findings⟩

/-- **A run fails against itself in another order, and two clusters are one.** Kind: P -/
theorem comparison_unsound :
    (twoRules.Reordered twoRulesSwapped ∧ (ruleEngine.report twoRules twoRulesSwapped true).status = .fail ∧
        ¬ruleEngine.Sound twoRules twoRules) ∧
      ruleEngine.idIn sharedSource (injectionFrom "c1" ["s1", "s2"]) =
        ruleEngine.idIn sharedSource (injectionFrom "c2" ["s1", "s3"]) ∧
      ¬ruleEngine.Corresponds sharedSource.findings (injectionFrom "c1" ["s1", "s2"]) sharedSource.findings
        (injectionFrom "c2" ["s1", "s3"]) ∧
      ¬ruleEngine.Sound sharedSource sharedSource := by
  have hswap : twoRules.Reordered twoRulesSwapped := ⟨.refl _, .swap _ _ _⟩
  have hfail : (ruleEngine.report twoRules twoRulesSwapped true).status = .fail := by
    refine status_compare_eq_fail.mpr ⟨rfl, injectionFrom "c1" ["s1"], List.mem_cons_self, fun b hb => ?_⟩
    rw [List.mem_singleton.mp hb]
    change ruleEngine.idIn twoRules _ ≠ ruleEngine.idIn twoRulesSwapped _
    rw [idIn_ruleEngine, idIn_ruleEngine]
    decide
  have hmerged : ruleEngine.idIn sharedSource (injectionFrom "c1" ["s1", "s2"]) =
      ruleEngine.idIn sharedSource (injectionFrom "c2" ["s1", "s3"]) := by
    rw [idIn_ruleEngine, idIn_ruleEngine]
    decide
  have hdifferent : ¬ruleEngine.Corresponds sharedSource.findings (injectionFrom "c1" ["s1", "s2"])
      sharedSource.findings (injectionFrom "c2" ["s1", "s3"]) := by
    intro h
    have hsource := (h.sources "s2").mp (by decide)
    exact absurd hsource (by decide)
  refine ⟨⟨hswap, hfail, fun h => ?_⟩, hmerged, hdifferent, fun h => ?_⟩
  · have hpass := (h.steadyBase.stable twoRulesSwapped hswap).status
    rw [hfail] at hpass
    exact absurd hpass (by decide)
  · exact hdifferent (h.steadyBase.unmerged sharedSource (.refl _) _ List.mem_cons_self _
      (List.mem_cons_of_mem _ List.mem_cons_self) hmerged)

end sample

end RegressionEngine

end KarsaSec.Analysis
