import KarsaSec.Found.Splicing
import KarsaSec.Remediation.ApplierOutcome

/-!
# Where the hunks of a proposal are applied

`ControlledPatchApplier.apply` matches every hunk against the text that the hunks before it have left, counting occurrences that do
not overlap, and keeps one text for each spelling of a target file.

* `WrittenLast`: the spelling of a file whose text is written last; `content_of_writtenLast` says what the file then holds.
* `HunksPlaced`: every hunk replaces the one place where the file had its original text, and none is lost.
* `hunksPlaced_iff`: which proposals and disks make this so.
-/

namespace KarsaSec.Remediation

open KarsaSec.Found

/-- The edit that a hunk makes. Kind: D -/
def PatchHunk.toEdit (h : PatchHunk) : Edit Char := ⟨h.originalText, h.proposedText⟩

namespace ControlledPatchApplier

/-! ## The order of the writes -/

/-- The files of a list in the order of their first mention, after those that have been mentioned. Kind: D -/
def firstMentions : List String → List String → List String
  | mentioned, [] => mentioned
  | mentioned, rel :: rest => firstMentions (if rel ∈ mentioned then mentioned else mentioned ++ [rel]) rest

/-- The target files in the order in which their texts are written. Source: `applier.py`, `apply`, `modified_contents`. Kind: D -/
def writtenFiles (proposal : PatchProposal) : List String := firstMentions [] proposal.targetFiles

/-- No other spelling of the file is written after this one. Kind: D -/
def WrittenLast (fs : FileSystem) (proposal : PatchProposal) (rel : String) : Prop :=
  ∃ before after, writtenFiles proposal = before ++ rel :: after ∧ ∀ other ∈ after, targetPath fs other ≠ targetPath fs rel

section order

variable {applier : ControlledPatchApplier} {fs : FileSystem} {proposal : PatchProposal} {rel rel' : String}

theorem keys_resolveTargets {pre : String} : {rels : List String} → {paths paths' : Dict String String} →
    applier.resolveTargets fs pre rels paths = .ok paths' → paths'.keys = firstMentions paths.keys rels
  | [], paths, paths', h => by
    cases h
    rfl
  | rel :: rest, paths, paths', h => by
    rw [resolveTargets] at h
    split at h
    · cases h
    · rw [keys_resolveTargets h, firstMentions, Dict.keys_set]

theorem mem_firstMentions : {rels mentioned : List String} → rel ∈ firstMentions mentioned rels ↔ rel ∈ mentioned ∨ rel ∈ rels
  | [], mentioned => by rw [firstMentions, or_iff_left List.not_mem_nil]
  | r :: rest, mentioned => by
    rw [firstMentions, mem_firstMentions, List.mem_cons]
    by_cases hr : r ∈ mentioned
    · rw [if_pos hr]
      constructor
      · exact fun h => h.imp_right Or.inr
      · grind
    · rw [if_neg hr, List.mem_append, List.mem_singleton, or_assoc]

theorem mem_writtenFiles : rel ∈ writtenFiles proposal ↔ rel ∈ proposal.targetFiles := by
  rw [writtenFiles, mem_firstMentions, or_iff_right List.not_mem_nil]

theorem WrittenLast.mem (h : WrittenLast fs proposal rel) : rel ∈ proposal.targetFiles := by
  obtain ⟨before, after, heq, -⟩ := h
  rw [← mem_writtenFiles, heq]
  exact List.mem_append_right _ List.mem_cons_self

/-- The last element of a kind. Kind: L -/
theorem exists_last {α : Type*} (P : α → Prop) : {l : List α} → (∃ a ∈ l, P a) →
    ∃ before a after, l = before ++ a :: after ∧ P a ∧ ∀ b ∈ after, ¬P b
  | [], h => by
    obtain ⟨a, ha, -⟩ := h
    exact absurd ha List.not_mem_nil
  | c :: l, h => by
    by_cases hrest : ∃ a ∈ l, P a
    · obtain ⟨before, a, after, rfl, ha, hafter⟩ := exists_last P hrest
      exact ⟨c :: before, a, after, rfl, ha, hafter⟩
    · obtain ⟨a, ha, hPa⟩ := h
      rcases List.mem_cons.mp ha with rfl | ha
      · exact ⟨[], a, l, rfl, hPa, fun b hb hPb => hrest ⟨b, hb, hPb⟩⟩
      · exact absurd ⟨a, ha, hPa⟩ hrest

variable (fs) in
/-- Every target file has a spelling that is written last. Kind: L -/
theorem exists_writtenLast (h : rel ∈ proposal.targetFiles) :
    ∃ last, WrittenLast fs proposal last ∧ targetPath fs last = targetPath fs rel := by
  obtain ⟨before, last, after, heq, hlast, hafter⟩ :=
    exists_last (fun other => targetPath fs other = targetPath fs rel) ⟨rel, mem_writtenFiles.mpr h, rfl⟩
  exact ⟨last, ⟨before, after, heq, fun other ho => hlast ▸ hafter other ho⟩, hlast⟩

theorem WrittenLast.unique (h : WrittenLast fs proposal rel) (h' : WrittenLast fs proposal rel')
    (hpath : targetPath fs rel = targetPath fs rel') : rel = rel' := by
  obtain ⟨b, a, heq, ha⟩ := h
  obtain ⟨b', a', heq', ha'⟩ := h'
  rw [heq] at heq'
  rcases List.append_eq_append_iff.mp heq' with ⟨c, rfl, hc⟩ | ⟨c, rfl, hc⟩
  · grind
  · grind

end order

/-! ## What the files hold -/

/-- The text of a target file. Kind: D -/
def Holds (fs : FileSystem) (rel : String) (text : Text) : Prop := fs.content (targetPath fs rel) = some (encodeUtf8 text)

theorem Holds.unique {fs : FileSystem} {rel : String} {text text' : Text} (h : Holds fs rel text) (h' : Holds fs rel text') :
    text = text' := encodeUtf8_injective (Option.some.inj (h.symm.trans h'))

/-- The hunks of a file, under all spellings of it. Kind: D -/
def hunksAt (fs : FileSystem) (rel : String) (hunks : List PatchHunk) : List PatchHunk :=
  hunks.filter fun h => targetPath fs h.filePath = targetPath fs rel

/-- Every hunk replaces the one place where the file had its original text, and the file ends up with all of its hunks: `once`, an
original text has one place, overlapping ones counted; `kept`, no text without the hunk is written over it; `inPlace`, the search
comes upon that place and not upon text of another hunk; `replaced`, the file holds the old text with all its hunks made. Kind: D -/
structure HunksPlaced (proposal : PatchProposal) (fs fs' : FileSystem) : Prop where
  once : ∀ h ∈ proposal.hunks, ∀ text, Holds fs h.filePath text → OccursOnce h.originalText text
  kept : ∀ h ∈ proposal.hunks, WrittenLast fs proposal h.filePath
  inPlace : ∀ rel ∈ proposal.targetFiles, ∀ text, Holds fs rel text →
    InPlace text [] text ((hunksOf rel proposal.hunks).map PatchHunk.toEdit)
  replaced : ∀ rel ∈ proposal.targetFiles, ∀ text, Holds fs rel text →
    ∃ new, fs'.content (targetPath fs rel) = some (encodeUtf8 new) ∧
      Replaces text ((hunksAt fs rel proposal.hunks).map PatchHunk.toEdit) new

/-- The condition for it: one place for each original text, one spelling for each file with hunks, places that do not overlap, and
no text in front of a place that the earlier hunks make look like it. Kind: D -/
structure HunksApart (proposal : PatchProposal) (fs : FileSystem) : Prop where
  once : ∀ h ∈ proposal.hunks, ∀ text, Holds fs h.filePath text → OccursOnce h.originalText text
  spelled : ∀ h ∈ proposal.hunks, WrittenLast fs proposal h.filePath
  undisturbed : ∀ rel ∈ proposal.targetFiles, ∀ text, Holds fs rel text →
    Undisturbed text [] text ((hunksOf rel proposal.hunks).map PatchHunk.toEdit)

theorem patchText_eq_editInTurn : (hunks : List PatchHunk) → (text : Text) →
    patchText hunks text = editInTurn (hunks.map PatchHunk.toEdit) text
  | [], _ => rfl
  | h :: rest, text => patchText_eq_editInTurn rest (replaceFirst h.originalText h.proposedText text)

theorem lastWrite_append (path : String) (bytes : ByteArray) {after : List (String × ByteArray)}
    (h : path ∉ after.map Prod.fst) : (before : List (String × ByteArray)) → (old : Option ByteArray) →
    lastWrite path (before ++ (path, bytes) :: after) old = some bytes
  | [], old => by
    rw [List.nil_append, lastWrite, if_pos rfl]
    clear old
    induction after with
    | nil => rfl
    | cons w after ih =>
      rw [List.map_cons, List.mem_cons, not_or] at h
      rw [lastWrite, if_neg (Ne.symm h.1)]
      exact ih h.2
  | (q, b) :: before, old => lastWrite_append path bytes h before _

section call

variable {host : Host} {applier : ControlledPatchApplier} {io : Io} {now : ℤ} {nowIso txId : String}
  {proposal : PatchProposal} {token : PatchApprovalToken} {currentSnapshot : Option SourceSnapshot} {fs fs' : FileSystem}
  {p : Prepared} {rel : String}

/-- The texts are written in the order of the files. Source: `applier.py`, `apply`, phase 2. Kind: L -/
theorem Passed.keys_modified (hp : Passed host applier now nowIso proposal token currentSnapshot fs p) :
    p.modifiedContents.keys = writtenFiles proposal := by
  obtain ⟨contents, hs, hmatch⟩ := hp.sound
  have hkeys : contents.keys = p.targetPaths.keys := hs.keys
  have hpaths : p.targetPaths.keys = writtenFiles proposal := keys_resolveTargets hp.resolved
  rw [keys_matchHunks (fun hunk hh => ?_) hmatch, hkeys, hpaths]
  rw [hkeys, hpaths, mem_writtenFiles]
  exact hp.allowlist hunk hh

/-- A file holds the text of the spelling that is written last. Source: `applier.py`, `apply`, phase 2. Kind: L -/
theorem content_of_writtenLast {k : ℕ} (hp : Passed host applier now nowIso proposal token currentSnapshot fs p)
    (hw : writeFiles io.write 0 (Prepared.writes p) fs = (none, k, fs')) (hlast : WrittenLast fs proposal rel) {text : Text}
    (htext : Holds fs rel text) :
    fs'.content (targetPath fs rel) = some (encodeUtf8 (patchText (hunksOf rel proposal.hunks) text)) := by
  obtain ⟨raw, text', hraw, hdecode, -, hmod, -⟩ := hp.modified hlast.mem
  obtain rfl : text = text' := htext.unique (hraw.trans (congrArg some (encodeUtf8_of_decodeUtf8 hdecode).symm))
  obtain ⟨before, after, hkeys, hafter⟩ := hlast
  rw [← hp.keys_modified] at hkeys
  have hpath : ∀ other ∈ p.modifiedContents.keys, p.targetPaths.getD other "" = targetPath fs other := by
    intro other ho
    rw [Dict.getD, hp.get?_targetPaths, if_pos (hp.mem_keys_modified.mp ho), Option.getD_some]
  obtain ⟨entries₁, entries₂, hentries, -, htail⟩ := List.map_eq_append_iff.mp hkeys
  obtain ⟨⟨name, new⟩, entries₃, rfl, hname, rfl⟩ := List.map_eq_cons_iff.mp htail
  obtain rfl : rel = name := hname.symm
  have hmem : ∀ e ∈ entries₃, e ∈ p.modifiedContents.entries := fun e he =>
    hentries ▸ List.mem_append_right _ (List.mem_cons_of_mem _ he)
  have hnew : p.modifiedContents.get? rel = some new :=
    Dict.mem_entries.mp (hentries ▸ List.mem_append_right _ List.mem_cons_self)
  rw [hmod] at hnew
  have hself : p.targetPaths.getD rel "" = targetPath fs rel :=
    hpath rel (hkeys ▸ List.mem_append_right _ List.mem_cons_self)
  rw [writeFiles_content hw, Prepared.writes, hentries, List.map_append, List.map_cons, hself, lastWrite_append,
    ← Option.some.inj hnew]
  -- what is written after it goes to other paths
  intro hlater
  rw [List.map_map] at hlater
  obtain ⟨e, he, hpe⟩ := List.mem_map.mp hlater
  have hother := hafter e.1 (List.mem_map_of_mem he)
  exact hother ((hpath e.1 (List.mem_map_of_mem (hmem e he))).symm.trans hpe)

/-- All hunks of a file carry the spelling that is written last. Kind: L -/
theorem hunksAt_eq (hkept : ∀ h ∈ proposal.hunks, WrittenLast fs proposal h.filePath) {last : String}
    (hlast : WrittenLast fs proposal last) (hpath : targetPath fs last = targetPath fs rel) :
    hunksAt fs rel proposal.hunks = hunksOf last proposal.hunks := by
  refine List.filter_congr fun h hh => decide_eq_decide.mpr ?_
  constructor
  · exact fun hsame => (hkept h hh).unique hlast (hsame.trans hpath.symm)
  · exact fun hsame => hsame ▸ hpath

/-- **The hunks of an applied proposal are placed exactly when they keep apart.** Source: `applier.py`, `apply`. Kind: T -/
theorem hunksPlaced_iff {res : ApplicationResult} {tok : PatchApprovalToken}
    (h : apply host applier io now nowIso txId proposal token currentSnapshot fs = (.ok (res, tok), fs'))
    (hst : res.status = .applied) : HunksPlaced proposal fs fs' ↔ HunksApart proposal fs := by
  obtain ⟨hends, -⟩ := apply_cases h
  rw [hst] at hends
  rcases hends with _ | _ | _ | ⟨p, _, _, _, hp, hw, _⟩
  have honce : ∀ {rel : String} {text : Text}, (∀ h ∈ proposal.hunks, ∀ text, Holds fs h.filePath text →
      OccursOnce h.originalText text) → Holds fs rel text →
      ∀ e ∈ [] ++ (hunksOf rel proposal.hunks).map PatchHunk.toEdit, OccursOnce e.old text := by
    intro rel text hall htext e he
    obtain ⟨hunk, hmem, rfl⟩ := List.mem_map.mp he
    obtain ⟨hin, hfile⟩ := List.mem_filter.mp hmem
    exact hall hunk hin text (of_decide_eq_true hfile ▸ htext)
  constructor
  · exact fun hplaced => ⟨hplaced.once, hplaced.kept, fun rel hrel text htext =>
      (inPlace_iff (honce hplaced.once htext) (.done text)).mp (hplaced.inPlace rel hrel text htext)⟩
  · intro hapart
    have hinPlace : ∀ rel ∈ proposal.targetFiles, ∀ text, Holds fs rel text →
        InPlace text [] text ((hunksOf rel proposal.hunks).map PatchHunk.toEdit) := fun rel hrel text htext =>
      (inPlace_iff (honce hapart.once htext) (.done text)).mpr (hapart.undisturbed rel hrel text htext)
    refine ⟨hapart.once, hapart.spelled, hinPlace, fun rel hrel text htext => ?_⟩
    obtain ⟨last, hlast, hpath⟩ := exists_writtenLast fs hrel
    have hlastText : Holds fs last text := by
      rw [Holds, hpath]
      exact htext
    refine ⟨_, hpath ▸ content_of_writtenLast hp hw hlast hlastText, ?_⟩
    rw [hunksAt_eq hapart.spelled hlast hpath, patchText_eq_editInTurn]
    exact InPlace.replaces (.done text) (hinPlace last hlast.mem text hlastText)

end call

/-! ## Hunks of one file -/

section sample

/-- The text of the example. Kind: D -/
def evalText : Text := "eval($x);".toList

/-- The texts of two files. Kind: D -/
def twoTexts : Text × Text := ("eval($x); unlink($f);".toList, "echo md5($p);".toList)

/-- The repository with two files. Kind: D -/
def twoFiles : FileSystem where
  resolve rel := "/repo/" ++ rel
  content p :=
    if p = "/repo/a.php" then some (encodeUtf8 twoTexts.1)
    else if p = "/repo/b.php" then some (encodeUtf8 twoTexts.2)
    else none

/-- Three hunks in them. Kind: D -/
def threeHunks : PatchProposal :=
  { sampleProposal [sampleHunk "eval" "intval", { sampleHunk "md5" "sha1" with filePath := "b.php" },
      sampleHunk "unlink" "basename"] [] with
    targetFiles := ["a.php", "b.php"] }

/-- An approval of them. Kind: D -/
def threeHunksApproval : PatchApprovalToken :=
  let files := [⟨"a.php", (encodeUtf8 twoTexts.1).size, sampleHost.sha256 (encodeUtf8 twoTexts.1), true⟩,
    ⟨"b.php", (encodeUtf8 twoTexts.2).size, sampleHost.sha256 (encodeUtf8 twoTexts.2), true⟩]
  approve sampleHost sampleApplier threeHunks ⟨"/repo", files, SourceSnapshot.computeAggregateHash sampleHost files, ""⟩
    "reviewer" "token" ""

theorem hunksPlaced_eval : ∃ res tok fs',
    apply sampleHost sampleApplier sampleIo 0 "" "tx" threeHunks threeHunksApproval none twoFiles = (.ok (res, tok), fs') ∧
      (HunksPlaced threeHunks twoFiles fs' ↔ HunksApart threeHunks twoFiles) := by
  have hstatus : (apply sampleHost sampleApplier sampleIo 0 "" "tx" threeHunks threeHunksApproval none twoFiles).1.toOption.map
      (fun r => r.1.status) = some .applied := by decide +kernel
  rcases happly : apply sampleHost sampleApplier sampleIo 0 "" "tx" threeHunks threeHunksApproval none twoFiles
    with ⟨message | ⟨res, tok⟩, fs'⟩
  · rw [happly] at hstatus
    cases hstatus
  · rw [happly] at hstatus
    exact ⟨res, tok, fs', rfl, hunksPlaced_iff happly (Option.some.inj hstatus)⟩

/-- The second hunk is applied to the text that the first one has put in. Source: `applier.py`, `apply`. Kind: T -/
theorem introduced_text_matched : ∃ res tok fs',
    apply sampleHost sampleApplier sampleIo 0 "" "tx"
      (sampleProposal [sampleHunk "eval" "exec", sampleHunk "exec" "system"] [])
      (sampleApproval (sampleProposal [sampleHunk "eval" "exec", sampleHunk "exec" "system"] []) evalText) none
      (sampleDisk evalText) = (.ok (res, tok), fs') ∧ res.status = .applied ∧
      ¬HunksPlaced (sampleProposal [sampleHunk "eval" "exec", sampleHunk "exec" "system"] []) (sampleDisk evalText) fs' := by
  obtain ⟨res, happly, hst, -⟩ := sample_applied
    (sampleProposal [sampleHunk "eval" "exec", sampleHunk "exec" "system"] []) evalText rfl
    (by decide) ⟨by decide, by decide, trivial⟩
  refine ⟨res, _, _, happly, hst, fun h => ?_⟩
  have htext : Holds (sampleDisk evalText) "a.php" evalText := by
    rw [Holds, targetPath_sampleDisk]
    exact sampleDisk_content evalText
  obtain ⟨i, ⟨a, b, heq, -⟩, -⟩ := h.once (sampleHunk "exec" "system") (by decide) evalText htext
  exact countSub_eq_zero.mp (by decide) ⟨a, b, heq.symm⟩

end sample

end ControlledPatchApplier

end KarsaSec.Remediation
