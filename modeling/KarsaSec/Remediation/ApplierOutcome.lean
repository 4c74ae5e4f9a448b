import KarsaSec.Found.Json
import KarsaSec.Remediation.Applier

/-!
# What an application does to the disk

The facts about `ControlledPatchApplier.apply`, phase by phase.

* `Passed` lists the steps of a preflight that passes and `preflight_ok` is its inversion;
  `Passed.backup`, `Passed.modified` and `Passed.mem_writes` say the same in terms of the disk.
* `patchText` and `MatchedOnce` are what the hunks of one file do to its text.
* `writeFiles_content` and `restoreFiles_content` are what the write loop and the restoring loop
  leave at each path; `rollback_success` joins them: a rollback that reports success has put the
  disk back.
* `apply_cases` is the inversion of the whole call (`Ends`), `apply_single` its converse for a valid
  approval of one file; `applied_content` is the text that an application writes.
-/

namespace KarsaSec.Remediation

open KarsaSec.Found

namespace ControlledPatchApplier

/-! ## What the preflight has checked -/

section preflightFacts

variable {host : Host} {applier : ControlledPatchApplier} {fs : FileSystem}

/-- The steps of a preflight that passes, each with what it returned.
Source: `applier.py`, `apply`, phase 1
Kind: P -/
structure Passed (host : Host) (applier : ControlledPatchApplier) (now : ℤ) (nowIso : String)
    (proposal : PatchProposal) (token : PatchApprovalToken)
    (currentSnapshot : Option SourceSnapshot) (fs : FileSystem) (p : Prepared) : Prop where
  unused : token.status ≠ .used
  snapshot : currentSnapshot = some p.snap ∨ currentSnapshot = none ∧
    SourceSnapshot.capture host applier.repositoryRoot fs proposal.targetFiles nowIso = .ok p.snap
  verified : ∃ msg, token.verifyValid host now proposal.findingId proposal.proposalFingerprint
    p.snap.aggregateHash applier.repositoryRoot = .ok (true, msg)
  allowlist : ∀ h ∈ proposal.hunks, h.filePath ∈ proposal.targetFiles
  resolved : applier.resolveTargets fs p.snap.aggregateHash proposal.targetFiles Dict.empty =
    .ok p.targetPaths
  read : ∃ contents, readTargets host fs p.snap.aggregateHash p.targetPaths.entries
      ⟨Dict.empty, Dict.empty, Dict.empty⟩ = .ok ⟨contents, p.backupBytes, p.initialHashes⟩ ∧
    matchHunks p.snap.aggregateHash 0 proposal.hunks contents = .ok p.modifiedContents

theorem takeSnapshot_ok {nowIso : String} {proposal : PatchProposal} {token : PatchApprovalToken}
    {currentSnapshot : Option SourceSnapshot} {snap : SourceSnapshot}
    (h : takeSnapshot host applier nowIso proposal token currentSnapshot fs = .ok snap) :
    token.status ≠ .used ∧ (currentSnapshot = some snap ∨ currentSnapshot = none ∧
      SourceSnapshot.capture host applier.repositoryRoot fs proposal.targetFiles nowIso =
        .ok snap) := by
  unfold takeSnapshot at h
  split at h
  · cases h
  next hused =>
    refine ⟨hused, ?_⟩
    split at h
    · cases h
      exact Or.inl rfl
    · grind

theorem checkToken_ok {now : ℤ} {proposal : PatchProposal} {token : PatchApprovalToken}
    {snap : SourceSnapshot} {u : Unit}
    (h : checkToken host applier now proposal token snap = .ok u) :
    ∃ msg, token.verifyValid host now proposal.findingId proposal.proposalFingerprint
      snap.aggregateHash applier.repositoryRoot = .ok (true, msg) := by
  unfold checkToken at h
  split at h
  · cases h
  · cases h
  · next msg hv => exact ⟨msg, hv⟩

theorem checkAllowlist_ok {pre : String} {proposal : PatchProposal} {u : Unit}
    (h : checkAllowlist pre proposal = .ok u) :
    ∀ hunk ∈ proposal.hunks, hunk.filePath ∈ proposal.targetFiles := by
  unfold checkAllowlist at h
  split at h
  · cases h
  · next hf => simpa using hf

/-- Inversion of the preflight. Source: `applier.py`, `apply`, phase 1. Kind: L -/
theorem preflight_ok {now : ℤ} {nowIso : String} {proposal : PatchProposal}
    {token : PatchApprovalToken} {currentSnapshot : Option SourceSnapshot} {p : Prepared}
    (h : preflight host applier now nowIso proposal token currentSnapshot fs = .ok p) :
    Passed host applier now nowIso proposal token currentSnapshot fs p := by
  unfold preflight at h
  obtain ⟨snap, hsnap, h⟩ := bind_ok h
  obtain ⟨_, htoken, h⟩ := bind_ok h
  obtain ⟨_, hallow, h⟩ := bind_ok h
  obtain ⟨paths, hpaths, h⟩ := bind_ok h
  obtain ⟨r, hr, h⟩ := bind_ok h
  obtain ⟨m, hm, h⟩ := bind_ok h
  cases h
  obtain ⟨hunused, hsnap⟩ := takeSnapshot_ok hsnap
  exact ⟨hunused, hsnap, checkToken_ok htoken, checkAllowlist_ok hallow, hpaths, _, hr, hm⟩

/-- The paths of step 1.3: every target file with the place it resolves to.
Source: `applier.py`, `apply`, step 1.3
Kind: L -/
theorem get?_resolveTargets {pre : String} (rel : String) :
    {rels : List String} → {paths paths' : Dict String String} →
    applier.resolveTargets fs pre rels paths = .ok paths' →
      paths'.get? rel =
        if rel ∈ rels then some (fs.resolve (normSlashes rel)) else paths.get? rel
  | [], paths, paths', h => by
    cases h
    simp
  | rel' :: rest, paths, paths', h => by
    simp only [resolveTargets, validatePathSafety] at h
    split at h
    · cases h
    next path hpath =>
      have hp : path = fs.resolve (normSlashes rel') := by grind
      rw [get?_resolveTargets rel h, Dict.get?_set, hp]
      by_cases hmem : rel ∈ rest
      · simp [hmem]
      · simp_all

/-- What has been read after the files `done`: every backup is what the disk holds, with its
digest, and every file read has a backup and its decoded text.
Source: `applier.py`, `apply`, step 1.4
Kind: D -/
structure Reading.Sound (host : Host) (fs : FileSystem) (done : List (String × String))
    (r : Reading) : Prop where
  backup : ∀ path raw, r.backupBytes.get? path = some raw →
    fs.content path = some raw ∧ r.initialHashes.get? path = some (host.sha256 raw) ∧
      ∃ rel, (rel, path) ∈ done
  text : ∀ rel path, (rel, path) ∈ done → ∃ raw, r.backupBytes.get? path = some raw ∧
    ∃ text, decodeUtf8 raw = some text ∧ r.fileContents.get? rel = some text
  keys : r.fileContents.keys = done.map Prod.fst

theorem Reading.sound_empty : Reading.Sound host fs [] ⟨Dict.empty, Dict.empty, Dict.empty⟩ :=
  ⟨fun _ _ h => by simp at h, fun _ _ h => absurd h List.not_mem_nil, rfl⟩

/-- Reading one more file. Kind: L -/
theorem Reading.Sound.snoc {done : List (String × String)} {r : Reading} {rel path : String}
    {raw : ByteArray} {text : Text} (hr : r.Sound host fs done)
    (hnew : rel ∉ done.map Prod.fst) (hraw : fs.content path = some raw)
    (htext : decodeUtf8 raw = some text) :
    Reading.Sound host fs (done ++ [(rel, path)])
      ⟨r.fileContents.set rel text, r.backupBytes.set path raw,
        r.initialHashes.set path (host.sha256 raw)⟩ := by
  refine ⟨fun q b hb => ?_, fun f q hq => ?_, ?_⟩
  · simp only [Dict.get?_set] at hb ⊢
    split at hb
    · simp_all
    · next hqp =>
        obtain ⟨h1, h2, rel', h3⟩ := hr.backup q b hb
        exact ⟨h1, by simpa [hqp] using h2, rel', by simp [h3]⟩
  · simp only [Dict.get?_set]
    rcases List.mem_append.mp hq with hq | hq
    · obtain ⟨b, hb, t, ht, hf⟩ := hr.text f q hq
      have hne : f ≠ rel := fun e => hnew (e ▸ List.mem_map_of_mem (f := Prod.fst) hq)
      by_cases hqp : q = path
      · subst hqp
        obtain rfl : raw = b := Option.some_injective _ (hraw.symm.trans (hr.backup q b hb).1)
        exact ⟨raw, by simp, t, ht, by simpa [hne] using hf⟩
      · simp_all
    · simp_all
  · rw [Dict.keys_set, hr.keys, if_neg hnew]
    simp

/-- Step 1.4 keeps the reading sound. Source: `applier.py`, `apply`, step 1.4. Kind: L -/
theorem sound_readTargets {pre : String} : {rest done : List (String × String)} →
    {r r' : Reading} → ((done ++ rest).map Prod.fst).Nodup → r.Sound host fs done →
    readTargets host fs pre rest r = .ok r' → r'.Sound host fs (done ++ rest)
  | [], done, r, r', _, hr, h => by
    cases h
    simpa using hr
  | (rel, path) :: rest, done, r, r', hnd, hr, h => by
    simp only [readTargets] at h
    split at h
    · cases h
    next raw hraw =>
      split at h
      · cases h
      next text htext =>
        have hnew : rel ∉ done.map Prod.fst := by grind
        have hsnoc : done ++ (rel, path) :: rest = (done ++ [(rel, path)]) ++ rest := by simp
        rw [hsnoc] at hnd ⊢
        exact sound_readTargets hnd (hr.snoc hnew hraw htext) h

/-! ## What the hunks do to a text -/

/-- The hunks of one file. Kind: D -/
def hunksOf (file : String) (hunks : List PatchHunk) : List PatchHunk :=
  hunks.filter fun h => h.filePath = file

/-- The hunks applied to a text one after the other.
Source: `applier.py`, `apply`, loop over `proposal.hunks`, for one file
Kind: D -/
def patchText : List PatchHunk → Text → Text
  | [], text => text
  | h :: rest, text => patchText rest (replaceFirst h.originalText h.proposedText text)

/-- Every hunk occurs exactly once in the text it is applied to. Kind: D -/
def MatchedOnce : List PatchHunk → Text → Prop
  | [], _ => True
  | h :: rest, text => countSub h.originalText text = 1 ∧
      MatchedOnce rest (replaceFirst h.originalText h.proposedText text)

/-- What exact-one matching leaves in the text of each file.
Source: `applier.py`, `apply`, loop over `proposal.hunks`
Kind: L -/
theorem matchHunks_ok {pre : String} (file : String) : {k : ℕ} → {hunks : List PatchHunk} →
    {contents m : Dict String Text} → matchHunks pre k hunks contents = .ok m →
      m.getD file [] = patchText (hunksOf file hunks) (contents.getD file []) ∧
        MatchedOnce (hunksOf file hunks) (contents.getD file [])
  | _, [], contents, m, h => by
    cases h
    exact ⟨rfl, trivial⟩
  | k, hunk :: rest, contents, m, h => by
    simp only [matchHunks] at h
    split at h
    · cases h
    next hzero =>
      split at h
      · cases h
      next hone =>
        obtain ⟨ih, ihm⟩ := matchHunks_ok file h
        by_cases hf : hunk.filePath = file
        · grind [Dict.getD_set_self, hunksOf, patchText, MatchedOnce]
        · grind [Dict.getD_set_ne, hunksOf]

/-- The hunks add no file. Kind: L -/
theorem keys_matchHunks {pre : String} : {k : ℕ} → {hunks : List PatchHunk} →
    {contents m : Dict String Text} → (∀ h ∈ hunks, h.filePath ∈ contents.keys) →
    matchHunks pre k hunks contents = .ok m → m.keys = contents.keys
  | _, [], contents, m, _, h => by
    cases h
    rfl
  | k, hunk :: rest, contents, m, hmem, h => by
    simp only [matchHunks] at h
    split at h
    · cases h
    split at h
    · cases h
    have hk : (contents.set hunk.filePath (replaceFirst hunk.originalText hunk.proposedText
        (contents.getD hunk.filePath []))).keys = contents.keys := by
      rw [Dict.keys_set, if_pos (hmem hunk List.mem_cons_self)]
    rw [← hk]
    refine keys_matchHunks (fun h' hh' => ?_) h
    rw [hk]
    exact hmem h' (List.mem_cons_of_mem _ hh')

end preflightFacts

/-! ## A preflight that passes, in terms of the disk -/

section passed

variable {host : Host} {applier : ControlledPatchApplier} {now : ℤ} {nowIso : String}
  {proposal : PatchProposal} {token : PatchApprovalToken}
  {currentSnapshot : Option SourceSnapshot} {fs : FileSystem} {p : Prepared}

/-- The path of a target file. Kind: D -/
def targetPath (fs : FileSystem) (rel : String) : String := fs.resolve (normSlashes rel)

namespace Passed

theorem get?_targetPaths
    (h : Passed host applier now nowIso proposal token currentSnapshot fs p) (rel : String) :
    p.targetPaths.get? rel =
      if rel ∈ proposal.targetFiles then some (targetPath fs rel) else none := by
  simpa [targetPath] using get?_resolveTargets rel h.resolved

theorem sound (h : Passed host applier now nowIso proposal token currentSnapshot fs p) :
    ∃ contents, Reading.Sound host fs p.targetPaths.entries
      ⟨contents, p.backupBytes, p.initialHashes⟩ ∧
        matchHunks p.snap.aggregateHash 0 proposal.hunks contents = .ok p.modifiedContents := by
  obtain ⟨contents, hread, hmatch⟩ := h.read
  have hnd : (([] ++ p.targetPaths.entries).map Prod.fst).Nodup := p.targetPaths.nodup
  exact ⟨contents, by simpa using sound_readTargets hnd Reading.sound_empty hread, hmatch⟩

/-- Every backup is the present content of a target file, and its digest is on record.
Source: `applier.py`, `apply`, step 1.4
Kind: L -/
theorem backup (h : Passed host applier now nowIso proposal token currentSnapshot fs p)
    {path : String} {raw : ByteArray} (hb : p.backupBytes.get? path = some raw) :
    fs.content path = some raw ∧ p.initialHashes.get? path = some (host.sha256 raw) ∧
      ∃ rel ∈ proposal.targetFiles, path = targetPath fs rel := by
  obtain ⟨contents, hs, -⟩ := h.sound
  obtain ⟨hraw, hhash, rel, hrel⟩ := hs.backup path raw hb
  refine ⟨hraw, hhash, rel, ?_⟩
  have hget := Dict.mem_entries.mp hrel
  rw [h.get?_targetPaths] at hget
  split at hget
  · simp_all
  · cases hget

/-- Every target file holds a text, has a backup, and is to hold the text with its hunks applied.
Source: `applier.py`, `apply`, step 1.4
Kind: L -/
theorem modified (h : Passed host applier now nowIso proposal token currentSnapshot fs p)
    {rel : String} (hrel : rel ∈ proposal.targetFiles) :
    ∃ raw text, fs.content (targetPath fs rel) = some raw ∧ decodeUtf8 raw = some text ∧
      p.backupBytes.get? (targetPath fs rel) = some raw ∧
      p.modifiedContents.get? rel = some (patchText (hunksOf rel proposal.hunks) text) ∧
      MatchedOnce (hunksOf rel proposal.hunks) text := by
  obtain ⟨contents, hs, hmatch⟩ := h.sound
  have hentry : (rel, targetPath fs rel) ∈ p.targetPaths.entries := by
    rw [Dict.mem_entries, h.get?_targetPaths, if_pos hrel]
  obtain ⟨raw, hraw, text, htext, hcont⟩ := hs.text rel _ hentry
  obtain ⟨hm, honce⟩ := matchHunks_ok rel hmatch
  have hkeys : p.modifiedContents.keys = contents.keys := by
    refine keys_matchHunks (fun hunk hh => ?_) hmatch
    have hk : contents.keys = p.targetPaths.keys := hs.keys
    rw [hk, ← Dict.get?_isSome, h.get?_targetPaths, if_pos (h.allowlist hunk hh)]
    rfl
  have hsome : (p.modifiedContents.get? rel).isSome := by grind [Dict.get?_isSome]
  obtain ⟨m, hget⟩ := Option.isSome_iff_exists.mp hsome
  simp only [Dict.getD, hget, hcont, Option.getD_some] at hm honce
  exact ⟨raw, text, (hs.backup _ raw hraw).1, htext, hraw, by rw [hget, hm], honce⟩

/-- Only target files are to be written. Source: `applier.py`, `apply`, step 1.2. Kind: L -/
theorem mem_keys_modified
    (h : Passed host applier now nowIso proposal token currentSnapshot fs p) {rel : String} :
    rel ∈ p.modifiedContents.keys ↔ rel ∈ proposal.targetFiles := by
  obtain ⟨contents, hs, hmatch⟩ := h.sound
  have hk : contents.keys = p.targetPaths.keys := hs.keys
  have hmem : ∀ r, r ∈ p.targetPaths.keys ↔ r ∈ proposal.targetFiles := by
    intro r
    rw [← Dict.get?_isSome, h.get?_targetPaths]
    split <;> simp_all
  rw [keys_matchHunks (fun hunk hh => by rw [hk, hmem]; exact h.allowlist hunk hh) hmatch, hk,
    hmem]

/-- Every write of the mutation phase goes to a file with a backup.
Source: `applier.py`, `apply`, phase 2
Kind: L -/
theorem mem_writes (h : Passed host applier now nowIso proposal token currentSnapshot fs p)
    {path : String} {bytes : ByteArray} (hw : (path, bytes) ∈ Prepared.writes p) :
    ∃ rel ∈ proposal.targetFiles, path = targetPath fs rel ∧
      ∃ text, p.modifiedContents.get? rel = some text ∧ bytes = encodeUtf8 text := by
  obtain ⟨⟨rel, text⟩, he, heq⟩ := List.mem_map.mp hw
  obtain ⟨rfl, rfl⟩ := Prod.mk.inj heq
  have hrel : rel ∈ proposal.targetFiles :=
    h.mem_keys_modified.mp (List.mem_map_of_mem (f := Prod.fst) he)
  refine ⟨rel, hrel, ?_, text, Dict.mem_entries.mp he, rfl⟩
  rw [Dict.getD, h.get?_targetPaths, if_pos hrel, Option.getD_some]

end Passed

end passed

/-! ## What writing and restoring do to the disk -/

section disk

variable {io : ℕ → WriteOutcome}

/-- Writing does not move files. Kind: L -/
@[simp] theorem writeFiles_resolve : (k : ℕ) → (l : List (String × ByteArray)) →
    (fs : FileSystem) → (writeFiles io k l fs).2.2.resolve = fs.resolve
  | _, [], _ => rfl
  | k, (path, bytes) :: rest, fs => by
    have h := FileSystem.writeBytes_resolve fs (io k) path bytes
    simp only [writeFiles]
    rcases hw : fs.writeBytes (io k) path bytes with ⟨_ | err, fs'⟩
    · rw [hw] at h
      rw [← h]
      exact writeFiles_resolve (k + 1) rest fs'
    · rw [hw] at h
      exact h

/-- The frame of the write loop. Kind: L -/
theorem writeFiles_content_ne {path : String} : {k : ℕ} → {l : List (String × ByteArray)} →
    {fs : FileSystem} → path ∉ l.map Prod.fst →
      (writeFiles io k l fs).2.2.content path = fs.content path
  | _, [], _, _ => rfl
  | k, (q, bytes) :: rest, fs, h => by
    simp only [List.map_cons, List.mem_cons, not_or] at h
    have hq := FileSystem.writeBytes_content_ne fs (io k) bytes h.1
    simp only [writeFiles]
    rcases hw : fs.writeBytes (io k) q bytes with ⟨_ | err, fs'⟩
    · rw [hw] at hq
      rw [← hq]
      exact writeFiles_content_ne h.2
    · rw [hw] at hq
      exact hq

/-- What a list of writes leaves at a path that held `old`: the last write to it. Kind: D -/
def lastWrite (path : String) : List (String × ByteArray) → Option ByteArray → Option ByteArray
  | [], old => old
  | (q, bytes) :: rest, old => lastWrite path rest (if q = path then some bytes else old)

/-- A write loop without an error leaves the last write at every path.
Source: `applier.py`, `apply`, phase 2, write loop
Kind: L -/
theorem writeFiles_content {path : String} : {k k' : ℕ} → {l : List (String × ByteArray)} →
    {fs fs' : FileSystem} → writeFiles io k l fs = (none, k', fs') →
      fs'.content path = lastWrite path l (fs.content path)
  | _, _, [], _, _, h => by
    cases h
    rfl
  | k, k', (q, bytes) :: rest, fs, fs', h => by
    simp only [writeFiles] at h
    rcases hw : fs.writeBytes (io k) q bytes with ⟨_ | err, fs₁⟩
    · simp only [hw] at h
      rw [writeFiles_content h, lastWrite]
      congr 1
      split
      · next hq =>
          subst hq
          have hself := FileSystem.writeBytes_content_self (congrArg Prod.fst hw)
          simpa [hw] using hself
      · grind [FileSystem.writeBytes_content_ne]
    · simp only [hw] at h
      cases h

/-- The last write to a path with exactly one write is that write. Kind: L -/
theorem lastWrite_of_forall {path : String} {bytes : ByteArray} :
    {l : List (String × ByteArray)} → {old : Option ByteArray} →
    (∀ b, (path, b) ∈ l → b = bytes) → (old = some bytes ∨ (path, bytes) ∈ l) →
      lastWrite path l old = some bytes
  | [], old, _, h => by simpa [lastWrite] using h
  | (q, b) :: rest, old, hall, h => by
    rw [lastWrite]
    refine lastWrite_of_forall (fun b' hb' => hall b' (List.mem_cons_of_mem _ hb')) ?_
    by_cases hq : q = path
    · simp_all
    · grind

variable {host : Host} {hashes : Dict String String}

/-- One restoring write: the rest goes on from its disk, and no error means that it has written.
Source: `applier.py`, `_rollback_transaction`, loop body
Kind: L -/
theorem restoreFiles_cons (host : Host) (io : ℕ → WriteOutcome) (hashes : Dict String String)
    (k : ℕ) (path : String) (raw : ByteArray) (rest : List (String × ByteArray))
    (fs : FileSystem) :
    (restoreFiles host io hashes k ((path, raw) :: rest) fs).2 =
        (restoreFiles host io hashes (k + 1) rest (fs.writeBytes (io k) path raw).2).2 ∧
      ((restoreFiles host io hashes k ((path, raw) :: rest) fs).1 = [] →
        (fs.writeBytes (io k) path raw).1 = none ∧
          (restoreFiles host io hashes (k + 1) rest (fs.writeBytes (io k) path raw).2).1 = []) := by
  simp only [restoreFiles]
  rcases fs.writeBytes (io k) path raw with ⟨_ | err, fs'⟩
  · grind
  · exact ⟨rfl, fun h => by cases h⟩

@[simp] theorem restoreFiles_resolve : (k : ℕ) → (l : List (String × ByteArray)) →
    (fs : FileSystem) → (restoreFiles host io hashes k l fs).2.resolve = fs.resolve
  | _, [], _ => rfl
  | k, (path, raw) :: rest, fs => by
    rw [(restoreFiles_cons host io hashes k path raw rest fs).1, restoreFiles_resolve (k + 1) rest]
    exact FileSystem.writeBytes_resolve fs (io k) path raw

/-- The frame of the restoring loop. Kind: L -/
theorem restoreFiles_content_ne {path : String} : {k : ℕ} → {l : List (String × ByteArray)} →
    {fs : FileSystem} → path ∉ l.map Prod.fst →
      (restoreFiles host io hashes k l fs).2.content path = fs.content path
  | _, [], _, _ => rfl
  | k, (q, raw) :: rest, fs, h => by
    simp only [List.map_cons, List.mem_cons, not_or] at h
    rw [(restoreFiles_cons host io hashes k q raw rest fs).1, restoreFiles_content_ne h.2]
    exact FileSystem.writeBytes_content_ne fs (io k) raw h.1

/-- A restoring loop without an error has put every backup back.
Source: `applier.py`, `_rollback_transaction`
Kind: L -/
theorem restoreFiles_content {path : String} {raw : ByteArray} : {k : ℕ} →
    {l : List (String × ByteArray)} → {fs : FileSystem} → (l.map Prod.fst).Nodup →
    (restoreFiles host io hashes k l fs).1 = [] → (path, raw) ∈ l →
      (restoreFiles host io hashes k l fs).2.content path = some raw
  | _, [], _, _, _, h => absurd h List.not_mem_nil
  | k, (q, b) :: rest, fs, hnd, h, hmem => by
    simp only [List.map_cons, List.nodup_cons] at hnd
    obtain ⟨hstep, hnil⟩ := restoreFiles_cons host io hashes k q b rest fs
    obtain ⟨hwritten, hrest⟩ := hnil h
    rw [hstep]
    rcases List.mem_cons.mp hmem with heq | hmem
    · cases heq
      rw [restoreFiles_content_ne hnd.1]
      exact FileSystem.writeBytes_content_self hwritten
    · exact restoreFiles_content hnd.2 hrest hmem

end disk

/-! ## The whole call -/

section call

variable {host : Host} {applier : ControlledPatchApplier} {io : Io} {now : ℤ}
  {nowIso txId : String} {proposal : PatchProposal} {token : PatchApprovalToken}
  {currentSnapshot : Option SourceSnapshot} {fs : FileSystem} {p : Prepared}

/-- The body of the `try` block that ends without an exception.
Source: `applier.py`, `apply`, phase 2
Kind: L -/
theorem tryMutate_ok {post : SourceSnapshot} {used : PatchApprovalToken} {k : ℕ}
    {fs' : FileSystem}
    (h : tryMutate host applier io nowIso proposal token p fs = (.ok (post, used), k, fs')) :
    writeFiles io.write 0 (Prepared.writes p) fs = (none, k, fs') ∧
      token.markUsed = .ok used := by
  unfold tryMutate at h
  rcases hw : writeFiles io.write 0 (Prepared.writes p) fs with ⟨_ | err, k', fs₁⟩
  · simp only [hw] at h
    split at h
    · simp at h
    split at h
    · simp at h
    split at h
    · simp at h
    · simp_all
  · simp [hw] at h

/-- Whatever stops the `try` block, it has only made some of the writes.
Source: `applier.py`, `apply`, phase 2
Kind: L -/
theorem tryMutate_disk (host : Host) (applier : ControlledPatchApplier) (io : Io)
    (nowIso : String) (proposal : PatchProposal) (token : PatchApprovalToken) (p : Prepared)
    (fs : FileSystem) :
    (tryMutate host applier io nowIso proposal token p fs).2.2 =
      (writeFiles io.write 0 (Prepared.writes p) fs).2.2 := by
  unfold tryMutate
  rcases writeFiles io.write 0 (Prepared.writes p) fs with ⟨_ | err, k, fs₁⟩
  · grind
  · rfl

/-- A rollback that reports success puts the disk back to what the preflight has read.
Source: `applier.py`, `_rollback_transaction`
Kind: L -/
theorem rollback_success
    (hp : Passed host applier now nowIso proposal token currentSnapshot fs p) {k k' : ℕ}
    (h : (rollbackTransaction host io.write k p.backupBytes p.initialHashes
      (writeFiles io.write k' (Prepared.writes p) fs).2.2).1.1 ≠ "CRITICAL_RECOVERY_FAILURE") :
    (rollbackTransaction host io.write k p.backupBytes p.initialHashes
      (writeFiles io.write k' (Prepared.writes p) fs).2.2).2 = fs := by
  simp only [rollbackTransaction] at h ⊢
  split at h
  next hnil =>
    rw [if_pos hnil]
    set mid := (writeFiles io.write k' (Prepared.writes p) fs).2.2 with hmid
    have hresolve : (restoreFiles host io.write p.initialHashes k p.backupBytes.entries
        mid).2.resolve = fs.resolve := by
      rw [restoreFiles_resolve, hmid, writeFiles_resolve]
    have hcontent : (restoreFiles host io.write p.initialHashes k p.backupBytes.entries
        mid).2.content = fs.content := by
      funext path
      rcases hb : p.backupBytes.get? path with _ | raw
      · -- a path without a backup is neither written nor restored
        have hkey : path ∉ p.backupBytes.entries.map Prod.fst := Dict.get?_eq_none.mp hb
        rw [restoreFiles_content_ne hkey, hmid]
        refine writeFiles_content_ne fun hw => ?_
        obtain ⟨⟨q, bytes⟩, hmem, rfl⟩ := List.mem_map.mp hw
        obtain ⟨rel, hrel, rfl, -⟩ := hp.mem_writes hmem
        obtain ⟨raw, -, -, -, hback, -⟩ := hp.modified hrel
        exact absurd (hback.symm.trans hb) (by simp)
      · rw [(hp.backup hb).1]
        exact restoreFiles_content p.backupBytes.nodup hnil (Dict.mem_entries.mpr hb)
    rcases hr : (restoreFiles host io.write p.initialHashes k p.backupBytes.entries mid).2
      with ⟨resolve, content⟩
    rw [hr] at hresolve hcontent
    rcases fs with ⟨r, c⟩
    simp only at hresolve hcontent
    rw [hresolve, hcontent]
  · exact absurd rfl h

/-- The ways a call can end, each with the token handed back and the disk.
Source: `applier.py`, `apply`
Kind: D -/
inductive Ends (host : Host) (applier : ControlledPatchApplier) (io : Io) (now : ℤ)
    (nowIso : String) (proposal : PatchProposal) (token : PatchApprovalToken)
    (currentSnapshot : Option SourceSnapshot) (fs : FileSystem) :
    ApplicationStatus → PatchApprovalToken → FileSystem → Prop
  | rejected : Ends host applier io now nowIso proposal token currentSnapshot fs .rejected token fs
  | failed : Ends host applier io now nowIso proposal token currentSnapshot fs .failed token fs
  | critical (fs' : FileSystem) :
      Ends host applier io now nowIso proposal token currentSnapshot fs .criticalRecoveryFailure
        token fs'
  | applied (p : Prepared) (used : PatchApprovalToken) (k : ℕ) (fs' : FileSystem)
      (passed : Passed host applier now nowIso proposal token currentSnapshot fs p)
      (written : writeFiles io.write 0 (Prepared.writes p) fs = (none, k, fs'))
      (marked : token.markUsed = .ok used) :
      Ends host applier io now nowIso proposal token currentSnapshot fs .applied used fs'

/-- Inversion of a whole call. Source: `applier.py`, `apply`. Kind: L -/
theorem apply_cases {res : ApplicationResult} {tok : PatchApprovalToken} {fs' : FileSystem}
    (h : apply host applier io now nowIso txId proposal token currentSnapshot fs =
      (.ok (res, tok), fs')) :
    Ends host applier io now nowIso proposal token currentSnapshot fs res.status tok fs' ∧
      res.tokenId = token.tokenId := by
  unfold apply at h
  split at h
  · simp only [Prod.mk.injEq, Except.ok.injEq] at h
    obtain ⟨⟨rfl, rfl⟩, rfl⟩ := h
    exact ⟨Ends.rejected, rfl⟩
  · simp at h
  next p hpre =>
    have hp := preflight_ok hpre
    unfold mutate at h
    rcases ht : tryMutate host applier io nowIso proposal token p fs with ⟨err | ⟨post, used⟩, k, fs₁⟩
    · simp only [ht, Prod.mk.injEq, Except.ok.injEq] at h
      obtain ⟨⟨rfl, rfl⟩, rfl⟩ := h
      have hdisk : fs₁ = (writeFiles io.write 0 (Prepared.writes p) fs).2.2 := by
        rw [← tryMutate_disk host applier io nowIso proposal token, ht]
      refine ⟨?_, rfl⟩
      dsimp only
      split
      · exact Ends.critical _
      next hcrit =>
        rw [hdisk] at hcrit ⊢
        rw [rollback_success hp hcrit]
        exact Ends.failed
    · simp only [ht, Prod.mk.injEq, Except.ok.injEq] at h
      obtain ⟨⟨rfl, rfl⟩, rfl⟩ := h
      obtain ⟨hw, hm⟩ := tryMutate_ok ht
      exact ⟨Ends.applied p used k _ hp hw hm, rfl⟩

/-- **What an application writes.** After `APPLIED`, a target file that shares its path with no other
one holds its old text with its hunks applied, each of which matched once.
Source: `applier.py`, `apply`, phases 1 and 2
Kind: P -/
theorem applied_content {k : ℕ} {fs' : FileSystem}
    (hp : Passed host applier now nowIso proposal token currentSnapshot fs p)
    (hw : writeFiles io.write 0 (Prepared.writes p) fs = (none, k, fs')) {rel : String}
    (hrel : rel ∈ proposal.targetFiles)
    (hpath : ∀ r ∈ proposal.targetFiles, targetPath fs r = targetPath fs rel → r = rel) :
    ∃ text, fs.content (targetPath fs rel) = some (encodeUtf8 text) ∧
      MatchedOnce (hunksOf rel proposal.hunks) text ∧
      fs'.content (targetPath fs rel) =
        some (encodeUtf8 (patchText (hunksOf rel proposal.hunks) text)) := by
  obtain ⟨raw, text, hraw, htext, -, hmod, honce⟩ := hp.modified hrel
  refine ⟨text, ?_, honce, ?_⟩
  · rw [hraw, encodeUtf8_of_decodeUtf8 htext]
  · rw [writeFiles_content hw]
    apply lastWrite_of_forall
    · intro bytes hb
      obtain ⟨r, hr, hpr, t, ht, rfl⟩ := hp.mem_writes hb
      obtain rfl := hpath r hr hpr.symm
      rw [hmod] at ht
      cases ht
      rfl
    · refine Or.inr (List.mem_map.mpr ⟨(rel, _), Dict.mem_entries.mpr hmod, ?_⟩)
      rw [Dict.getD, hp.get?_targetPaths, if_pos hrel, Option.getD_some]

end call

/-! ## A valid approval of one file goes through -/

section liveness

variable {host : Host} {applier : ControlledPatchApplier} {io : Io} {now : ℤ}
  {nowIso txId : String} {proposal : PatchProposal} {token : PatchApprovalToken}
  {currentSnapshot : Option SourceSnapshot} {fs : FileSystem} {rel : String}

/-- The dictionary with one entry. Kind: D -/
def single {κ ν : Type} (k : κ) (v : ν) : Dict κ ν := ⟨[(k, v)], by simp⟩

@[simp] theorem set_empty {κ ν : Type} [DecidableEq κ] (k : κ) (v : ν) :
    (Dict.empty : Dict κ ν).set k v = single k v := rfl

@[simp] theorem set_single {κ ν : Type} [DecidableEq κ] (k : κ) (v w : ν) :
    (single k v).set k w = single k w := by
  apply Dict.ext
  simp [single, Dict.set, Dict.insertEntry]

@[simp] theorem getD_single {κ ν : Type} [DecidableEq κ] (k : κ) (v w : ν) :
    (single k v).getD k w = v := by
  simp [single, Dict.getD, Dict.get?, Dict.lookup]

/-- Hunks that match once in their only file pass. Kind: L -/
theorem matchHunks_single (pre : String) : (k : ℕ) → {hunks : List PatchHunk} → {text : Text} →
    (∀ h ∈ hunks, h.filePath = rel) → MatchedOnce hunks text →
      matchHunks pre k hunks (single rel text) = .ok (single rel (patchText hunks text))
  | _, [], _, _, _ => rfl
  | k, hunk :: rest, text, hfile, honce => by
    obtain ⟨hone, hrest⟩ := honce
    have hf : hunk.filePath = rel := hfile hunk List.mem_cons_self
    have ih := matchHunks_single pre (k + 1)
      (fun h hh => hfile h (List.mem_cons_of_mem _ hh)) hrest
    simp [matchHunks, hf, hone, patchText, ih]

/-- **A valid approval of one file goes through.** If the token passes its checks, the only target
file lies in the repository and holds a text in which every hunk matches once, and no write fails,
then the call ends `APPLIED` and that file holds the patched text.
Source: `applier.py`, `apply`
Kind: P -/
theorem apply_single {snap : SourceSnapshot} {text : Text}
    (htarget : proposal.targetFiles = [rel]) (hfile : ∀ h ∈ proposal.hunks, h.filePath = rel)
    (hsnap : takeSnapshot host applier nowIso proposal token currentSnapshot fs = .ok snap)
    (htoken : checkToken host applier now proposal token snap = .ok ())
    (hpath : isRelativeTo applier.repositoryRoot (targetPath fs rel) = true)
    (hcontent : fs.content (targetPath fs rel) = some (encodeUtf8 text))
    (honce : MatchedOnce proposal.hunks text)
    (hwrite : ∀ k, io.write k = .written) (hpost : io.postSnapshot = none) :
    ∃ res, apply host applier io now nowIso txId proposal token currentSnapshot fs =
        (.ok (res, { token with status := .used }),
          fs.put (targetPath fs rel) (some (encodeUtf8 (patchText proposal.hunks text)))) ∧
      res.status = .applied ∧ res.targetFiles = proposal.targetFiles ∧
      res.tokenId = token.tokenId := by
  have hunused := (takeSnapshot_ok hsnap).1
  have hallow : checkAllowlist snap.aggregateHash proposal = .ok () := by grind [checkAllowlist]
  have hresolve : applier.resolveTargets fs snap.aggregateHash proposal.targetFiles Dict.empty =
      .ok (single rel (targetPath fs rel)) := by
    rw [htarget, resolveTargets, validatePathSafety]
    unfold targetPath at hpath ⊢
    simp [hpath, resolveTargets]
  have hread : readTargets host fs snap.aggregateHash (single rel (targetPath fs rel)).entries
      ⟨Dict.empty, Dict.empty, Dict.empty⟩ =
      .ok ⟨single rel text, single (targetPath fs rel) (encodeUtf8 text),
        single (targetPath fs rel) (host.sha256 (encodeUtf8 text))⟩ := by
    simp [single, readTargets, hcontent]
  have hmatch := matchHunks_single snap.aggregateHash 0 hfile honce
  have hpre : preflight host applier now nowIso proposal token currentSnapshot fs =
      .ok ⟨snap, single rel (targetPath fs rel), single (targetPath fs rel) (encodeUtf8 text),
        single (targetPath fs rel) (host.sha256 (encodeUtf8 text)),
        single rel (patchText proposal.hunks text)⟩ := by
    unfold preflight
    rw [hsnap]
    simp only [bind, Except.bind, htoken, hallow, hresolve, hread, hmatch]
    rfl
  set fs' := fs.put (targetPath fs rel) (some (encodeUtf8 (patchText proposal.hunks text)))
    with hfs'
  have hpost' : ∃ post, SourceSnapshot.capture host applier.repositoryRoot fs'
      proposal.targetFiles nowIso = .ok post := by
    unfold SourceSnapshot.capture
    unfold targetPath at hpath hfs'
    simp [htarget, SourceSnapshot.captureFile, hpath, hfs']
  obtain ⟨post, hcapture⟩ := hpost'
  have hw : writeFiles io.write 0 (Prepared.writes ⟨snap, single rel (targetPath fs rel),
      single (targetPath fs rel) (encodeUtf8 text),
      single (targetPath fs rel) (host.sha256 (encodeUtf8 text)),
      single rel (patchText proposal.hunks text)⟩) fs = (none, 1, fs') := by
    simp [Prepared.writes, single, writeFiles, hwrite, FileSystem.writeBytes, Dict.getD, Dict.get?,
      Dict.lookup, hfs']
  unfold apply
  rw [hpre]
  simp [mutate, tryMutate, hw, hpost, hcapture, PatchApprovalToken.markUsed, hunused]

/-- The approval of a proposal for the files as a snapshot has them, without expiry.
Source: `approval.py`, `PatchApprovalToken.create`
Kind: D -/
def approve (host : Host) (applier : ControlledPatchApplier) (proposal : PatchProposal)
    (snap : SourceSnapshot) (approvedBy tokenId approvedAt : String) : PatchApprovalToken :=
  PatchApprovalToken.create host proposal.findingId proposal.proposalFingerprint
    snap.aggregateHash proposal.targetFiles applier.repositoryRoot approvedBy none "" tokenId
    approvedAt

/-- An approval of the files as they stand goes through. Source: `applier.py`, `apply`. Kind: L -/
theorem apply_approve {snap : SourceSnapshot} {approvedBy tokenId approvedAt : String}
    {text : Text}
    (hsnap : SourceSnapshot.capture host applier.repositoryRoot fs proposal.targetFiles nowIso =
      .ok snap)
    (htoken : token = approve host applier proposal snap approvedBy tokenId approvedAt)
    (htarget : proposal.targetFiles = [rel]) (hfile : ∀ h ∈ proposal.hunks, h.filePath = rel)
    (hpath : isRelativeTo applier.repositoryRoot (targetPath fs rel) = true)
    (hcontent : fs.content (targetPath fs rel) = some (encodeUtf8 text))
    (honce : MatchedOnce proposal.hunks text)
    (hwrite : ∀ k, io.write k = .written) (hpost : io.postSnapshot = none) :
    ∃ res, apply host applier io now nowIso txId proposal token none fs =
        (.ok (res, { token with status := .used }),
          fs.put (targetPath fs rel) (some (encodeUtf8 (patchText proposal.hunks text)))) ∧
      res.status = .applied ∧ res.targetFiles = proposal.targetFiles ∧
      res.tokenId = token.tokenId := by
  subst htoken
  have htaken : takeSnapshot host applier nowIso proposal
      (approve host applier proposal snap approvedBy tokenId approvedAt) none fs = .ok snap := by
    simp [takeSnapshot, approve, PatchApprovalToken.create, hsnap]
  have hchecked : checkToken host applier now proposal
      (approve host applier proposal snap approvedBy tokenId approvedAt) snap = .ok () := by
    simp [checkToken, approve, PatchApprovalToken.verifyValid_create]
  exact apply_single htarget hfile htaken hchecked hpath hcontent honce hwrite hpost

end liveness

/-! ## A repository with one file

The disk, the approval and the call that concrete sessions are built from. -/

section sample

/-- A digest without collisions: the bytes themselves. Kind: D -/
def sampleHost : Host :=
  ⟨fun b => String.ofList (b.data.toList.map fun x => Char.ofNat x.toNat), fun _ => none⟩

/-- The digest of the example repository has no collisions. Kind: L -/
theorem sampleHost_injective : Function.Injective sampleHost.sha256 := by
  intro b c h
  have hbyte : ∀ x : UInt8, (Char.ofNat x.toNat).toNat = x.toNat := by
    intro x
    have hvalid : x.toNat.isValidChar := Or.inl (by have := x.toNat_lt; omega)
    unfold Char.ofNat
    rw [dif_pos hvalid]
    rfl
  have hlist : b.data.toList.map (fun x => Char.ofNat x.toNat) =
      c.data.toList.map (fun x => Char.ofNat x.toNat) := by
    simpa [sampleHost] using congrArg String.toList h
  have hinj : Function.Injective (fun x : UInt8 => Char.ofNat x.toNat) := by
    intro x y hxy
    have := congrArg Char.toNat hxy
    simp only [hbyte] at this
    exact UInt8.toNat_inj.mp this
  exact ByteArray.ext (Array.toList_inj.mp (List.map_injective_iff.mpr hinj hlist))

/-- The applier of the repository. Kind: D -/
def sampleApplier : ControlledPatchApplier := ⟨"/repo"⟩

/-- Input and output that never fails. Kind: D -/
def sampleIo : Io := ⟨fun _ => .written, none⟩

/-- The disk with the given text in `a.php`. Kind: D -/
def sampleDisk (text : Text) : FileSystem :=
  ⟨fun rel => "/repo/" ++ rel,
    fun p => if p = "/repo/a.php" then some (encodeUtf8 text) else none⟩

/-- A hunk of `a.php`. Kind: D -/
def sampleHunk (original proposed : String) : PatchHunk :=
  ⟨"a.php", 1, 1, original.toList, proposed.toList, [], ""⟩

/-- A proposal for `a.php`. Kind: D -/
def sampleProposal (hunks : List PatchHunk) (unifiedDiff : Text) : PatchProposal where
  proposalId := "proposal"
  findingId := "finding"
  targetFiles := ["a.php"]
  hunks := hunks
  unifiedDiff := unifiedDiff
  rationale := ""
  rootCauseReference := ""
  evidenceReferences := []
  expectedEffect := ""
  riskLevel := ""
  assumptions := []
  validationStatus := .valid
  proposalFingerprint := PatchProposal.computeFingerprint sampleHost.sha256 "finding" ["a.php"]
    unifiedDiff .valid

/-- The approval of a proposal while `a.php` holds `text`. Kind: D -/
def sampleApproval (proposal : PatchProposal) (text : Text) : PatchApprovalToken :=
  approve sampleHost sampleApplier proposal
    ⟨"/repo", [⟨"a.php", (encodeUtf8 text).size, sampleHost.sha256 (encodeUtf8 text), true⟩],
      SourceSnapshot.computeAggregateHash sampleHost
        [⟨"a.php", (encodeUtf8 text).size, sampleHost.sha256 (encodeUtf8 text), true⟩], ""⟩
    "reviewer" "token" ""

theorem sampleDisk_content (text : Text) :
    (sampleDisk text).content "/repo/a.php" = some (encodeUtf8 text) := by
  simp [sampleDisk]

theorem targetPath_sampleDisk (text : Text) :
    targetPath (sampleDisk text) "a.php" = "/repo/a.php" := by
  have hnorm : normSlashes "a.php" = "a.php" := by decide
  simp [targetPath, sampleDisk, hnorm]

/-- In the repository with one file, the approval of hunks that match once goes through.
Kind: L -/
theorem sample_applied (proposal : PatchProposal) (text : Text)
    (htarget : proposal.targetFiles = ["a.php"])
    (hfile : ∀ h ∈ proposal.hunks, h.filePath = "a.php") (honce : MatchedOnce proposal.hunks text) :
    ∃ res, apply sampleHost sampleApplier sampleIo 0 "" "tx" proposal
        (sampleApproval proposal text) none (sampleDisk text) =
        (.ok (res, { sampleApproval proposal text with status := .used }),
          (sampleDisk text).put "/repo/a.php"
            (some (encodeUtf8 (patchText proposal.hunks text)))) ∧
      res.status = .applied ∧ res.targetFiles = proposal.targetFiles ∧ res.tokenId = "token" := by
  have hpath : isRelativeTo "/repo" "/repo/a.php" = true := by decide
  have hnorm : normSlashes "a.php" = "a.php" := by decide
  have hsnap : SourceSnapshot.capture sampleHost sampleApplier.repositoryRoot (sampleDisk text)
      proposal.targetFiles "" =
      .ok ⟨"/repo", [⟨"a.php", (encodeUtf8 text).size, sampleHost.sha256 (encodeUtf8 text), true⟩],
        SourceSnapshot.computeAggregateHash sampleHost
          [⟨"a.php", (encodeUtf8 text).size, sampleHost.sha256 (encodeUtf8 text), true⟩], ""⟩ := by
    rw [htarget]
    simp [SourceSnapshot.capture, SourceSnapshot.captureFile, sampleDisk, hnorm, hpath,
      sampleApplier]
  rw [← targetPath_sampleDisk text]
  refine apply_approve hsnap rfl htarget hfile ?_ ?_ honce (fun _ => rfl) rfl
  · rw [targetPath_sampleDisk]
    exact hpath
  · rw [targetPath_sampleDisk]
    exact sampleDisk_content text

end sample

end ControlledPatchApplier


end KarsaSec.Remediation
