import Guangyang.Ossstore
import Guangyang.Handlers
/-!
# Upload — the intake's upload stage and the files it leaves on disk

`Service.handleCreateJob` streams the multipart body to disk.  Each part named `file1` or `file2` is saved
by `saveUploadTo` as `file1_<name>` or `file2_<name>` in the job's directory
`<TMP_ROOT>/compare_jobs/<jobID>`, where `<name>` is the `filepath.Base` of the client's file name
(`safeBaseNameFromName`).  Once both are saved, `PutFileFromPath` copies each to OSS, and the local files
and the job directory are removed.

The pod's disk is modelled as the list of its files (`Files`): a save adds its path, `os.Remove` and
`os.RemoveAll` drop paths, and a read opens a file only if its path is there.

- An accepted upload records the last `file1` and the last `file2` part, whatever else the body holds
  (`uploadInputs_records_last_parts`).
- The intake creates files only inside its job directory, and removes none outside it
  (`uploadInputs_files_in_jobDir`); an accepted upload leaves nothing inside it
  (`uploadInputs_accepted_cleans_up`).
- A refusal after the parts were saved removes nothing: the saved uploads stay on disk
  (`uploadInputs_refused_keeps_upload`).
- `PutFileFromPath` opens the trimmed local path, and `saveUploadTo` wrote the untrimmed one.  When every
  `file1` name ends in white space, no file is at the path the upload opens, and the request is never
  accepted (`uploadInputs_trailing_space`).
-/
namespace Guangyang.Upload

open Ossstore

/-! ## The local disk -/

/-- The regular files on a pod's disk, by path.  Only membership is ever read. -/
abbrev Files := List String

/-- `p` lies inside the directory `dir`, at any depth. -/
def inDir (dir p : String) : Bool := (dir.data ++ ['/']).isPrefixOf p.data

/-- `os.Remove(p)`. -/
def remove (fs : Files) (p : String) : Files := fs.filter (· != p)

/-- `os.RemoveAll(dir)`: the directory and everything inside it. -/
def removeAll (fs : Files) (dir : String) : Files := fs.filter fun p => p != dir && !inDir dir p

/-- `readEnvDefault`: the trimmed variable, or the default when it is blank. -/
def readEnvDefault (getenv : String → String) (key defaultVal : String) : String :=
  if trimSpace (getenv key) = "" then defaultVal else trimSpace (getenv key)

/-- `filepath.Join(tmpRoot, "compare_jobs", jobID)`: a job's directory, on the intake and on the worker. -/
def jobDir (tmpRoot jobID : String) : String := pathJoin [tmpRoot, "compare_jobs", jobID]

/-! ## Saving the parts -/

/-- `compare.safeBaseNameFromName`: `upload.xlsx` for a blank name, else its `filepath.Base`. -/
def safeBaseNameFromName (name : String) : String :=
  if trimSpace name = "" then "upload.xlsx" else pathBase name

/-- How an `os.Create` and the `io.Copy` into it end. -/
inductive WriteIO
  | ok
  /-- `os.Create` failed: no file. -/
  | createFailed (e : String)
  /-- The copy failed after `os.Create`: the file is there, cut short. -/
  | copyFailed (e : String)

/-- `compare.saveUploadTo`: the part is copied to `filepath.Join(dir, name)`. -/
def saveUploadTo (fs : Files) (dir name : String) (io : WriteIO) : Except String String × Files :=
  if dir = "" ∨ name = "" then (.error "invalid path", fs)
  else
    let dstPath := pathJoin [dir, name]
    match io with
    | .ok => (.ok dstPath, dstPath :: fs)
    | .createFailed e => (.error e, fs)
    | .copyFailed e => (.error e, dstPath :: fs)

/-- What `multipart.Reader.NextPart` returns, until `io.EOF` (the end of the list). -/
inductive NextPart
  | err
  | nil
  /-- A part with its `FormName()` and `FileName()`, and how saving it goes. -/
  | part (formName fileName : String) (io : WriteIO)

/-- The loop's variables `file1Path`, `file2Path`, `file1Name`, `file2Name`. -/
structure Uploads where
  file1Path : String
  file2Path : String
  file1Name : String
  file2Name : String

/-- The part loop of `handleCreateJob`.  A part with another form name is drained and skipped. -/
def saveParts (jobDir : String) : Uploads → Files → List NextPart → Except IntakeRefusal Uploads × Files
  | u, fs, [] => (.ok u, fs)
  | _, fs, .err :: _ => (.error .invalidMultipartStream, fs)
  | u, fs, .nil :: ps => saveParts jobDir u fs ps
  | u, fs, .part formName fileName io :: ps =>
    let name := trimSpace formName
    if name ≠ "file1" ∧ name ≠ "file2" then saveParts jobDir u fs ps
    else
      let fn := safeBaseNameFromName fileName
      let pfx := if name = "file2" then "file2_" else "file1_"
      match saveUploadTo fs jobDir (pfx ++ fn) io with
      | (.error _, fs) => (.error (.saveFailed name), fs)
      | (.ok dst, fs) =>
        saveParts jobDir
          (if name = "file1" then { u with file1Path := dst, file1Name := fn }
            else { u with file2Path := dst, file2Name := fn }) fs ps

/-! ## The upload to OSS -/

/-- `ossstore.Store.PutFileFromPath`: the key loses its white space and leading slashes, the local path
its white space, and the upload opens the file at that path (`os.Open`'s error when it is not there). -/
def putFileFromPath (enabled : Bool) (cred : Except String Unit) (fs : Files) (objectKey localPath : String)
    (put : Except String Unit) : Except String Unit :=
  if enabled = false then .error "oss not enabled" else
  match cred with
  | .error e => .error e
  | .ok () =>
    if objectName objectKey = "" ∨ trimSpace localPath = "" then .error "invalid objectKey/localPath"
    else if trimSpace localPath ∉ fs then .error ("open " ++ trimSpace localPath ++ ": no such file or directory")
    else put

/-- What one intake request meets outside the job store. -/
structure UploadEnv where
  /-- `r.MultipartReader()` succeeds. -/
  multipart : Bool
  /-- `os.MkdirAll(jobDir)` succeeds. -/
  mkdir : Bool
  /-- The parts of the body. -/
  parts : List NextPart
  /-- `s.oss != nil && s.oss.Enabled()`. -/
  ossEnabled : Bool
  /-- `ensureCred` and the upload of the first input, once its file opens. -/
  cred1 : Except String Unit
  put1 : Except String Unit
  /-- The same for the second input. -/
  cred2 : Except String Unit
  put2 : Except String Unit

/-- `handleCreateJob` up to `Create`: the method, the body's parts, and the two OSS copies.  It gives the
refusal, or the keys and names of the record, and the files it leaves. -/
def uploadInputs (method tmpRoot inputPfx jobID : String) (env : UploadEnv) (fs : Files) :
    Except IntakeRefusal (String × String × String × String) × Files :=
  if method = "OPTIONS" then (.error .options, fs)
  else if method ≠ "POST" then (.error .methodNotAllowed, fs)
  else if env.multipart = false then (.error .invalidMultipartForm, fs)
  else if env.mkdir = false then (.error .jobDir, fs)
  else
    match saveParts (jobDir tmpRoot jobID) ⟨"", "", "", ""⟩ fs env.parts with
    | (.error r, fs) => (.error r, fs)
    | (.ok u, fs) =>
      if u.file1Path = "" ∨ u.file2Path = "" then (.error .missingFile, fs)
      else if env.ossEnabled = false then (.error .ossDisabled, fs)
      else
        let key1 := objectKeyForInput inputPfx jobID "file1" u.file1Name
        let key2 := objectKeyForInput inputPfx jobID "file2" u.file2Name
        match putFileFromPath true env.cred1 fs key1 u.file1Path env.put1 with
        | .error e => (.error (.uploadFailed e), fs)
        | .ok () =>
          match putFileFromPath true env.cred2 fs key2 u.file2Path env.put2 with
          | .error e => (.error (.uploadFailed e), fs)
          | .ok () =>
            (.ok (key1, key2, u.file1Name, u.file2Name),
              removeAll (remove (remove fs u.file1Path) u.file2Path) (jobDir tmpRoot jobID))

/-- `Service.handleCreateJob`: the upload stage, then the record and the reply of `handleCreateJob`. -/
def serveCreateJob (method tmpRoot inputPfx jobID : String) (env : UploadEnv) (enqueue : Except String Unit)
    (fs : Files) : Prog Reply × Files :=
  match uploadInputs method tmpRoot inputPfx jobID env fs with
  | (.error r, fs) => (handleCreateJob jobID "" "" "" "" ⟨some r, enqueue⟩, fs)
  | (.ok (key1, key2, name1, name2), fs) => (handleCreateJob jobID key1 key2 name1 name2 ⟨none, enqueue⟩, fs)

/-! ## The loop -/

/-- Where the loop saves a part with these names: `file2_<base>` for `file2`, else `file1_<base>`. -/
def savedPath (jobDir formName fileName : String) : String :=
  pathJoin [jobDir, (if trimSpace formName = "file2" then "file2_" else "file1_") ++ safeBaseNameFromName fileName]

/-- The file name of the last part whose trimmed form name is `w`. -/
def lastFileName (w : String) : List NextPart → Option String
  | [] => none
  | .err :: ps => lastFileName w ps
  | .nil :: ps => lastFileName w ps
  | .part formName fileName _ :: ps =>
    (lastFileName w ps).or (if trimSpace formName = w then some fileName else none)

/-- Slot `w` of the loop's variables: the path and name of `file1`, else of `file2`. -/
def Uploads.slot (u : Uploads) (w : String) : String × String :=
  if w = "file1" then (u.file1Path, u.file1Name) else (u.file2Path, u.file2Name)

@[simp] theorem Uploads.slot_file1 (u : Uploads) : u.slot "file1" = (u.file1Path, u.file1Name) := if_pos rfl

@[simp] theorem Uploads.slot_file2 (u : Uploads) : u.slot "file2" = (u.file2Path, u.file2Name) :=
  if_neg (by decide)

/-- What slot `w` should hold after the parts `ps`: the last part named `w`, where the loop saves it, or
what it held before. -/
def lastSaved (jobDir w : String) (ps : List NextPart) (old : String × String) : String × String :=
  match lastFileName w ps with
  | some n => (savedPath jobDir w n, safeBaseNameFromName n)
  | none => old

theorem saveUploadTo_files (fs : Files) (dir name : String) (io : WriteIO) :
    (∀ q ∈ fs, q ∈ (saveUploadTo fs dir name io).2) ∧
      ∀ q ∈ (saveUploadTo fs dir name io).2, q ∈ fs ∨ q = pathJoin [dir, name] := by
  unfold saveUploadTo
  split
  · exact ⟨fun _ h => h, fun _ h => .inl h⟩
  · cases io <;> simp +contextual [or_comm]

theorem saveUploadTo_ok {fs fs' : Files} {dir name dst : String} {io : WriteIO}
    (h : saveUploadTo fs dir name io = (.ok dst, fs')) : dst = pathJoin [dir, name] ∧ fs' = dst :: fs := by
  unfold saveUploadTo at h
  split at h
  · cases h
  · cases io <;> simp at h
    exact ⟨h.1.symm, h.2.symm ▸ h.1 ▸ rfl⟩

theorem slot_update (u : Uploads) {name w : String} (hn : name = "file1" ∨ name = "file2")
    (hw : w = "file1" ∨ w = "file2") (dst fn : String) :
    (if name = "file1" then { u with file1Path := dst, file1Name := fn }
      else { u with file2Path := dst, file2Name := fn }).slot w = if name = w then (dst, fn) else u.slot w := by
  rcases hn with rfl | rfl <;> rcases hw with rfl | rfl <;> rfl

theorem savedPath_of_trim {jobDir formName w : String} (hf : trimSpace formName = w) (fileName : String) :
    savedPath jobDir formName fileName = savedPath jobDir w fileName := by
  rw [savedPath, savedPath, ← hf, trimSpace_trimSpace]

/-- **The loop keeps every file, and adds only the saved parts named `file1` or `file2`.** -/
theorem saveParts_files (jobDir : String) : ∀ (u : Uploads) (fs : Files) (ps : List NextPart),
    (∀ q ∈ fs, q ∈ (saveParts jobDir u fs ps).2) ∧
      ∀ q ∈ (saveParts jobDir u fs ps).2, q ∈ fs ∨ ∃ f n io, NextPart.part f n io ∈ ps ∧
        (trimSpace f = "file1" ∨ trimSpace f = "file2") ∧ q = savedPath jobDir f n
  | _, _, [] => ⟨fun _ h => h, fun _ h => .inl h⟩
  | _, _, .err :: _ => ⟨fun _ h => h, fun _ h => .inl h⟩
  | u, fs, .nil :: ps => by
    obtain ⟨ih1, ih2⟩ := saveParts_files jobDir u fs ps
    exact ⟨ih1, fun q hq => (ih2 q hq).imp_right fun ⟨f, n, io, hm, h⟩ => ⟨f, n, io, .tail _ hm, h⟩⟩
  | u, fs, .part formName fileName io :: ps => by
    have hs := saveUploadTo_files fs jobDir
      ((if trimSpace formName = "file2" then "file2_" else "file1_") ++ safeBaseNameFromName fileName) io
    have hsel : ∀ q, q = savedPath jobDir formName fileName → (trimSpace formName = "file1" ∨
        trimSpace formName = "file2") → ∃ f n io', NextPart.part f n io' ∈ .part formName fileName io :: ps ∧
        (trimSpace f = "file1" ∨ trimSpace f = "file2") ∧ q = savedPath jobDir f n :=
      fun q hq hn => ⟨formName, fileName, io, .head _, hn, hq⟩
    have htail : ∀ q, (∃ f n io', NextPart.part f n io' ∈ ps ∧ (trimSpace f = "file1" ∨ trimSpace f = "file2") ∧
        q = savedPath jobDir f n) → ∃ f n io', NextPart.part f n io' ∈ .part formName fileName io :: ps ∧
        (trimSpace f = "file1" ∨ trimSpace f = "file2") ∧ q = savedPath jobDir f n :=
      fun q ⟨f, n, io', hm, h⟩ => ⟨f, n, io', .tail _ hm, h⟩
    simp only [saveParts]
    split
    · obtain ⟨ih1, ih2⟩ := saveParts_files jobDir u fs ps
      exact ⟨ih1, fun q hq => (ih2 q hq).imp_right (htail q)⟩
    · rename_i hname
      have hn : trimSpace formName = "file1" ∨ trimSpace formName = "file2" := by
        by_contra hc; exact hname (not_or.1 hc)
      split
      · rename_i heq
        rw [heq] at hs
        exact ⟨hs.1, fun q hq => (hs.2 q hq).imp_right fun h => hsel q h hn⟩
      · rename_i dst fs' heq
        rw [heq] at hs
        obtain ⟨ih1, ih2⟩ := saveParts_files jobDir _ fs' ps
        refine ⟨fun q hq => ih1 q (hs.1 q hq), fun q hq => ?_⟩
        rcases ih2 q hq with h | h
        · exact (hs.2 q h).imp_right fun h => hsel q h hn
        · exact .inr (htail q h)

theorem saveParts_mono {jobDir : String} {u : Uploads} {fs fs' : Files} {ps : List NextPart}
    {r : Except IntakeRefusal Uploads} (h : saveParts jobDir u fs ps = (r, fs')) : ∀ q ∈ fs, q ∈ fs' := by
  have := (saveParts_files jobDir u fs ps).1
  rwa [h] at this

/-- **The loop keeps the last part of each slot**, where the loop saves it, and its file is on disk. -/
theorem saveParts_slot {jobDir w : String} (hw : w = "file1" ∨ w = "file2") :
    ∀ (u : Uploads) (fs : Files) (ps : List NextPart) {u' : Uploads} {fs' : Files},
      saveParts jobDir u fs ps = (.ok u', fs') →
      u'.slot w = lastSaved jobDir w ps (u.slot w) ∧ ∀ n, lastFileName w ps = some n → savedPath jobDir w n ∈ fs'
  | _, _, [], _, _, h => by
    cases h
    exact ⟨rfl, fun _ h => nomatch h⟩
  | _, _, .err :: _, _, _, h => nomatch h
  | u, fs, .nil :: ps, _, _, h => saveParts_slot hw u fs ps h
  | u, fs, .part formName fileName io :: ps, u', fs', h => by
    simp only [saveParts] at h
    split at h
    · rename_i hname
      have hne : trimSpace formName ≠ w := fun e => by rcases hw with rfl | rfl <;> simp_all
      obtain ⟨ih1, ih2⟩ := saveParts_slot hw u fs ps h
      simp only [lastSaved, lastFileName, if_neg hne, Option.or_none] at ih1 ih2 ⊢
      exact ⟨ih1, ih2⟩
    · rename_i hname
      have hn : trimSpace formName = "file1" ∨ trimSpace formName = "file2" := by
        by_contra hc; exact hname (not_or.1 hc)
      split at h
      · nomatch h
      · rename_i dst fs₁ heq
        obtain ⟨hdst, hfs₁⟩ := saveUploadTo_ok heq
        obtain ⟨ih1, ih2⟩ := saveParts_slot hw _ fs₁ ps h
        rw [slot_update u hn hw] at ih1
        have hmem : dst ∈ fs' := saveParts_mono h dst (hfs₁ ▸ List.mem_cons_self _ _)
        cases hl : lastFileName w ps with
        | some m =>
          simp only [lastSaved, lastFileName, hl, Option.or_some] at ih1 ih2 ⊢
          exact ⟨ih1, ih2⟩
        | none =>
          simp only [lastSaved, lastFileName, hl, Option.none_or] at ih1 ⊢
          by_cases hf : trimSpace formName = w
          · have hd : dst = savedPath jobDir w fileName := hdst.trans (savedPath_of_trim hf fileName)
            simp only [hf, if_true] at ih1 ⊢
            exact ⟨ih1.trans (by rw [hd]), fun n hn' => by cases hn'; rw [← hd]; exact hmem⟩
          · simp only [hf, if_false] at ih1 ⊢
            exact ⟨ih1, fun n hn' => nomatch hn'⟩

theorem saveParts_slot_of_ne {jobDir w : String} (hw : w = "file1" ∨ w = "file2") {fs fs' : Files}
    {ps : List NextPart} {u : Uploads} (h : saveParts jobDir ⟨"", "", "", ""⟩ fs ps = (.ok u, fs'))
    (hne : (u.slot w).1 ≠ "") :
    ∃ n, lastFileName w ps = some n ∧ (u.slot w).1 = savedPath jobDir w n ∧
      (u.slot w).2 = safeBaseNameFromName n ∧ savedPath jobDir w n ∈ fs' := by
  obtain ⟨h1, h2⟩ := saveParts_slot hw _ _ _ h
  cases hl : lastFileName w ps with
  | none =>
    simp only [lastSaved, hl] at h1
    exact absurd (by rw [h1]; rcases hw with rfl | rfl <;> rfl) hne
  | some n =>
    simp only [lastSaved, hl] at h1
    exact ⟨n, rfl, by simp only [h1], by simp only [h1], h2 n hl⟩

/-! ## The intake's ends -/

/-- An accepted upload: the loop ended with both slots set, both copies went through, and the files left
are the loop's, less the two uploads and the job directory. -/
theorem uploadInputs_of_ok {method tmpRoot inputPfx jobID : String} {env : UploadEnv} {fs fs' : Files}
    {x : String × String × String × String} (h : uploadInputs method tmpRoot inputPfx jobID env fs = (.ok x, fs')) :
    ∃ u fs₁, saveParts (jobDir tmpRoot jobID) ⟨"", "", "", ""⟩ fs env.parts = (.ok u, fs₁) ∧
      u.file1Path ≠ "" ∧ u.file2Path ≠ "" ∧
      putFileFromPath true env.cred1 fs₁ (objectKeyForInput inputPfx jobID "file1" u.file1Name) u.file1Path
        env.put1 = .ok () ∧
      x = (objectKeyForInput inputPfx jobID "file1" u.file1Name, objectKeyForInput inputPfx jobID "file2" u.file2Name,
        u.file1Name, u.file2Name) ∧
      fs' = removeAll (remove (remove fs₁ u.file1Path) u.file2Path) (jobDir tmpRoot jobID) := by
  unfold uploadInputs at h
  by_cases h1 : method = "OPTIONS"
  · rw [if_pos h1] at h; cases h
  rw [if_neg h1] at h
  by_cases h2 : method ≠ "POST"
  · rw [if_pos h2] at h; cases h
  rw [if_neg h2] at h
  by_cases h3 : env.multipart = false
  · rw [if_pos h3] at h; cases h
  rw [if_neg h3] at h
  by_cases h4 : env.mkdir = false
  · rw [if_pos h4] at h; cases h
  rw [if_neg h4] at h
  split at h
  · cases h
  rename_i u fs₁ hs
  split_ifs at h with h5 h6
  · cases h
  · cases h
  dsimp only at h
  split at h
  · cases h
  rename_i hp1
  split at h
  · cases h
  cases h
  exact ⟨u, fs₁, hs, (not_or.1 h5).1, (not_or.1 h5).2, hp1, rfl, rfl⟩

/-- The loop refuses only for a stream error or a failed save. -/
theorem saveParts_error {jobDir : String} : ∀ (u : Uploads) (fs : Files) (ps : List NextPart)
    {r : IntakeRefusal} {fs' : Files}, saveParts jobDir u fs ps = (.error r, fs') →
      r = .invalidMultipartStream ∨ ∃ name, r = .saveFailed name
  | _, _, [], _, _, h => nomatch h
  | _, _, .err :: _, _, _, h => by cases h; exact .inl rfl
  | u, fs, .nil :: ps, _, _, h => saveParts_error u fs ps h
  | u, fs, .part _ _ _ :: ps, _, _, h => by
    simp only [saveParts] at h
    split at h
    · exact saveParts_error u fs ps h
    · split at h
      · cases h; exact .inr ⟨_, rfl⟩
      · exact saveParts_error _ _ ps h

/-- A refused upload: before the loop the disk is untouched, and from the loop on it is what the loop
left; a refusal after the loop comes after a loop that went through. -/
theorem uploadInputs_of_error {method tmpRoot inputPfx jobID : String} {env : UploadEnv} {fs fs' : Files}
    {r : IntakeRefusal} (h : uploadInputs method tmpRoot inputPfx jobID env fs = (.error r, fs')) :
    (fs' = fs ∧ (r = .options ∨ r = .methodNotAllowed ∨ r = .invalidMultipartForm ∨ r = .jobDir)) ∨
      ∃ r', saveParts (jobDir tmpRoot jobID) ⟨"", "", "", ""⟩ fs env.parts = (r', fs') ∧
        ((r = .missingFile ∨ r = .ossDisabled ∨ ∃ e, r = .uploadFailed e) → ∃ u, r' = .ok u) := by
  unfold uploadInputs at h
  by_cases h1 : method = "OPTIONS"
  · rw [if_pos h1] at h; cases h; exact .inl ⟨rfl, .inl rfl⟩
  rw [if_neg h1] at h
  by_cases h2 : method ≠ "POST"
  · rw [if_pos h2] at h; cases h; exact .inl ⟨rfl, .inr (.inl rfl)⟩
  rw [if_neg h2] at h
  by_cases h3 : env.multipart = false
  · rw [if_pos h3] at h; cases h; exact .inl ⟨rfl, .inr (.inr (.inl rfl))⟩
  rw [if_neg h3] at h
  by_cases h4 : env.mkdir = false
  · rw [if_pos h4] at h; cases h; exact .inl ⟨rfl, .inr (.inr (.inr rfl))⟩
  rw [if_neg h4] at h
  split at h
  · rename_i r₀ fs₁ hs
    cases h
    refine .inr ⟨_, hs, fun hr => ?_⟩
    rcases saveParts_error _ _ _ hs with rfl | ⟨n, rfl⟩ <;> rcases hr with h | h | ⟨e, h⟩ <;> cases h
  rename_i u fs₁ hs
  have hlate : ∀ {r'' : IntakeRefusal}, (Except.error r'', fs₁) = ((.error r, fs') : Except IntakeRefusal
      (String × String × String × String) × Files) →
      (fs' = fs ∧ (r = .options ∨ r = .methodNotAllowed ∨ r = .invalidMultipartForm ∨ r = .jobDir)) ∨
      ∃ r', saveParts (jobDir tmpRoot jobID) ⟨"", "", "", ""⟩ fs env.parts = (r', fs') ∧
        ((r = .missingFile ∨ r = .ossDisabled ∨ ∃ e, r = .uploadFailed e) → ∃ u, r' = .ok u) := by
    intro r'' e
    cases e
    exact .inr ⟨_, hs, fun _ => ⟨u, rfl⟩⟩
  split_ifs at h
  · exact hlate h
  · exact hlate h
  dsimp only at h
  split at h
  · exact hlate h
  split at h
  · exact hlate h
  · cases h

/-! ## Where the files lie -/

@[simp] theorem mem_remove {fs : Files} {p q : String} : q ∈ remove fs p ↔ q ∈ fs ∧ q ≠ p := by
  simp [remove]

@[simp] theorem mem_removeAll {fs : Files} {dir q : String} :
    q ∈ removeAll fs dir ↔ q ∈ fs ∧ q ≠ dir ∧ inDir dir q = false := by
  simp [removeAll]

/-- The job directory ends in the job id. -/
theorem jobDir_endsIn (tmpRoot : String) {jobID : String} (hj : PlainElem jobID.data) :
    EndsIn (jobDir tmpRoot jobID).data jobID.data := by
  have hc : jobID ≠ "" := fun h => hj.1 (congrArg String.data h)
  have hB : joinBuf [] [tmpRoot, "compare_jobs"] ≠ [] := by
    rw [joinBuf_pair _ (by decide)]; split <;> simp
  rw [jobDir, show [tmpRoot, "compare_jobs", jobID] = [tmpRoot, "compare_jobs"] ++ [jobID] from rfl,
    pathJoin_append_singleton hc, if_pos hB, List.append_assoc, List.singleton_append,
    pathClean_append_name hB hj]
  exact endsIn_joinName _ _

/-- The job directory is a clean path. -/
theorem jobDir_clean (tmpRoot jobID : String) : pathClean (jobDir tmpRoot jobID) = jobDir tmpRoot jobID := by
  have hl : ("compare_jobs" : String).length = 12 := rfl
  rw [jobDir, pathJoin, if_neg (fun h => by simp only [List.map, List.sum_cons, hl] at h; omega), pathClean_idem]

theorem exists_joinName_eq (c : List Char) : ∃ P, ∀ t, joinName c t = P ++ t := by
  unfold joinName
  by_cases h₁ : c = ['.']
  · exact ⟨[], fun t => by rw [if_pos h₁]; rfl⟩
  by_cases h₂ : c = ['/']
  · exact ⟨['/'], fun t => by rw [if_neg h₁, if_pos h₂]; rfl⟩
  · exact ⟨c ++ ['/'], fun t => by rw [if_neg h₁, if_neg h₂]; simp⟩

/-- A job's directory is its id after a prefix that the root alone decides. -/
theorem jobDir_data (tmpRoot : String) :
    ∃ P, ∀ {jobID : String}, PlainElem jobID.data → (jobDir tmpRoot jobID).data = P ++ jobID.data := by
  have hB : joinBuf [] [tmpRoot, "compare_jobs"] ≠ [] := by
    rw [joinBuf_pair _ (by decide)]; split <;> simp
  obtain ⟨P, hP⟩ := exists_joinName_eq (pathClean ⟨joinBuf [] [tmpRoot, "compare_jobs"]⟩).data
  refine ⟨P, fun {jobID} hj => ?_⟩
  have hc : jobID ≠ "" := fun h => hj.1 (congrArg String.data h)
  rw [jobDir, show [tmpRoot, "compare_jobs", jobID] = [tmpRoot, "compare_jobs"] ++ [jobID] from rfl,
    pathJoin_append_singleton hc, if_pos hB, List.append_assoc, List.singleton_append,
    pathClean_append_name hB hj, hP]

/-- **Two jobs' directories are apart**: a path inside one is neither the other nor inside it. -/
theorem jobDir_apart (tmpRoot : String) {j₁ j₂ : String} (h₁ : PlainElem j₁.data) (h₂ : PlainElem j₂.data)
    (hne : j₁ ≠ j₂) {q : String} (hq : inDir (jobDir tmpRoot j₂) q = true) :
    q ≠ jobDir tmpRoot j₁ ∧ inDir (jobDir tmpRoot j₁) q = false := by
  obtain ⟨P, hP⟩ := jobDir_data tmpRoot
  have hpre : ∀ {j : String}, PlainElem j.data → inDir (jobDir tmpRoot j) q = true →
      ∃ r, q.data = P ++ (j.data ++ '/' :: r) := fun hj h => by
    obtain ⟨r, hr⟩ := List.isPrefixOf_iff_prefix.1 h
    exact ⟨r, by rw [← hr, hP hj]; simp⟩
  have hcut : ∀ {s : List Char}, '/' ∉ s → ∀ r, (s ++ '/' :: r).takeWhile (· != '/') = s := fun hs r => by
    rw [List.takeWhile_append_of_pos fun a ha => bne_iff_ne.2 (ne_of_mem_of_not_mem ha hs)]
    simp
  obtain ⟨r₂, hr₂⟩ := hpre h₂ hq
  constructor
  · rintro rfl
    rw [hP h₁] at hr₂
    exact h₁.2.2.2 (List.append_cancel_left hr₂ ▸ List.mem_append_right _ (List.mem_cons_self _ _))
  · refine Bool.eq_false_iff.2 fun h => hne (String.ext ?_)
    obtain ⟨r₁, hr₁⟩ := hpre h₁ h
    have e := congrArg (List.takeWhile (· != '/')) (List.append_cancel_left (hr₁.symm.trans hr₂))
    rwa [hcut h₁.2.2.2, hcut h₂.2.2.2] at e

theorem slot_data {w : String} (hw : w = "file1" ∨ w = "file2") (b : String) :
    ((if trimSpace w = "file2" then "file2_" else "file1_") ++ b).data = w.data ++ '_' :: b.data := by
  rcases hw with rfl | rfl <;> rfl

theorem safeBaseNameFromName_cases (n : String) :
    safeBaseNameFromName n = "/" ∨ ((safeBaseNameFromName n).data ≠ [] ∧ '/' ∉ (safeBaseNameFromName n).data) := by
  unfold safeBaseNameFromName
  split
  · right; decide
  · exact pathBase_cases n

/-- **A saved upload lies in a clean directory as `w_<base>`** (`w_` alone for a base of `/`). -/
theorem savedPath_data {d : String} (hd : pathClean d = d) (hne : d.data ≠ ['.'] ∧ d.data ≠ ['/'] ∧ d.data ≠ [])
    {w : String} (hw : w = "file1" ∨ w = "file2") (n : String) :
    (savedPath d w n).data = d.data ++ '/' :: slotElem w.data (safeBaseNameFromName n) := by
  have hw' : '/' ∉ w.data := by rcases hw with rfl | rfl <;> decide
  have hj : ((if trimSpace w = "file2" then "file2_" else "file1_") ++ safeBaseNameFromName n) ≠ "" :=
    fun e => by simpa [slot_data hw] using congrArg String.data e
  have hb : joinBuf [] [d] = d.data := by
    have hd0 : d ≠ "" := fun e => hne.2.2 (congrArg String.data e)
    simp [joinBuf, hd0]
  have hc : (pathClean ⟨d.data⟩).data = d.data := congrArg String.data hd
  rw [savedPath, show [d, _] = [d] ++ [_] from rfl, pathJoin_append_singleton hj, hb, slot_data hw,
    pathClean_slot hw' d.data (safeBaseNameFromName_cases n), if_pos hne.2.2, hc, joinName, if_neg hne.1,
    if_neg hne.2.1]

theorem inDir_append (d : String) (t : List Char) : inDir d ⟨d.data ++ '/' :: t⟩ = true := by
  simp [inDir, List.isPrefixOf_iff_prefix]

/-- Everything the loop saves for a minted job lies in the job directory. -/
theorem inDir_savedPath (tmpRoot : String) (buf : Option (List UInt8)) (unixNano : Int) {f : String}
    (hf : trimSpace f = "file1" ∨ trimSpace f = "file2") (n : String) :
    inDir (jobDir tmpRoot (newJobID buf unixNano)) (savedPath (jobDir tmpRoot (newJobID buf unixNano)) f n) = true := by
  rw [savedPath_of_trim rfl n]
  have e := savedPath_data (jobDir_clean tmpRoot _)
    ((jobDir_endsIn tmpRoot (newJobID_plain buf unixNano)).ne_of_plain (newJobID_plain buf unixNano)) hf n
  rw [show savedPath (jobDir tmpRoot (newJobID buf unixNano)) (trimSpace f) n = ⟨_⟩ from String.ext e]
  exact inDir_append _ _

/-- Everything the loop saves for a minted job lies in the job directory. -/
theorem saveParts_new_in_jobDir {tmpRoot : String} {buf : Option (List UInt8)} {unixNano : Int} {u : Uploads}
    {fs fs' : Files} {ps : List NextPart} {r : Except IntakeRefusal Uploads}
    (h : saveParts (jobDir tmpRoot (newJobID buf unixNano)) u fs ps = (r, fs')) :
    ∀ q ∈ fs', q ∈ fs ∨ inDir (jobDir tmpRoot (newJobID buf unixNano)) q = true := by
  have hf := (saveParts_files (jobDir tmpRoot (newJobID buf unixNano)) u fs ps).2
  rw [h] at hf
  intro q hq
  rcases hf q hq with h' | ⟨f, n, io, -, hn, rfl⟩
  · exact .inl h'
  · exact .inr (inDir_savedPath tmpRoot buf unixNano hn n)

/-! ## What the intake records and leaves -/

/-- **An accepted upload records the last `file1` and the last `file2` part**, whatever other parts the
body holds: the record's names are their base names, and its keys the OSS keys of those. -/
theorem uploadInputs_records_last_parts {method tmpRoot inputPfx jobID : String} {env : UploadEnv} {fs : Files}
    {key1 key2 name1 name2 : String}
    (h : (uploadInputs method tmpRoot inputPfx jobID env fs).1 = .ok (key1, key2, name1, name2)) :
    ∃ f1 f2, lastFileName "file1" env.parts = some f1 ∧ lastFileName "file2" env.parts = some f2 ∧
      name1 = safeBaseNameFromName f1 ∧ name2 = safeBaseNameFromName f2 ∧
      key1 = objectKeyForInput inputPfx jobID "file1" name1 ∧ key2 = objectKeyForInput inputPfx jobID "file2" name2 := by
  obtain ⟨u, fs₁, hs, h1, h2, -, hx, -⟩ := uploadInputs_of_ok (Prod.ext h rfl)
  obtain ⟨f1, hl1, -, e1, -⟩ := saveParts_slot_of_ne (.inl rfl) hs (by rwa [Uploads.slot_file1])
  obtain ⟨f2, hl2, -, e2, -⟩ := saveParts_slot_of_ne (.inr rfl) hs (by rwa [Uploads.slot_file2])
  simp only [Uploads.slot_file1, Uploads.slot_file2] at e1 e2
  simp only [Prod.mk.injEq] at hx
  obtain ⟨rfl, rfl, rfl, rfl⟩ := hx
  exact ⟨f1, f2, hl1, hl2, e1, e2, rfl, rfl⟩

/-- A request with one `file1` and one `file2` part, both saved and both copied. -/
def sampleUpload : UploadEnv :=
  ⟨true, true, [.part "file1" "a.xlsx" .ok, .part "file2" "b.xlsx" .ok], true, .ok (), .ok (), .ok (), .ok ()⟩

theorem uploadInputs_records_last_parts_sample :
    (uploadInputs "POST" "./tmp" "compare-inputs" "job_1" sampleUpload []).1 =
      .ok ("compare-inputs/job_1/file1_a.xlsx", "compare-inputs/job_1/file2_b.xlsx", "a.xlsx", "b.xlsx") ∧
    ∃ f1 f2, lastFileName "file1" sampleUpload.parts = some f1 ∧ lastFileName "file2" sampleUpload.parts = some f2 ∧
      "a.xlsx" = safeBaseNameFromName f1 ∧ "b.xlsx" = safeBaseNameFromName f2 ∧
      "compare-inputs/job_1/file1_a.xlsx" = objectKeyForInput "compare-inputs" "job_1" "file1" "a.xlsx" ∧
      "compare-inputs/job_1/file2_b.xlsx" = objectKeyForInput "compare-inputs" "job_1" "file2" "b.xlsx" :=
  ⟨rfl, @uploadInputs_records_last_parts "POST" "./tmp" "compare-inputs" "job_1" sampleUpload [] _ _ _ _ rfl⟩

theorem uploadInputs_new_in_jobDir (method tmpRoot inputPfx : String) (buf : Option (List UInt8))
    (unixNano : Int) (env : UploadEnv) (fs : Files) :
    ∀ q ∈ (uploadInputs method tmpRoot inputPfx (newJobID buf unixNano) env fs).2,
      q ∈ fs ∨ inDir (jobDir tmpRoot (newJobID buf unixNano)) q = true := by
  intro q hq
  rcases hu : uploadInputs method tmpRoot inputPfx (newJobID buf unixNano) env fs with ⟨_ | x, fs'⟩
  · rw [hu] at hq
    rcases uploadInputs_of_error hu with ⟨rfl, -⟩ | ⟨r', hs, -⟩
    · exact .inl hq
    · exact saveParts_new_in_jobDir hs q hq
  · rw [hu] at hq
    obtain ⟨u, fs₁, hs, -, -, -, -, rfl⟩ := uploadInputs_of_ok hu
    simp only [mem_removeAll, mem_remove] at hq
    exact saveParts_new_in_jobDir hs q hq.1.1.1

theorem uploadInputs_keeps_outside (method tmpRoot inputPfx : String) (buf : Option (List UInt8))
    (unixNano : Int) (env : UploadEnv) (fs : Files) :
    ∀ q ∈ fs, q ≠ jobDir tmpRoot (newJobID buf unixNano) → inDir (jobDir tmpRoot (newJobID buf unixNano)) q = false →
      q ∈ (uploadInputs method tmpRoot inputPfx (newJobID buf unixNano) env fs).2 := by
  intro q hq hd hi
  rcases hu : uploadInputs method tmpRoot inputPfx (newJobID buf unixNano) env fs with ⟨_ | x, fs'⟩
  · rcases uploadInputs_of_error hu with ⟨rfl, -⟩ | ⟨r', hs, -⟩
    · exact hq
    · exact saveParts_mono hs q hq
  · obtain ⟨u, fs₁, hs, h1, h2, -, -, rfl⟩ := uploadInputs_of_ok hu
    have hslot : ∀ w : String, (w = "file1" ∨ w = "file2") → (u.slot w).1 ≠ "" →
        inDir (jobDir tmpRoot (newJobID buf unixNano)) (u.slot w).1 = true := fun w hw hne => by
      obtain ⟨n, -, e, -⟩ := saveParts_slot_of_ne hw hs hne
      rw [e]
      exact inDir_savedPath tmpRoot buf unixNano (by rcases hw with rfl | rfl <;> decide) n
    have hp1 := hslot "file1" (.inl rfl) (by rwa [Uploads.slot_file1])
    have hp2 := hslot "file2" (.inr rfl) (by rwa [Uploads.slot_file2])
    rw [Uploads.slot_file1] at hp1
    rw [Uploads.slot_file2] at hp2
    simp only [mem_removeAll, mem_remove]
    exact ⟨⟨⟨saveParts_mono hs q hq, fun e => by rw [e, hp1] at hi; cases hi⟩,
      fun e => by rw [e, hp2] at hi; cases hi⟩, hd, hi⟩

/-- **The intake touches only its job directory**: every file it leaves that was not there before lies
inside it, and every file outside it stays. -/
theorem uploadInputs_files_in_jobDir (method tmpRoot inputPfx : String) (buf : Option (List UInt8))
    (unixNano : Int) (env : UploadEnv) (fs : Files) :
    (∀ q ∈ (uploadInputs method tmpRoot inputPfx (newJobID buf unixNano) env fs).2,
      q ∈ fs ∨ inDir (jobDir tmpRoot (newJobID buf unixNano)) q = true) ∧
    ∀ q ∈ fs, q ≠ jobDir tmpRoot (newJobID buf unixNano) → inDir (jobDir tmpRoot (newJobID buf unixNano)) q = false →
      q ∈ (uploadInputs method tmpRoot inputPfx (newJobID buf unixNano) env fs).2 :=
  ⟨uploadInputs_new_in_jobDir method tmpRoot inputPfx buf unixNano env fs,
    uploadInputs_keeps_outside method tmpRoot inputPfx buf unixNano env fs⟩

/-- **An accepted upload leaves the disk as it found it outside the job directory, and nothing inside.** -/
theorem uploadInputs_accepted_cleans_up {method tmpRoot inputPfx : String} {buf : Option (List UInt8)}
    {unixNano : Int} {env : UploadEnv} {fs : Files} {x : String × String × String × String}
    (h : (uploadInputs method tmpRoot inputPfx (newJobID buf unixNano) env fs).1 = .ok x) (q : String) :
    q ∈ (uploadInputs method tmpRoot inputPfx (newJobID buf unixNano) env fs).2 ↔
      q ∈ fs ∧ q ≠ jobDir tmpRoot (newJobID buf unixNano) ∧ inDir (jobDir tmpRoot (newJobID buf unixNano)) q = false := by
  have hu : uploadInputs method tmpRoot inputPfx (newJobID buf unixNano) env fs =
      (.ok x, (uploadInputs method tmpRoot inputPfx (newJobID buf unixNano) env fs).2) := Prod.ext h rfl
  obtain ⟨u, fs₁, -, -, -, -, -, e⟩ := uploadInputs_of_ok hu
  constructor
  · intro hq
    have hq' := hq
    rw [e, mem_removeAll] at hq'
    refine ⟨?_, hq'.2.1, hq'.2.2⟩
    rcases uploadInputs_new_in_jobDir method tmpRoot inputPfx buf unixNano env fs q hq with h' | h'
    · exact h'
    · rw [h'] at hq'; cases hq'.2.2
  · exact fun ⟨hq, hd, hi⟩ => uploadInputs_keeps_outside method tmpRoot inputPfx buf unixNano env fs q hq hd hi

theorem uploadInputs_accepted_cleans_up_sample :
    (uploadInputs "POST" "./tmp" "compare-inputs" (newJobID none 7) sampleUpload ["./tmp/keep.txt"]).1 =
      .ok ("compare-inputs/job_7/file1_a.xlsx", "compare-inputs/job_7/file2_b.xlsx", "a.xlsx", "b.xlsx") ∧
    ("./tmp/keep.txt" ∈ (uploadInputs "POST" "./tmp" "compare-inputs" (newJobID none 7) sampleUpload
        ["./tmp/keep.txt"]).2 ↔
      "./tmp/keep.txt" ∈ ["./tmp/keep.txt"] ∧ "./tmp/keep.txt" ≠ jobDir "./tmp" (newJobID none 7) ∧
        inDir (jobDir "./tmp" (newJobID none 7)) "./tmp/keep.txt" = false) := by
  have h : (uploadInputs "POST" "./tmp" "compare-inputs" (newJobID none 7) sampleUpload ["./tmp/keep.txt"]).1 =
      .ok ("compare-inputs/job_7/file1_a.xlsx", "compare-inputs/job_7/file2_b.xlsx", "a.xlsx", "b.xlsx") := rfl
  exact ⟨h, uploadInputs_accepted_cleans_up h _⟩

/-- **A refusal after the parts were saved leaves the uploads on disk**: the last part of each slot stays
where the loop saved it. -/
theorem uploadInputs_refused_keeps_upload {method tmpRoot inputPfx jobID : String} {env : UploadEnv} {fs : Files}
    {r : IntakeRefusal} (h : (uploadInputs method tmpRoot inputPfx jobID env fs).1 = .error r)
    (hr : r = .missingFile ∨ r = .ossDisabled ∨ ∃ e, r = .uploadFailed e) {w n : String}
    (hw : w = "file1" ∨ w = "file2") (hn : lastFileName w env.parts = some n) :
    savedPath (jobDir tmpRoot jobID) w n ∈ (uploadInputs method tmpRoot inputPfx jobID env fs).2 := by
  rcases uploadInputs_of_error (Prod.ext h rfl) with ⟨-, hr'⟩ | ⟨r', hs, hlate⟩
  · rcases hr' with rfl | rfl | rfl | rfl <;> rcases hr with h | h | ⟨e, h⟩ <;> cases h
  · obtain ⟨u, rfl⟩ := hlate hr
    exact (saveParts_slot hw _ _ _ hs).2 n hn

theorem uploadInputs_refused_keeps_upload_missing :
    (uploadInputs "POST" "./tmp" "compare-inputs" "job_1" { sampleUpload with parts := [.part "file1" "a.xlsx" .ok] }
        []).1 = .error .missingFile ∧
    savedPath (jobDir "./tmp" "job_1") "file1" "a.xlsx" ∈
      (uploadInputs "POST" "./tmp" "compare-inputs" "job_1" { sampleUpload with parts := [.part "file1" "a.xlsx" .ok] }
        []).2 := by
  have h : (uploadInputs "POST" "./tmp" "compare-inputs" "job_1"
      { sampleUpload with parts := [.part "file1" "a.xlsx" .ok] } []).1 = .error .missingFile := rfl
  exact ⟨h, uploadInputs_refused_keeps_upload h (.inl rfl) (.inl rfl) rfl⟩

/-! ## Names that end in white space -/

theorem putFileFromPath_ok {cred : Except String Unit} {fs : Files} {objectKey localPath : String}
    {put : Except String Unit} (h : putFileFromPath true cred fs objectKey localPath put = .ok ()) :
    trimSpace localPath ∈ fs := by
  simp only [putFileFromPath, Bool.true_eq_false, if_false] at h
  split at h
  · cases h
  · split_ifs at h with h1 h2
    · exact h2

theorem lastFileName_mem {w n : String} : ∀ (ps : List NextPart), lastFileName w ps = some n →
    ∃ f io, NextPart.part f n io ∈ ps ∧ trimSpace f = w
  | [], h => nomatch h
  | .err :: ps, h => let ⟨f, io, hm, hf⟩ := lastFileName_mem ps h; ⟨f, io, .tail _ hm, hf⟩
  | .nil :: ps, h => let ⟨f, io, hm, hf⟩ := lastFileName_mem ps h; ⟨f, io, .tail _ hm, hf⟩
  | .part f' _ io' :: ps, h => by
    simp only [lastFileName, Option.or_eq_some] at h
    rcases h with h | ⟨-, h⟩
    · obtain ⟨f, io, hm, hf⟩ := lastFileName_mem ps h
      exact ⟨f, io, .tail _ hm, hf⟩
    · split at h
      · cases h
        exact ⟨f', io', .head _, ‹_›⟩
      · cases h

/-- The path the upload of a saved `file1` part opens: the saved path without its trailing white space. -/
theorem trimSpace_savedPath {d : String} (hd : pathClean d = d) (hne : d.data ≠ ['.'] ∧ d.data ≠ ['/'] ∧ d.data ≠ [])
    (hhead : ∀ c, d.data.head? = some c → isSpace c = false) {n : String} (hb : safeBaseNameFromName n ≠ "/") :
    (trimSpace (savedPath d "file1" n)).data =
      (d.data ++ '/' :: "file1".data) ++ '_' :: (safeBaseNameFromName n).data.rdropWhile isSpace := by
  obtain ⟨c, cs, hc⟩ := List.exists_cons_of_ne_nil hne.2.2
  have hc' : isSpace c = false := hhead c (by rw [hc]; rfl)
  rw [trimSpace, savedPath_data hd hne (.inl rfl), slotElem, if_neg hb, hc, List.cons_append,
    List.dropWhile_cons_of_neg (by simp [hc']), ← List.cons_append, ← hc, ← List.cons_append,
    ← List.append_assoc, rdropWhile_append_cons isSpace_underscore]

/-- A trimmed text does not end in white space. -/
theorem getLast_trimSpace {q : String} {c : Char} (h : (trimSpace q).data.getLast? = some c) : isSpace c = false := by
  have hne : (trimSpace q).data ≠ [] := fun h0 => by rw [h0] at h; cases h
  have hl := List.rdropWhile_last_not isSpace (q.data.dropWhile isSpace) hne
  rw [List.getLast?_eq_getLast _ hne] at h
  cases h
  simpa using hl

/-- A saved upload whose base name ends in white space ends in it too. -/
theorem savedPath_getLast {d : String} (hd : pathClean d = d) (hne : d.data ≠ ['.'] ∧ d.data ≠ ['/'] ∧ d.data ≠ [])
    {w : String} (hw : w = "file1" ∨ w = "file2") {n : String} {c : Char}
    (hb : (safeBaseNameFromName n).data.getLast? = some c) (hc : isSpace c = true) :
    (savedPath d w n).data.getLast? = some c := by
  have hb' : safeBaseNameFromName n ≠ "/" := fun e => by rw [e] at hb; cases hb; cases hc
  have hb0 : (safeBaseNameFromName n).data ≠ [] := fun e => by rw [e] at hb; cases hb
  rw [savedPath_data hd hne hw, slotElem, if_neg hb',
    show ∀ (A B C : List Char), A ++ '/' :: (B ++ '_' :: C) = (A ++ '/' :: (B ++ ['_'])) ++ C by simp,
    List.getLast?_append_of_ne_nil _ hb0, hb]

/-- **A `file1` upload whose every name ends in white space is never accepted**: `saveUploadTo` wrote the
untrimmed path, and `PutFileFromPath` opens the trimmed one, where no file is.  This holds for every job
directory that starts with a rune other than white space and holds no file yet. -/
theorem uploadInputs_trailing_space {method tmpRoot inputPfx : String} {buf : Option (List UInt8)} {unixNano : Int}
    {env : UploadEnv} {fs : Files}
    (htmp : ∀ c, (jobDir tmpRoot (newJobID buf unixNano)).data.head? = some c → isSpace c = false)
    (hfresh : ∀ q ∈ fs, inDir (jobDir tmpRoot (newJobID buf unixNano)) q = false)
    (hsp : ∀ f n io, NextPart.part f n io ∈ env.parts → trimSpace f = "file1" →
      ∃ c, (safeBaseNameFromName n).data.getLast? = some c ∧ isSpace c = true) (x : String × String × String × String) :
    (uploadInputs method tmpRoot inputPfx (newJobID buf unixNano) env fs).1 ≠ .ok x := by
  intro h
  have hd := jobDir_clean tmpRoot (newJobID buf unixNano)
  have hne := (jobDir_endsIn tmpRoot (newJobID_plain buf unixNano)).ne_of_plain (newJobID_plain buf unixNano)
  obtain ⟨u, fs₁, hs, h1, -, hput, -, -⟩ := uploadInputs_of_ok (Prod.ext h rfl)
  obtain ⟨n, hl, hp, -⟩ := saveParts_slot_of_ne (.inl rfl) hs (by rwa [Uploads.slot_file1])
  simp only [Uploads.slot_file1] at hp
  have hends : ∀ {n'}, (∃ f io, NextPart.part f n' io ∈ env.parts ∧ trimSpace f = "file1") →
      ∃ c, (safeBaseNameFromName n').data.getLast? = some c ∧ isSpace c = true :=
    fun ⟨f, io, hm, hf⟩ => hsp f _ io hm hf
  obtain ⟨c, hc, hcs⟩ := hends (lastFileName_mem _ hl)
  have ht := trimSpace_savedPath hd hne htmp (fun e => by rw [e] at hc; cases hc; cases hcs)
  have hmem := putFileFromPath_ok hput
  rw [hp] at hmem
  generalize jobDir tmpRoot (newJobID buf unixNano) = d at *
  rcases (saveParts_files d ⟨"", "", "", ""⟩ fs env.parts).2 _ (by rw [hs]; exact hmem) with
    hq | ⟨f, n', io, hm, hf, hq⟩
  · -- a file there before lies outside the fresh job directory
    have := hfresh _ hq
    rw [show trimSpace (savedPath d "file1" n) = ⟨_⟩ from String.ext ht, List.append_assoc, List.cons_append,
      inDir_append] at this
    cases this
  rw [@savedPath_of_trim _ f _ rfl n'] at hq
  rcases hf with hf | hf <;> rw [hf] at hq
  · -- another `file1` part: its saved path ends in white space, and a trimmed path does not
    obtain ⟨c', hc', hcs'⟩ := hends ⟨f, io, hm, hf⟩
    have hl' := savedPath_getLast hd hne (.inl rfl) hc' hcs'
    rw [← hq] at hl'
    simp [getLast_trimSpace hl'] at hcs'
  · -- a `file2` part lies in the other slot
    have e := congrArg String.data hq
    rw [ht, savedPath_data hd hne (.inr rfl), slotElem, List.append_assoc, List.cons_append] at e
    exact absurd (List.append_inj (List.cons.inj (List.append_cancel_left e)).2 rfl).1 (by decide)

theorem uploadInputs_trailing_space_sample :
    (∀ c, (jobDir "./tmp" (newJobID none 7)).data.head? = some c → isSpace c = false) ∧
    (∀ q ∈ ([] : Files), inDir (jobDir "./tmp" (newJobID none 7)) q = false) ∧
    (∀ f n io, NextPart.part f n io ∈ [.part "file1" "a.xlsx " .ok, .part "file2" "b.xlsx" .ok] →
      trimSpace f = "file1" → ∃ c, (safeBaseNameFromName n).data.getLast? = some c ∧ isSpace c = true) ∧
    ∀ x, (uploadInputs "POST" "./tmp" "compare-inputs" (newJobID none 7)
      { sampleUpload with parts := [.part "file1" "a.xlsx " .ok, .part "file2" "b.xlsx" .ok] } []).1 ≠ .ok x := by
  have htmp : ∀ c, (jobDir "./tmp" (newJobID none 7)).data.head? = some c → isSpace c = false := fun c hc => by
    have e : (jobDir "./tmp" (newJobID none 7)).data.head? = some 't' := rfl
    rw [e] at hc
    cases hc
    decide
  have hfresh : ∀ q ∈ ([] : Files), inDir (jobDir "./tmp" (newJobID none 7)) q = false := fun _ h => nomatch h
  have hsp : ∀ f n io, NextPart.part f n io ∈ [.part "file1" "a.xlsx " .ok, .part "file2" "b.xlsx" .ok] →
      trimSpace f = "file1" → ∃ c, (safeBaseNameFromName n).data.getLast? = some c ∧ isSpace c = true := by
    intro f n io hm hf
    simp only [List.mem_cons, NextPart.part.injEq, List.mem_nil_iff, or_false] at hm
    rcases hm with ⟨rfl, rfl, -⟩ | ⟨rfl, rfl, -⟩
    · exact ⟨' ', rfl, rfl⟩
    · exact absurd hf (by decide)
  exact ⟨htmp, hfresh, hsp, uploadInputs_trailing_space htmp hfresh hsp⟩

end Guangyang.Upload
