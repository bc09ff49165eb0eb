import Guangyang.Upload
import Guangyang.Excelcmp.Generate
/-!
# WorkerDisk — the compare worker's local files

After it marked a job processing, `compare.Worker.Process` downloads the two inputs into the job's
directory `<TMP_ROOT>/compare_jobs/<jobID>` as `file1_<name>` and `file2_<name>` (`GetObjectToFile`),
converts a legacy workbook with the `unoconvert` client (`convertXLSIfNeeded`), writes the comparison to
`comparison_result.xlsx` there (`GenerateCompareExportXLSX`), uploads it (`PutResultFile`) and removes
it.  `computeStage` runs these steps on the pod's disk as `Upload` models it; its first failure is what
`Handlers.CompareEnv.failure` stands for.

- `strconv.Atoi` reads back what `strconv.Itoa` prints (`atoi_toString`), so every positive decimal setting
  of `XLSCONVERT_TIMEOUT_SECONDS` is read as written (`readEnvIntDefault_toString`).
- The conversion writes beside its input and never over it (`convertOutPath_ne`): a failed conversion
  leaves the input on disk, and a successful one the path it returns (`convertXLSIfNeeded_keeps_files`).
- On the disk, the export reads the two first sheets exactly as the pure export does, once both files
  open (`compareExportOnDisk_eq`).
- The compute steps change nothing outside the job directory (`computeStage_changes_only_jobDir`), and
  nothing removes that directory: every successful run leaves the two files it compared inside it
  (`computeStage_leaves_inputs`).
- Two jobs' directories are apart (`jobDir_apart`), so one job's intake and compare run leave every file
  of another job's directory as it was (`stages_keep_other_jobs`).
- A download lands at the trimmed local path, and the conversion and the export open the untrimmed one.
  A job whose file 1 name ends in white space, and is not converted, never completes
  (`computeStage_trailing_space`).
-/
namespace Guangyang.WorkerDisk

open Ossstore Upload Excelcmp

/-! ## Environment variables -/

/-- The sign `strconv.Atoi` reads, and the text after it. -/
def atoiSign : List Char → Bool × List Char
  | '-' :: ds => (true, ds)
  | '+' :: ds => (false, ds)
  | ds => (false, ds)

/-- `strconv.Atoi`: an optional sign, then decimal digits, within the range of a 64-bit `int`. -/
def atoi (s : String) : Option Int :=
  let ds := (atoiSign s.data).2
  if ds ≠ [] ∧ ds.all Char.isDigit = true then
    let v : Int := if (atoiSign s.data).1 then -(digitsValue ds : Int) else digitsValue ds
    if -2 ^ 63 ≤ v ∧ v < 2 ^ 63 then some v else none
  else none

/-- `compare.readEnvIntDefault`: the variable when it is a positive decimal, else the default. -/
def readEnvIntDefault (getenv : String → String) (key : String) (defaultVal : Int) : Int :=
  if trimSpace (getenv key) = "" then defaultVal
  else match atoi (trimSpace (getenv key)) with
    | some n => if n ≤ 0 then defaultVal else n
    | none => defaultVal

/-- `compare.readEnvStringDefault`, the body of `readEnvDefault`. -/
def readEnvStringDefault (getenv : String → String) (key defaultVal : String) : String :=
  readEnvDefault getenv key defaultVal

/-- `strings.EqualFold(s, t)` for a lowercase ASCII `t` without `k` or `s` (the two letters with a case
mate outside ASCII): `s` lowercased is `t`. -/
def equalFold (s t : String) : Bool := toLower s == t

/-! ## Paths -/

/-- `filepath.Ext`'s loop over the path read backwards: the last element from its last `.` on. -/
def extRev : List Char → Option (List Char)
  | [] => none
  | c :: cs => if c = '/' then none else if c = '.' then some ['.'] else (extRev cs).map (· ++ [c])

/-- `filepath.Ext`: the last element from its last `.` on, or `""`. -/
def pathExt (p : String) : String := ⟨(extRev p.data.reverse).getD []⟩

/-- `strings.TrimSuffix`. -/
def trimSuffix (s suffix : String) : String :=
  if suffix.data.isSuffixOf s.data then ⟨s.data.take (s.length - suffix.length)⟩ else s

/-- The error `os.Open` and `os.Stat` print for a path where no file is. -/
def noFile (op p : String) : String := op ++ " " ++ p ++ ": no such file or directory"

/-! ## The conversion -/

/-- The first eight bytes of a legacy OLE2 workbook. -/
def ole2Magic : List UInt8 := [0xD0, 0xCF, 0x11, 0xE0, 0xA1, 0xB1, 0x1A, 0xE1]

/-- Where `convertXLSIfNeeded` writes, beside its input and by the extension of the trimmed input: `xxx.xls`
becomes `xxx.xlsx`, and a workbook `xxx.xlsx` that is really OLE2 becomes `xxx.converted.xlsx`. -/
def convertOutPath (inPath : String) : String :=
  if toLower (pathExt (trimSpace inPath)) = ".xls" then trimSuffix inPath (pathExt inPath) ++ ".xlsx"
  else trimSuffix inPath (pathExt inPath) ++ ".converted.xlsx"

/-- `os.Remove(outPath)`, then the client's run, which may write `outPath`. -/
def runClient (fs : Files) (outPath : String) (wrote : Bool) : Files :=
  if wrote then outPath :: remove fs outPath else remove fs outPath

/-- What `convertXLSIfNeeded` meets outside the disk. -/
structure ConvertIO where
  /-- What `f.Read` returns of the input's first eight bytes, when it opens. -/
  header : List UInt8
  /-- `exec.LookPath(bin)` finds the client. -/
  lookPath : Bool
  /-- The client's combined output. -/
  output : String
  /-- The run outlived its deadline. -/
  timedOut : Bool
  /-- The run's error. -/
  runErr : Option String
  /-- The client wrote the output file. -/
  wrote : Bool

/-- `compare.convertXLSIfNeeded`: the path to compare and whether it was converted, or the error, and the
files it leaves.  The input is sniffed: a `.xls` that is really a zip is read as it is, and a workbook of
another extension that is really OLE2 is converted. -/
def convertXLSIfNeeded (getenv : String → String) (fs : Files) (inPath : String) (io : ConvertIO) :
    Except String (String × Bool) × Files :=
  if inPath = "" then (.error "输入文件路径为空", fs) else
  let ext := toLower (pathExt (trimSpace inPath))
  let hdr := if inPath ∈ fs then io.header.take 8 else []
  if ext = ".xls" ∧ hdr.take 2 = [0x50, 0x4B] then (.ok (inPath, false), fs)
  else if ext ≠ ".xls" ∧ hdr ≠ ole2Magic then (.ok (inPath, false), fs)
  else
    let outPath := convertOutPath inPath
    let bin := readEnvStringDefault getenv "XLSCONVERT_BIN" "unoconvert"
    let timeoutSec := readEnvIntDefault getenv "XLSCONVERT_TIMEOUT_SECONDS" 60
    let keepOrig := equalFold (trimSpace (getenv "XLSCONVERT_KEEP_ORIGINAL")) "1" ||
      equalFold (trimSpace (getenv "XLSCONVERT_KEEP_ORIGINAL")) "true"
    if io.lookPath = false then
      (.error ("xls 转换失败：未找到转换客户端 " ++ goQuote bin ++ "（请确认 Go 镜像已安装 unoserver 客户端）"), fs)
    else
      let timeoutSec := if timeoutSec ≤ 0 then 60 else timeoutSec
      let fs₁ := runClient fs outPath io.wrote
      if io.timedOut then
        (.error ("xls 转换超时（" ++ toString timeoutSec ++ "s）: " ++
          (if trimSpace io.output = "" then "超时" else trimSpace io.output)), fs₁)
      else match io.runErr with
      | some e => (.error ("xls 转换失败: " ++ (if trimSpace io.output = "" then e else trimSpace io.output)), fs₁)
      | none =>
        if outPath ∉ fs₁ then (.error ("xls 转换失败：输出文件不存在: " ++ noFile "stat" outPath), fs₁)
        else if keepOrig then (.ok (outPath, true), fs₁) else (.ok (outPath, true), remove fs₁ inPath)

/-! ## Downloads, the export and the result upload -/

/-- An `os.Create` of `p` and the copy into it. -/
def writeFile (fs : Files) (p : String) : WriteIO → Except String Unit × Files
  | .ok => (.ok (), p :: fs)
  | .createFailed e => (.error e, fs)
  | .copyFailed e => (.error e, p :: fs)

/-- What `GetObjectToFile` meets: `ensureCred`, then `GetObject` (and the `MkdirAll` of the file's
directory), then the file's `os.Create` and copy. -/
structure FetchIO where
  cred : Except String Unit
  fetch : Except String Unit
  write : WriteIO

/-- `ossstore.Store.GetObjectToFile`: the object is written at the trimmed local path. -/
def getObjectToFile (enabled : Bool) (fs : Files) (objectKey localPath : String) (io : FetchIO) :
    Except String Unit × Files :=
  if enabled = false then (.error "oss not enabled", fs) else
  match io.cred with
  | .error e => (.error e, fs)
  | .ok () =>
    if objectName objectKey = "" ∨ trimSpace localPath = "" then (.error "invalid objectKey/localPath", fs)
    else match io.fetch with
    | .error e => (.error e, fs)
    | .ok () => writeFile fs (trimSpace localPath) io.write

/-- `ossstore.Store.PutResultFile`: `PutFileFromPath` with the workbook's content type. -/
def putResultFile (enabled : Bool) (cred : Except String Unit) (fs : Files) (objectKey localPath : String)
    (put : Except String Unit) : Except String Unit :=
  putFileFromPath enabled cred fs objectKey localPath put

/-- `GenerateCompareExportXLSX` on the disk, up to the artifacts: `excelize.OpenFile` of a path where no
file is fails with `os.Open`'s error before anything is read, and `sheetAt` gives a file's first sheet. -/
def compareExportOnDisk (cls : Classifiers) (sheetAt : String → List (List String)) (fs : Files)
    (file1Path file2Path outPath : String) : Except String Artifacts :=
  if trimSpace file1Path = "" ∨ trimSpace file2Path = "" then .error "输入文件路径为空" else
  if trimSpace outPath = "" then .error "输出路径为空" else
  if file1Path ∉ fs then .error ("读取文件1失败: " ++ noFile "open" file1Path) else
  match loadKeyedSheetXLSX cls (sheetAt file1Path) 5 "" true with
  | .error e => .error ("读取文件1失败: " ++ e)
  | .ok (s1, dup1) =>
    if dup1.length > 0 then
      .error ("文件1主键列“" ++ s1.key ++ "”存在重复值（示例: " ++ goSliceString dup1 ++ "），请先去重或修正后再比对")
    else
    if file2Path ∉ fs then .error ("读取文件2失败: " ++ noFile "open" file2Path) else
    match loadKeyedSheetXLSX cls (sheetAt file2Path) 0 s1.key false with
    | .error e => .error ("读取文件2失败: " ++ e)
    | .ok (s2, dup2) =>
      if dup2.length > 0 then
        .error ("文件2主键列“" ++ s1.key ++ "”存在重复值（示例: " ++ goSliceString dup2 ++ "），请先去重或修正后再比对")
      else compareArtifactsFromMaps s1.headers s2.headers s1.rowsByKey s2.rowsByKey s1.key

/-- `excelcmp.GenerateCompareExportXLSX` on the disk: once the artifacts are built, the workbook is
written at `outPath`; `write` is how the sheet writers, `MkdirAll`, `os.Create` and `WriteTo` end. -/
def generateOnDisk (cls : Classifiers) (sheetAt : String → List (List String)) (fs : Files)
    (file1Path file2Path outPath : String) (write : WriteIO) : Except String Unit × Files :=
  match compareExportOnDisk cls sheetAt fs file1Path file2Path outPath with
  | .error e => (.error e, fs)
  | .ok _ => writeFile fs outPath write

/-! ## The compute steps of a compare run -/

/-- What the compute steps of one compare run meet outside the disk. -/
structure ComputeIO where
  /-- `os.MkdirAll(jobDir)`. -/
  mkdir : Except String Unit
  fetch1 : FetchIO
  fetch2 : FetchIO
  convert1 : ConvertIO
  convert2 : ConvertIO
  /-- How the writing of the workbook ends. -/
  generate : WriteIO
  /-- `ensureCred` and the upload of the result, once its file opens. -/
  cred : Except String Unit
  put : Except String Unit

/-- The compute steps of `compare.Worker.Process`, from `os.MkdirAll(jobDir)` to `os.Remove(resultPath)`,
with OSS enabled as the run checked before: the first step that fails, with its error, and the files
left. -/
def computeStage (cls : Classifiers) (sheetAt : String → List (List String)) (getenv : String → String)
    (tmpRoot ossPrefix jobID : String) (job : CompareJob) (io : ComputeIO) (fs : Files) :
    Option (ComputeStep × String) × Files :=
  match io.mkdir with
  | .error e => (some (.mkdirJobDir, e), fs)
  | .ok () =>
    let local1 := pathJoin [jobDir tmpRoot jobID, "file1_" ++ safeBaseNameFromName job.file1Name]
    let local2 := pathJoin [jobDir tmpRoot jobID, "file2_" ++ safeBaseNameFromName job.file2Name]
    match getObjectToFile true fs job.file1OSSKey local1 io.fetch1 with
    | (.error e, fs) => (some (.download1, e), fs)
    | (.ok (), fs) =>
    match getObjectToFile true fs job.file2OSSKey local2 io.fetch2 with
    | (.error e, fs) => (some (.download2, e), fs)
    | (.ok (), fs) =>
    match convertXLSIfNeeded getenv fs local1 io.convert1 with
    | (.error e, fs) => (some (.convert1, e), fs)
    | (.ok (new1, _), fs) =>
    match convertXLSIfNeeded getenv fs local2 io.convert2 with
    | (.error e, fs) => (some (.convert2, e), fs)
    | (.ok (new2, _), fs) =>
    let resultPath := pathJoin [jobDir tmpRoot jobID, "comparison_result.xlsx"]
    match generateOnDisk cls sheetAt fs new1 new2 resultPath io.generate with
    | (.error e, fs) => (some (.generate, e), fs)
    | (.ok (), fs) =>
    match putResultFile true io.cred fs (Ossstore.objectKeyForJob ossPrefix jobID) resultPath io.put with
    | .error e => (some (.upload, e), fs)
    | .ok () => (none, remove fs resultPath)

/-! ## Reading an integer variable -/

theorem atoiSign_of_isDigit {d : Char} (hd : d.isDigit = true) (ds : List Char) :
    atoiSign (d :: ds) = (false, d :: ds) := by
  have h := toNat_of_isDigit hd
  have h1 : d ≠ '-' := fun e => by rw [e] at h; simp at h
  have h2 : d ≠ '+' := fun e => by rw [e] at h; simp at h
  unfold atoiSign
  split <;> simp_all

/-- **`strconv.Atoi` reads back what `strconv.Itoa` prints**, for every 64-bit `int`. -/
theorem atoi_toString (n : Int) (h : -2 ^ 63 ≤ n ∧ n < 2 ^ 63) : atoi (toString n) = some n := by
  have hd := toDigits_isDigit n.natAbs
  obtain ⟨d, ds, hds⟩ := List.exists_cons_of_ne_nil (toDigits_ne_nil n.natAbs)
  have hsign : atoiSign (toString n).data = (decide (n < 0), Nat.toDigits 10 n.natAbs) := by
    rw [data_toString_int, hds]
    by_cases hn : n < 0
    · simp only [if_pos hn, decide_eq_true hn, List.singleton_append]; rfl
    · simp only [if_neg hn, decide_eq_false hn, List.nil_append]
      exact atoiSign_of_isDigit (hd d (by rw [hds]; exact .head _)) ds
  have hv : (if decide (n < 0) = true then -(digitsValue (Nat.toDigits 10 n.natAbs) : Int)
      else (digitsValue (Nat.toDigits 10 n.natAbs) : Int)) = n := by
    rw [digitsValue_toDigits]
    by_cases hn : n < 0
    · rw [if_pos (decide_eq_true hn), Int.ofNat_natAbs_of_nonpos hn.le, neg_neg]
    · rw [if_neg (by simpa using hn), Int.natAbs_of_nonneg (not_lt.1 hn)]
  rw [atoi, hsign, if_pos ⟨toDigits_ne_nil _, List.all_eq_true.2 hd⟩]
  dsimp only
  rw [hv, if_pos h]

/-- **A positive decimal setting is read as it is written.** -/
theorem readEnvIntDefault_toString {getenv : String → String} {key : String} (defaultVal : Int) {n : Int}
    (hn : 0 < n ∧ n < 2 ^ 63) (h : getenv key = toString n) : readEnvIntDefault getenv key defaultVal = n := by
  have ht : trimSpace (toString n) = toString n := trimSpace_of_forall fun c hc => by
    rw [data_toString_int, if_neg (by omega), List.nil_append] at hc
    exact isSpace_of_isDigit (toDigits_isDigit _ c hc)
  have hne : toString n ≠ "" := fun e => by
    have := congrArg String.data e
    rw [data_toString_int, if_neg (by omega), List.nil_append] at this
    exact toDigits_ne_nil _ this
  rw [readEnvIntDefault, h, ht, if_neg hne, atoi_toString n ⟨by omega, hn.2⟩]
  dsimp only
  rw [if_neg (by omega)]

theorem readEnvIntDefault_toString_timeout :
    (0 < (120 : Int) ∧ (120 : Int) < 2 ^ 63) ∧ (fun _ => "120") "XLSCONVERT_TIMEOUT_SECONDS" = toString (120 : Int) ∧
    readEnvIntDefault (fun _ => "120") "XLSCONVERT_TIMEOUT_SECONDS" 60 = 120 :=
  ⟨by decide, rfl, readEnvIntDefault_toString 60 (by decide) rfl⟩

/-! ## What a step changes on the disk -/

/-- `fs'` differs from `fs` only at paths where `S` holds. -/
def ChangesOnly (S : String → Prop) (fs fs' : Files) : Prop :=
  (∀ q ∈ fs', q ∈ fs ∨ S q) ∧ ∀ q ∈ fs, ¬ S q → q ∈ fs'

theorem ChangesOnly.rfl {S : String → Prop} {fs : Files} : ChangesOnly S fs fs :=
  ⟨fun _ h => .inl h, fun _ h _ => h⟩

theorem ChangesOnly.trans {S : String → Prop} {fs₁ fs₂ fs₃ : Files} (h₁ : ChangesOnly S fs₁ fs₂)
    (h₂ : ChangesOnly S fs₂ fs₃) : ChangesOnly S fs₁ fs₃ :=
  ⟨fun q hq => (h₂.1 q hq).elim (h₁.1 q) .inr, fun q hq hS => h₂.2 q (h₁.2 q hq hS) hS⟩

theorem ChangesOnly.mono {S T : String → Prop} {fs fs' : Files} (h : ChangesOnly S fs fs')
    (hST : ∀ q, S q → T q) : ChangesOnly T fs fs' :=
  ⟨fun q hq => (h.1 q hq).imp id (hST q), fun q hq hT => h.2 q hq (mt (hST q) hT)⟩

theorem ChangesOnly.not_mem {S : String → Prop} {fs fs' : Files} (h : ChangesOnly S fs fs') {q : String}
    (hq : q ∉ fs) (hS : ¬ S q) : q ∉ fs' :=
  fun hm => (h.1 q hm).elim hq hS

theorem changesOnly_cons (fs : Files) (p : String) : ChangesOnly (· = p) fs (p :: fs) :=
  ⟨fun _ hq => (List.mem_cons.1 hq).elim .inr .inl, fun _ hq _ => .tail _ hq⟩

theorem changesOnly_remove (fs : Files) (p : String) : ChangesOnly (· = p) fs (remove fs p) :=
  ⟨fun _ hq => .inl (mem_remove.1 hq).1, fun _ hq hp => mem_remove.2 ⟨hq, hp⟩⟩

theorem writeFile_changesOnly (fs : Files) (p : String) (io : WriteIO) :
    ChangesOnly (· = p) fs (writeFile fs p io).2 := by
  cases io
  · exact changesOnly_cons fs p
  · exact .rfl
  · exact changesOnly_cons fs p

theorem getObjectToFile_changesOnly (enabled : Bool) (fs : Files) (objectKey localPath : String) (io : FetchIO) :
    ChangesOnly (· = trimSpace localPath) fs (getObjectToFile enabled fs objectKey localPath io).2 := by
  unfold getObjectToFile
  split
  · exact .rfl
  · split
    · exact .rfl
    · split
      · exact .rfl
      · split
        · exact .rfl
        · exact writeFile_changesOnly fs _ io.write

theorem generateOnDisk_changesOnly (cls : Classifiers) (sheetAt : String → List (List String)) (fs : Files)
    (file1Path file2Path outPath : String) (write : WriteIO) :
    ChangesOnly (· = outPath) fs (generateOnDisk cls sheetAt fs file1Path file2Path outPath write).2 := by
  unfold generateOnDisk
  split
  · exact .rfl
  · exact writeFile_changesOnly fs outPath write

/-- **What a conversion returns and leaves**: the input, with the disk untouched; an error, with the disk as
it was or as the client's run left it; or the output, which the run left on disk, with the input removed
unless `XLSCONVERT_KEEP_ORIGINAL` keeps it. -/
theorem convertXLSIfNeeded_cases {getenv : String → String} {fs : Files} {inPath : String} {io : ConvertIO}
    {r : Except String (String × Bool)} {fs' : Files} (h : convertXLSIfNeeded getenv fs inPath io = (r, fs')) :
    (r = .ok (inPath, false) ∧ fs' = fs) ∨
    ((∃ e, r = .error e) ∧ (fs' = fs ∨ fs' = runClient fs (convertOutPath inPath) io.wrote)) ∨
    (r = .ok (convertOutPath inPath, true) ∧ convertOutPath inPath ∈ runClient fs (convertOutPath inPath) io.wrote ∧
      (fs' = runClient fs (convertOutPath inPath) io.wrote ∨
        fs' = remove (runClient fs (convertOutPath inPath) io.wrote) inPath)) := by
  unfold convertXLSIfNeeded at h
  by_cases h0 : inPath = ""
  · rw [if_pos h0] at h
    exact .inr (.inl ⟨⟨_, (Prod.mk.inj h).1.symm⟩, .inl (Prod.mk.inj h).2.symm⟩)
  rw [if_neg h0] at h
  dsimp only at h
  generalize (if inPath ∈ fs then io.header.take 8 else []) = hdr at h
  by_cases h1 : toLower (pathExt (trimSpace inPath)) = ".xls" ∧ hdr.take 2 = [0x50, 0x4B]
  · rw [if_pos h1] at h
    exact .inl ⟨(Prod.mk.inj h).1.symm, (Prod.mk.inj h).2.symm⟩
  rw [if_neg h1] at h
  by_cases h2 : toLower (pathExt (trimSpace inPath)) ≠ ".xls" ∧ hdr ≠ ole2Magic
  · rw [if_pos h2] at h
    exact .inl ⟨(Prod.mk.inj h).1.symm, (Prod.mk.inj h).2.symm⟩
  rw [if_neg h2] at h
  by_cases h3 : io.lookPath = false
  · rw [if_pos h3] at h
    exact .inr (.inl ⟨⟨_, (Prod.mk.inj h).1.symm⟩, .inl (Prod.mk.inj h).2.symm⟩)
  rw [if_neg h3] at h
  by_cases h4 : io.timedOut = true
  · rw [if_pos h4] at h
    exact .inr (.inl ⟨⟨_, (Prod.mk.inj h).1.symm⟩, .inr (Prod.mk.inj h).2.symm⟩)
  rw [if_neg h4] at h
  cases hr : io.runErr with
  | some e =>
    rw [hr] at h
    exact .inr (.inl ⟨⟨_, (Prod.mk.inj h).1.symm⟩, .inr (Prod.mk.inj h).2.symm⟩)
  | none =>
  rw [hr] at h
  dsimp only at h
  by_cases h5 : convertOutPath inPath ∉ runClient fs (convertOutPath inPath) io.wrote
  · rw [if_pos h5] at h
    exact .inr (.inl ⟨⟨_, (Prod.mk.inj h).1.symm⟩, .inr (Prod.mk.inj h).2.symm⟩)
  rw [if_neg h5] at h
  refine .inr (.inr ⟨?_, not_not.1 h5, ?_⟩) <;> split at h <;> simp only [Prod.mk.injEq] at h
  · exact h.1.symm
  · exact h.1.symm
  · exact .inl h.2.symm
  · exact .inr h.2.symm

theorem runClient_changesOnly (fs : Files) (o : String) (wrote : Bool) : ChangesOnly (· = o) fs (runClient fs o wrote) := by
  unfold runClient
  split
  · exact (changesOnly_remove fs o).trans (changesOnly_cons _ o)
  · exact changesOnly_remove fs o

/-- The conversion changes only its output and its input. -/
theorem convertXLSIfNeeded_changesOnly (getenv : String → String) (fs : Files) (inPath : String) (io : ConvertIO) :
    ChangesOnly (fun q => q = convertOutPath inPath ∨ q = inPath) fs (convertXLSIfNeeded getenv fs inPath io).2 := by
  have hrun : ChangesOnly (fun q => q = convertOutPath inPath ∨ q = inPath) fs
      (runClient fs (convertOutPath inPath) io.wrote) := (runClient_changesOnly fs _ io.wrote).mono fun _ => .inl
  rcases convertXLSIfNeeded_cases (Prod.mk.eta).symm with ⟨-, h⟩ | ⟨-, h | h⟩ | ⟨-, -, h | h⟩ <;> rw [h]
  · exact .rfl
  · exact .rfl
  · exact hrun
  · exact hrun
  · exact hrun.trans ((changesOnly_remove _ inPath).mono fun _ => .inr)

/-! ## Extensions -/

theorem extRev_append_slash : ∀ (l r : List Char), extRev (l ++ '/' :: r) = extRev l
  | [], _ => by simp [extRev]
  | c :: l, r => by rw [List.cons_append, extRev, extRev, extRev_append_slash l r]

theorem extRev_append : ∀ {l e : List Char}, extRev l = some e → ∀ m, extRev (l ++ m) = some e
  | [], _, h, _ => nomatch h
  | c :: l, e, h, m => by
    rw [extRev] at h
    rw [List.cons_append, extRev]
    split_ifs at h ⊢
    · exact h
    · obtain ⟨e', he', rfl⟩ := Option.map_eq_some'.1 h
      rw [extRev_append he' m]
      rfl

theorem extRev_of_not_mem : ∀ {m : List Char}, '.' ∉ m → extRev m = none
  | [], _ => rfl
  | c :: m, h => by
    rw [List.mem_cons, not_or] at h
    rw [extRev, if_neg (Ne.symm h.1), extRev_of_not_mem h.2]
    simp

theorem extRev_append_of_none : ∀ {l : List Char}, extRev l = none → ∀ {m : List Char}, '.' ∉ m →
    extRev (l ++ m) = none
  | [], _, _, hm => extRev_of_not_mem hm
  | c :: l, h, m, hm => by
    rw [extRev] at h
    rw [List.cons_append, extRev]
    split_ifs at h ⊢
    · rfl
    · rw [extRev_append_of_none (Option.map_eq_none'.1 h) hm]
      rfl

/-- What `filepath.Ext` finds is a `.` and the runes after it, none of them a `.`. -/
theorem extRev_spec : ∀ {l e : List Char}, extRev l = some e →
    ∃ t s, e = '.' :: t ∧ '.' ∉ t ∧ l = t.reverse ++ '.' :: s
  | [], _, h => nomatch h
  | c :: l, e, h => by
    rw [extRev] at h
    split_ifs at h with h1 h2
    · cases h
      exact ⟨[], l, rfl, List.not_mem_nil _, by rw [h2]; rfl⟩
    · obtain ⟨e', he', rfl⟩ := Option.map_eq_some'.1 h
      obtain ⟨t, s, rfl, ht, rfl⟩ := extRev_spec he'
      refine ⟨t ++ [c], s, rfl, ?_, by simp⟩
      simpa [List.mem_append, Ne.symm h2] using ht

theorem trimSuffix_of_data {p e : String} {a : List Char} (h : p.data = a ++ e.data) : trimSuffix p e = ⟨a⟩ := by
  have hs : e.data.isSuffixOf p.data = true := by
    rw [h]; exact List.isSuffixOf_iff_suffix.2 (List.suffix_append a e.data)
  rw [trimSuffix, if_pos hs]
  have hl : p.length - e.length = a.length := by
    show p.data.length - e.data.length = a.length
    rw [h, List.length_append, Nat.add_sub_cancel]
  congr 1
  rw [hl, h]
  exact List.take_left _ _

/-- A path is its stem followed by its extension, and the extension holds no `.` after its first rune. -/
theorem pathExt_spec (p : String) : ∃ a, p.data = a ++ (pathExt p).data ∧ '.' ∉ (pathExt p).data.drop 1 := by
  rcases h : extRev p.data.reverse with _ | e
  · refine ⟨p.data, ?_, ?_⟩ <;> simp [pathExt, h]
  · obtain ⟨t, s, rfl, ht, hs⟩ := extRev_spec h
    refine ⟨s.reverse, ?_, by simpa [pathExt, h] using ht⟩
    rw [← List.reverse_reverse p.data, hs]
    simp [pathExt, h]

/-- The extension of a path that ends in `.xlsx`, once trimmed, is `.xlsx`. -/
theorem pathExt_trimSpace_xlsx {p : String} {a : List Char} (h : p.data = a ++ ".xlsx".data) :
    pathExt (trimSpace p) = ".xlsx" := by
  have ht : (trimSpace p).data = a.dropWhile isSpace ++ ".xlsx".data := by
    rw [trimSpace, h, show ".xlsx".data = '.' :: "xlsx".data from rfl, dropWhile_append_cons (by decide),
      show a.dropWhile isSpace ++ '.' :: "xlsx".data = (a.dropWhile isSpace ++ ".xls".data) ++ ['x'] by simp,
      rdropWhile_append_cons (by decide)]
    simp
  apply String.ext
  rw [pathExt, ht, List.reverse_append, extRev_append (show extRev ".xlsx".data.reverse = some ".xlsx".data from rfl)]
  rfl

/-- **The conversion never writes over its input**: whatever the input path, `xxx.xls` becomes `xxx.xlsx`
and a mislabelled `xxx.<ext>` becomes `xxx.converted.xlsx`, a path other than the input's. -/
theorem convertOutPath_ne (inPath : String) : convertOutPath inPath ≠ inPath := by
  obtain ⟨a, ha, hdot⟩ := pathExt_spec inPath
  intro h
  have e := congrArg String.data h
  rw [convertOutPath, trimSuffix_of_data ha] at e
  split_ifs at e with hx <;> rw [String.data_append, ha] at e <;> have he := List.append_cancel_left e
  · rw [← he] at ha
    rw [pathExt_trimSpace_xlsx ha] at hx
    exact absurd hx (by decide)
  · rw [← he] at hdot
    exact hdot (by decide)

theorem mem_runClient_of_ne {fs : Files} {o q : String} (wrote : Bool) (hq : q ∈ fs) (hne : q ≠ o) :
    q ∈ runClient fs o wrote :=
  (runClient_changesOnly fs o wrote).2 q hq hne

/-- **A conversion loses no input**: a failed one leaves its input on disk, and a successful one leaves the
path it returns there, converted or not. -/
theorem convertXLSIfNeeded_keeps_files (getenv : String → String) {fs : Files} {inPath : String} (io : ConvertIO)
    (hin : inPath ∈ fs) :
    (∀ e, (convertXLSIfNeeded getenv fs inPath io).1 = .error e → inPath ∈ (convertXLSIfNeeded getenv fs inPath io).2) ∧
    ∀ p c, (convertXLSIfNeeded getenv fs inPath io).1 = .ok (p, c) → p ∈ (convertXLSIfNeeded getenv fs inPath io).2 := by
  have hne := convertOutPath_ne inPath
  rcases convertXLSIfNeeded_cases (Prod.mk.eta).symm with ⟨hr, h⟩ | ⟨⟨e, hr⟩, h⟩ | ⟨hr, hmem, h⟩
  · refine ⟨fun e he => (by rw [hr] at he; cases he), fun p c hp => ?_⟩
    rw [hr] at hp
    cases hp
    rw [h]
    exact hin
  · refine ⟨fun _ _ => ?_, fun p c hp => (by rw [hr] at hp; cases hp)⟩
    rcases h with h | h <;> rw [h]
    · exact hin
    · exact mem_runClient_of_ne io.wrote hin (Ne.symm hne)
  · refine ⟨fun e he => (by rw [hr] at he; cases he), fun p c hp => ?_⟩
    rw [hr] at hp
    cases hp
    rcases h with h | h <;> rw [h]
    · exact hmem
    · exact mem_remove.2 ⟨hmem, hne⟩

theorem convertXLSIfNeeded_keeps_files_xls :
    "tmp/file1_a.xls" ∈ ["tmp/file1_a.xls"] ∧
    (∀ e, (convertXLSIfNeeded (fun _ => "") ["tmp/file1_a.xls"] "tmp/file1_a.xls" ⟨[], true, "", false, none, false⟩).1 =
        .error e →
      "tmp/file1_a.xls" ∈
        (convertXLSIfNeeded (fun _ => "") ["tmp/file1_a.xls"] "tmp/file1_a.xls" ⟨[], true, "", false, none, false⟩).2) ∧
    ∀ p c, (convertXLSIfNeeded (fun _ => "") ["tmp/file1_a.xls"] "tmp/file1_a.xls" ⟨[], true, "", false, none, false⟩).1 =
        .ok (p, c) →
      p ∈ (convertXLSIfNeeded (fun _ => "") ["tmp/file1_a.xls"] "tmp/file1_a.xls" ⟨[], true, "", false, none, false⟩).2 :=
  have hin : "tmp/file1_a.xls" ∈ ["tmp/file1_a.xls"] := .head _
  ⟨hin, convertXLSIfNeeded_keeps_files (fun _ => "") ⟨[], true, "", false, none, false⟩ hin⟩

/-! ## The slots of the job directory -/

/-- `q` is a file of slot `w` in `dir`: `dir/w_…`. -/
def InSlot (dir : String) (w : List Char) (q : String) : Prop := ∃ y, q.data = dir.data ++ '/' :: (w ++ '_' :: y)

theorem InSlot.inDir {dir q : String} {w : List Char} (h : InSlot dir w q) : inDir dir q = true := by
  obtain ⟨y, hy⟩ := h
  rw [show q = ⟨dir.data ++ '/' :: (w ++ '_' :: y)⟩ from String.ext hy]
  exact inDir_append _ _

theorem InSlot.ne {dir q₁ q₂ : String} {w₁ w₂ : List Char} (h₁ : InSlot dir w₁ q₁) (h₂ : InSlot dir w₂ q₂)
    (hl : w₁.length = w₂.length) (hw : w₁ ≠ w₂) : q₁ ≠ q₂ := by
  obtain ⟨y₁, e₁⟩ := h₁
  obtain ⟨y₂, e₂⟩ := h₂
  intro h
  rw [h, e₂] at e₁
  exact hw (List.append_inj (List.cons.inj (List.append_cancel_left e₁)).2 hl.symm).1.symm

/-- A slot file is not a child of the directory whose name does not start with the slot's `w_`. -/
theorem InSlot.ne_child {dir q r : String} {w t : List Char} (h : InSlot dir w q) (hr : r.data = dir.data ++ '/' :: t)
    (ht : (w ++ ['_']).isPrefixOf t = false) : q ≠ r := by
  obtain ⟨y, hy⟩ := h
  intro e
  rw [e, hr] at hy
  have hp : (w ++ ['_']).isPrefixOf t = true := by
    rw [(List.cons.inj (List.append_cancel_left hy)).2, List.isPrefixOf_iff_prefix]
    exact ⟨y, by simp⟩
  rw [hp] at ht
  cases ht

theorem InSlot.trimSpace {dir q : String} {w : List Char} (h : InSlot dir w q)
    (hhead : ∀ c, dir.data.head? = some c → isSpace c = false) (hd : dir.data ≠ []) : InSlot dir w (trimSpace q) := by
  obtain ⟨y, hy⟩ := h
  obtain ⟨c, cs, hc⟩ := List.exists_cons_of_ne_nil hd
  have hc' : isSpace c = false := hhead c (by rw [hc]; rfl)
  refine ⟨y.rdropWhile isSpace, ?_⟩
  rw [Guangyang.trimSpace, hy, hc, List.cons_append, List.dropWhile_cons_of_neg (by simp [hc']), ← List.cons_append,
    ← hc, show dir.data ++ '/' :: (w ++ '_' :: y) = (dir.data ++ '/' :: w) ++ '_' :: y by simp,
    rdropWhile_append_cons isSpace_underscore]
  simp

/-- The conversion of a slot file writes in the same slot. -/
theorem InSlot.convertOutPath {dir q : String} {w : List Char} (h : InSlot dir w q) (hw : '.' ∉ w) :
    InSlot dir w (convertOutPath q) := by
  obtain ⟨y, hy⟩ := h
  have hrev : q.data.reverse = (y.reverse ++ '_' :: w.reverse) ++ '/' :: dir.data.reverse := by simp [hy]
  have hstem : ∃ y', (trimSuffix q (pathExt q)).data = dir.data ++ '/' :: (w ++ '_' :: y') := by
    rcases he : extRev y.reverse with _ | e
    · have h0 : pathExt q = "" := by
        rw [pathExt, hrev, extRev_append_slash, extRev_append_of_none he (by simpa [eq_comm] using hw)]
        rfl
      exact ⟨y, by rw [h0, trimSuffix_of_data (List.append_nil q.data).symm, hy]⟩
    · obtain ⟨t, s, rfl, -, hs⟩ := extRev_spec he
      have h0 : pathExt q = ⟨'.' :: t⟩ := by
        rw [pathExt, hrev, extRev_append_slash, extRev_append he]
        rfl
      have hy' : y = s.reverse ++ '.' :: t := by rw [← List.reverse_reverse y, hs]; simp
      refine ⟨s.reverse, ?_⟩
      rw [h0, trimSuffix_of_data (a := dir.data ++ '/' :: (w ++ '_' :: s.reverse)) (by rw [hy, hy']; simp)]
  obtain ⟨y', hy'⟩ := hstem
  unfold WorkerDisk.convertOutPath
  split
  · exact ⟨y' ++ ".xlsx".data, by rw [String.data_append, hy']; simp⟩
  · exact ⟨y' ++ ".converted.xlsx".data, by rw [String.data_append, hy']; simp⟩

/-! ## The compute steps -/

theorem compareExportOnDisk_mem {cls : Classifiers} {sheetAt : String → List (List String)} {fs : Files}
    {file1Path file2Path outPath : String} {art : Artifacts}
    (h : compareExportOnDisk cls sheetAt fs file1Path file2Path outPath = .ok art) : file1Path ∈ fs ∧ file2Path ∈ fs := by
  constructor <;> by_contra hn <;> simp only [compareExportOnDisk, hn, not_false_eq_true, ↓reduceIte] at h <;>
    split_ifs at h
  split at h
  · cases h
  · split_ifs at h

/-- **Once both files open, the export on the disk is the pure export** of their first sheets. -/
theorem compareExportOnDisk_eq (cls : Classifiers) (sheetAt : String → List (List String)) {fs : Files}
    {file1Path file2Path : String} (outPath : String) (h1 : file1Path ∈ fs) (h2 : file2Path ∈ fs) :
    compareExportOnDisk cls sheetAt fs file1Path file2Path outPath =
      compareExportArtifacts cls (sheetAt file1Path) (sheetAt file2Path) file1Path file2Path outPath := by
  simp only [compareExportOnDisk, h1, h2, not_true_eq_false, if_false]
  rfl

theorem savedPath_file1 (d n : String) : savedPath d "file1" n = pathJoin [d, "file1_" ++ safeBaseNameFromName n] := by
  rw [savedPath, if_neg (by decide)]

theorem savedPath_file2 (d n : String) : savedPath d "file2" n = pathJoin [d, "file2_" ++ safeBaseNameFromName n] := by
  rw [savedPath, if_pos (by decide)]

section Stage

variable (cls : Classifiers) (sheetAt : String → List (List String)) (getenv : String → String)
  (tmpRoot ossPrefix : String) (buf : Option (List UInt8)) (unixNano : Int) (job : CompareJob) (io : ComputeIO)

theorem jobDir_ne (tmpRoot : String) (buf : Option (List UInt8)) (unixNano : Int) :
    (jobDir tmpRoot (newJobID buf unixNano)).data ≠ ['.'] ∧ (jobDir tmpRoot (newJobID buf unixNano)).data ≠ ['/'] ∧
      (jobDir tmpRoot (newJobID buf unixNano)).data ≠ [] :=
  (jobDir_endsIn tmpRoot (newJobID_plain buf unixNano)).ne_of_plain (newJobID_plain buf unixNano)

theorem savedPath_inSlot {w : String} (hw : w = "file1" ∨ w = "file2") (n : String) :
    InSlot (jobDir tmpRoot (newJobID buf unixNano)) w.data (savedPath (jobDir tmpRoot (newJobID buf unixNano)) w n) :=
  ⟨_, savedPath_data (jobDir_clean tmpRoot _) (jobDir_ne tmpRoot buf unixNano) hw n⟩

/-- Where the export writes: `<jobDir>/comparison_result.xlsx`. -/
theorem resultPath_data :
    (pathJoin [jobDir tmpRoot (newJobID buf unixNano), "comparison_result.xlsx"]).data =
      (jobDir tmpRoot (newJobID buf unixNano)).data ++ '/' :: "comparison_result.xlsx".data := by
  have hne := jobDir_ne tmpRoot buf unixNano
  exact pathJoin_child (jobDir_clean tmpRoot _) (fun e => hne.1 (congrArg String.data e))
    (fun e => hne.2.1 (congrArg String.data e)) (fun e => hne.2.2 (congrArg String.data e)) (by decide)

end Stage


theorem computeStage_local (tmpRoot jobID : String) (job : CompareJob) :
    pathJoin [jobDir tmpRoot jobID, "file1_" ++ safeBaseNameFromName job.file1Name] =
        savedPath (jobDir tmpRoot jobID) "file1" job.file1Name ∧
      pathJoin [jobDir tmpRoot jobID, "file2_" ++ safeBaseNameFromName job.file2Name] =
        savedPath (jobDir tmpRoot jobID) "file2" job.file2Name :=
  ⟨(savedPath_file1 _ _).symm, (savedPath_file2 _ _).symm⟩

theorem convertXLSIfNeeded_ok_inSlot {getenv : String → String} {fs fs' : Files} {dir q p : String}
    {w : List Char} {io : ConvertIO} {c : Bool} (hq : InSlot dir w q) (hw : '.' ∉ w)
    (h : convertXLSIfNeeded getenv fs q io = (.ok (p, c), fs')) : InSlot dir w p := by
  rcases convertXLSIfNeeded_cases h with ⟨hr, -⟩ | ⟨⟨e, hr⟩, -⟩ | ⟨hr, -⟩ <;> cases hr
  · exact hq
  · exact hq.convertOutPath hw

theorem generateOnDisk_ok {cls : Classifiers} {sheetAt : String → List (List String)} {fs fs' : Files}
    {file1Path file2Path outPath : String} {write : WriteIO}
    (h : generateOnDisk cls sheetAt fs file1Path file2Path outPath write = (.ok (), fs')) :
    file1Path ∈ fs ∧ file2Path ∈ fs ∧ fs' = outPath :: fs := by
  unfold generateOnDisk at h
  split at h
  · cases h
  next art hart =>
    cases write <;> cases h
    exact ⟨(compareExportOnDisk_mem hart).1, (compareExportOnDisk_mem hart).2, rfl⟩

/-- **The steps of a successful run**: both downloads and both conversions succeed, the export opens what
the conversions returned, and the result is written and then removed. -/
theorem computeStage_ok {cls : Classifiers} {sheetAt : String → List (List String)} {getenv : String → String}
    {tmpRoot ossPrefix jobID : String} {job : CompareJob} {io : ComputeIO} {fs fs' : Files}
    (h : computeStage cls sheetAt getenv tmpRoot ossPrefix jobID job io fs = (none, fs')) :
    ∃ fs₁ fs₂ new1 c₁ fs₃ new2 c₂ fs₄,
      getObjectToFile true fs job.file1OSSKey (savedPath (jobDir tmpRoot jobID) "file1" job.file1Name) io.fetch1 =
        (.ok (), fs₁) ∧
      getObjectToFile true fs₁ job.file2OSSKey (savedPath (jobDir tmpRoot jobID) "file2" job.file2Name) io.fetch2 =
        (.ok (), fs₂) ∧
      convertXLSIfNeeded getenv fs₂ (savedPath (jobDir tmpRoot jobID) "file1" job.file1Name) io.convert1 =
        (.ok (new1, c₁), fs₃) ∧
      convertXLSIfNeeded getenv fs₃ (savedPath (jobDir tmpRoot jobID) "file2" job.file2Name) io.convert2 =
        (.ok (new2, c₂), fs₄) ∧
      new1 ∈ fs₄ ∧ new2 ∈ fs₄ ∧
      fs' = remove (pathJoin [jobDir tmpRoot jobID, "comparison_result.xlsx"] :: fs₄)
        (pathJoin [jobDir tmpRoot jobID, "comparison_result.xlsx"]) := by
  unfold computeStage at h
  split at h
  · cases h
  dsimp only at h
  rw [(computeStage_local _ _ job).1, (computeStage_local _ _ job).2] at h
  split at h
  · cases h
  next fs₁ h₁ =>
  split at h
  · cases h
  next fs₂ h₂ =>
  split at h
  · cases h
  next new1 c₁ fs₃ h₃ =>
  split at h
  · cases h
  next new2 c₂ fs₄ h₄ =>
  split at h
  · cases h
  next fs₅ h₅ =>
  split at h
  · cases h
  cases h
  obtain ⟨hm1, hm2, rfl⟩ := generateOnDisk_ok h₅
  exact ⟨fs₁, fs₂, new1, c₁, fs₃, new2, c₂, fs₄, h₁, h₂, h₃, h₄, hm1, hm2, rfl⟩

/-- Each compute step changes the disk only inside the job directory, so all of them together do. -/
theorem computeStage_changesOnly (cls : Classifiers) (sheetAt : String → List (List String))
    (getenv : String → String) (tmpRoot ossPrefix : String) (buf : Option (List UInt8)) (unixNano : Int)
    (job : CompareJob) (io : ComputeIO) (fs : Files)
    (htmp : ∀ c, (jobDir tmpRoot (newJobID buf unixNano)).data.head? = some c → isSpace c = false) :
    ChangesOnly (fun q => inDir (jobDir tmpRoot (newJobID buf unixNano)) q = true) fs
      (computeStage cls sheetAt getenv tmpRoot ossPrefix (newJobID buf unixNano) job io fs).2 := by
  have hd0 := (jobDir_ne tmpRoot buf unixNano).2.2
  have hs1 := savedPath_inSlot tmpRoot buf unixNano (.inl rfl) job.file1Name
  have hs2 := savedPath_inSlot tmpRoot buf unixNano (.inr rfl) job.file2Name
  have hres := resultPath_data tmpRoot buf unixNano
  unfold computeStage
  split
  · exact .rfl
  dsimp only
  rw [(computeStage_local _ _ job).1, (computeStage_local _ _ job).2]
  generalize jobDir tmpRoot (newJobID buf unixNano) = dir at htmp hd0 hs1 hs2 hres ⊢
  -- each step changes the disk only inside the job directory
  have hdl : ∀ {w q key fs₀ fs'} {io' : FetchIO} {r : Except String Unit}, InSlot dir w q →
      getObjectToFile true fs₀ key q io' = (r, fs') → ChangesOnly (fun q => inDir dir q = true) fs₀ fs' :=
    fun {w q key fs₀ fs' io' r} hq h => by
      have := (getObjectToFile_changesOnly true fs₀ key q io').mono fun _ e => e ▸ (hq.trimSpace htmp hd0).inDir
      rwa [h] at this
  have hcv : ∀ {w q fs₀ fs'} {io' : ConvertIO} {r : Except String (String × Bool)}, InSlot dir w q → '.' ∉ w →
      convertXLSIfNeeded getenv fs₀ q io' = (r, fs') → ChangesOnly (fun q => inDir dir q = true) fs₀ fs' :=
    fun {w q fs₀ fs' io' r} hq hw h => by
      have := (convertXLSIfNeeded_changesOnly getenv fs₀ q io').mono fun _ e =>
        e.elim (fun e => e ▸ (hq.convertOutPath hw).inDir) (fun e => e ▸ hq.inDir)
      rwa [h] at this
  have hr : inDir dir (pathJoin [dir, "comparison_result.xlsx"]) = true := by
    rw [show pathJoin [dir, "comparison_result.xlsx"] = ⟨_⟩ from String.ext hres]
    exact inDir_append _ _
  have hgen : ∀ {fs₀ fs' q₁ q₂} {r : Except String Unit},
      generateOnDisk cls sheetAt fs₀ q₁ q₂ (pathJoin [dir, "comparison_result.xlsx"]) io.generate = (r, fs') →
      ChangesOnly (fun q => inDir dir q = true) fs₀ fs' := fun {fs₀ fs' q₁ q₂ r} h => by
    have := (generateOnDisk_changesOnly cls sheetAt fs₀ q₁ q₂ (pathJoin [dir, "comparison_result.xlsx"])
      io.generate).mono fun _ e => e ▸ hr
    rwa [h] at this
  split
  next e fs₁ h₁ => exact hdl hs1 h₁
  next fs₁ h₁ =>
  split
  next e fs₂ h₂ => exact (hdl hs1 h₁).trans (hdl hs2 h₂)
  next fs₂ h₂ =>
  have h12 := (hdl hs1 h₁).trans (hdl hs2 h₂)
  split
  next e fs₃ h₃ => exact h12.trans (hcv hs1 (by decide) h₃)
  next new1 c₁ fs₃ h₃ =>
  have h123 := h12.trans (hcv hs1 (by decide) h₃)
  split
  next e fs₄ h₄ => exact h123.trans (hcv hs2 (by decide) h₄)
  next new2 c₂ fs₄ h₄ =>
  have h1234 := h123.trans (hcv hs2 (by decide) h₄)
  split
  next e fs₅ h₅ => exact h1234.trans (hgen h₅)
  next fs₅ h₅ =>
  split
  · exact h1234.trans (hgen h₅)
  · exact (h1234.trans (hgen h₅)).trans ((changesOnly_remove fs₅ (pathJoin [dir, "comparison_result.xlsx"])).mono
    fun _ e => e ▸ hr)

/-- **The compute steps change nothing outside the job directory**, whatever they meet, when the job
directory does not start with white space (the downloads write at the trimmed path). -/
theorem computeStage_changes_only_jobDir (cls : Classifiers) (sheetAt : String → List (List String))
    (getenv : String → String) (tmpRoot ossPrefix : String) (buf : Option (List UInt8)) (unixNano : Int)
    (job : CompareJob) (io : ComputeIO) (fs : Files)
    (htmp : ∀ c, (jobDir tmpRoot (newJobID buf unixNano)).data.head? = some c → isSpace c = false) :
    ChangesOnly (fun q => inDir (jobDir tmpRoot (newJobID buf unixNano)) q = true) fs
      (computeStage cls sheetAt getenv tmpRoot ossPrefix (newJobID buf unixNano) job io fs).2 :=
  computeStage_changesOnly cls sheetAt getenv tmpRoot ossPrefix buf unixNano job io fs htmp

/-- A job whose two inputs are saved workbooks, as the intake records them. -/
def sampleJob : CompareJob :=
  ⟨"job_7", .processing, "compare-inputs/job_7/file1_a.xlsx", "compare-inputs/job_7/file2_b.xlsx", "a.xlsx",
    "b.xlsx", "", "", 0, "", false, none, none, ""⟩

/-- A compare run whose every step succeeds, with no conversion. -/
def sampleCompute : ComputeIO :=
  ⟨.ok (), ⟨.ok (), .ok (), .ok⟩, ⟨.ok (), .ok (), .ok⟩, ⟨[], true, "", false, none, false⟩,
    ⟨[], true, "", false, none, false⟩, .ok, .ok (), .ok ()⟩

/-- Classifiers that read no cell as a number. -/
def plainClassifiers : Classifiers := ⟨fun _ => false, fun _ => false⟩

/-- The job directory `tmp/compare_jobs/job_7` starts with `t`. -/
theorem jobDir_sample_head : ∀ c, (jobDir "./tmp" (newJobID none 7)).data.head? = some c → isSpace c = false :=
  fun c hc => by
    have e : (jobDir "./tmp" (newJobID none 7)).data.head? = some 't' := rfl
    rw [e] at hc
    cases hc
    decide

theorem computeStage_changes_only_jobDir_sample :
    (∀ c, (jobDir "./tmp" (newJobID none 7)).data.head? = some c → isSpace c = false) ∧
    ChangesOnly (fun q => inDir (jobDir "./tmp" (newJobID none 7)) q = true) ["./tmp/keep.txt"]
      (computeStage plainClassifiers (fun _ => [["id", "v"], ["1", "x"]]) (fun _ => "") "./tmp" "compare-results"
        (newJobID none 7) sampleJob sampleCompute ["./tmp/keep.txt"]).2 :=
  ⟨jobDir_sample_head, computeStage_changes_only_jobDir plainClassifiers _ _ "./tmp" "compare-results" none 7
    sampleJob sampleCompute _ jobDir_sample_head⟩

/-- **One job's intake and compare run leave every file of another job's directory as it was**: the two
directories are apart, and each stage changes the disk only inside its own. -/
theorem stages_keep_other_jobs {tmpRoot : String} {buf buf' : Option (List UInt8)} {unixNano unixNano' : Int}
    (hne : newJobID buf unixNano ≠ newJobID buf' unixNano') {q : String}
    (hq : inDir (jobDir tmpRoot (newJobID buf' unixNano')) q = true) :
    (∀ method inputPfx env fs,
      q ∈ (uploadInputs method tmpRoot inputPfx (newJobID buf unixNano) env fs).2 ↔ q ∈ fs) ∧
    ((∀ c, (jobDir tmpRoot (newJobID buf unixNano)).data.head? = some c → isSpace c = false) →
      ∀ cls sheetAt getenv ossPrefix job io fs,
        q ∈ (computeStage cls sheetAt getenv tmpRoot ossPrefix (newJobID buf unixNano) job io fs).2 ↔ q ∈ fs) := by
  obtain ⟨hq₁, hq₂⟩ := jobDir_apart tmpRoot (newJobID_plain buf unixNano) (newJobID_plain buf' unixNano') hne hq
  have hout : ¬ inDir (jobDir tmpRoot (newJobID buf unixNano)) q = true := by simp [hq₂]
  refine ⟨fun method inputPfx env fs => ⟨fun h => ?_, fun h => uploadInputs_keeps_outside _ _ _ _ _ env fs q h hq₁ hq₂⟩,
    fun htmp cls sheetAt getenv ossPrefix job io fs => ?_⟩
  · exact (uploadInputs_new_in_jobDir _ _ _ _ _ env fs q h).resolve_right hout
  · have hc := computeStage_changesOnly cls sheetAt getenv tmpRoot ossPrefix buf unixNano job io fs htmp
    exact ⟨fun h => (hc.1 q h).resolve_right hout, fun h => hc.2 q h hout⟩

theorem stages_keep_other_jobs_sample :
    newJobID none 7 ≠ newJobID none 8 ∧ inDir (jobDir "./tmp" (newJobID none 8)) "tmp/compare_jobs/job_8/file1_a.xlsx" = true ∧
    (∀ c, (jobDir "./tmp" (newJobID none 7)).data.head? = some c → isSpace c = false) ∧
    (∀ method inputPfx env fs,
      "tmp/compare_jobs/job_8/file1_a.xlsx" ∈ (uploadInputs method "./tmp" inputPfx (newJobID none 7) env fs).2 ↔
        "tmp/compare_jobs/job_8/file1_a.xlsx" ∈ fs) ∧
    ((∀ c, (jobDir "./tmp" (newJobID none 7)).data.head? = some c → isSpace c = false) →
      ∀ cls sheetAt getenv ossPrefix job io fs,
        "tmp/compare_jobs/job_8/file1_a.xlsx" ∈ (computeStage cls sheetAt getenv "./tmp" ossPrefix (newJobID none 7) job io fs).2 ↔
          "tmp/compare_jobs/job_8/file1_a.xlsx" ∈ fs) :=
  ⟨by decide, by decide, jobDir_sample_head,
    @stages_keep_other_jobs "./tmp" none none 7 8 (by decide) "tmp/compare_jobs/job_8/file1_a.xlsx" (by decide)⟩

/-! ## Names that end in white space -/

theorem trimSpace_ne_of_getLast {q : String} {c : Char} (h : q.data.getLast? = some c) (hc : isSpace c = true) :
    trimSpace q ≠ q := fun e => by
  rw [← e] at h
  simp [getLast_trimSpace h] at hc

theorem convertXLSIfNeeded_of_not_mem {getenv : String → String} {fs : Files} {inPath : String} (io : ConvertIO)
    (hin : inPath ∉ fs) (hne : inPath ≠ "") (hext : toLower (pathExt (trimSpace inPath)) ≠ ".xls") :
    convertXLSIfNeeded getenv fs inPath io = (.ok (inPath, false), fs) := by
  unfold convertXLSIfNeeded
  rw [if_neg hne]
  dsimp only
  rw [if_neg hin, if_neg (fun h => hext h.1), if_pos ⟨hext, by decide⟩]

/-- **A job whose file 1 name ends in white space never completes unconverted**: the download writes at the
trimmed local path, and the export opens the untrimmed one, where no file is.  This holds for every job
directory that does not start with white space and holds no file yet. -/
theorem computeStage_trailing_space {cls : Classifiers} {sheetAt : String → List (List String)}
    {getenv : String → String} {tmpRoot ossPrefix : String} {buf : Option (List UInt8)} {unixNano : Int}
    {job : CompareJob} {io : ComputeIO} {fs : Files}
    (htmp : ∀ c, (jobDir tmpRoot (newJobID buf unixNano)).data.head? = some c → isSpace c = false)
    (hfresh : ∀ q ∈ fs, inDir (jobDir tmpRoot (newJobID buf unixNano)) q = false)
    (hsp : ∃ c, (safeBaseNameFromName job.file1Name).data.getLast? = some c ∧ isSpace c = true)
    (hext : toLower (pathExt (trimSpace (savedPath (jobDir tmpRoot (newJobID buf unixNano)) "file1" job.file1Name)))
      ≠ ".xls") :
    (computeStage cls sheetAt getenv tmpRoot ossPrefix (newJobID buf unixNano) job io fs).1 ≠ none := by
  intro h
  obtain ⟨fs₁, fs₂, new1, c₁, fs₃, new2, c₂, fs₄, h₁, h₂, h₃, h₄, hm1, -, -⟩ := computeStage_ok (Prod.ext h rfl)
  obtain ⟨c, hc, hcs⟩ := hsp
  have hd0 := (jobDir_ne tmpRoot buf unixNano).2.2
  have hs1 := savedPath_inSlot tmpRoot buf unixNano (.inl rfl) job.file1Name
  have hs2 := savedPath_inSlot tmpRoot buf unixNano (.inr rfl) job.file2Name
  have ht1 := trimSpace_ne_of_getLast
    (savedPath_getLast (jobDir_clean tmpRoot _) (jobDir_ne tmpRoot buf unixNano) (.inl rfl) hc hcs) hcs
  generalize savedPath (jobDir tmpRoot (newJobID buf unixNano)) "file1" job.file1Name = l1 at *
  generalize savedPath (jobDir tmpRoot (newJobID buf unixNano)) "file2" job.file2Name = l2 at *
  have hl1 : l1 ∉ fs := fun hm => by have := hfresh l1 hm; rw [hs1.inDir] at this; cases this
  -- the downloads add the trimmed paths only
  have hl1' : l1 ∉ fs₂ := by
    have d1 := getObjectToFile_changesOnly true fs job.file1OSSKey l1 io.fetch1
    have d2 := getObjectToFile_changesOnly true fs₁ job.file2OSSKey l2 io.fetch2
    rw [h₁] at d1
    rw [h₂] at d2
    exact d2.not_mem (d1.not_mem hl1 (Ne.symm ht1)) (hs1.ne (hs2.trimSpace htmp hd0) rfl (by decide))
  have hne : l1 ≠ "" := fun e => by
    have := hs1.inDir
    rw [e] at this
    simp [inDir] at this
  -- so the conversion returns the untrimmed path, as it is
  rw [convertXLSIfNeeded_of_not_mem io.convert1 hl1' hne hext] at h₃
  cases h₃
  have d4 := convertXLSIfNeeded_changesOnly getenv fs₂ l2 io.convert2
  rw [h₄] at d4
  exact d4.not_mem hl1' (fun e => e.elim (hs1.ne (hs2.convertOutPath (by decide)) rfl (by decide))
    (hs1.ne hs2 rfl (by decide))) hm1

/-- A job whose file 1 name is `a.xlsx ` -/
def spacedJob : CompareJob := { sampleJob with file1Name := "a.xlsx " }

theorem computeStage_trailing_space_sample :
    (∀ c, (jobDir "./tmp" (newJobID none 7)).data.head? = some c → isSpace c = false) ∧
    (∀ q ∈ ([] : Files), inDir (jobDir "./tmp" (newJobID none 7)) q = false) ∧
    (∃ c, (safeBaseNameFromName spacedJob.file1Name).data.getLast? = some c ∧ isSpace c = true) ∧
    toLower (pathExt (trimSpace (savedPath (jobDir "./tmp" (newJobID none 7)) "file1" spacedJob.file1Name))) ≠ ".xls" ∧
    (computeStage plainClassifiers (fun _ => [["id", "v"], ["1", "x"]]) (fun _ => "") "./tmp" "compare-results"
      (newJobID none 7) spacedJob sampleCompute []).1 ≠ none := by
  have hfresh : ∀ q ∈ ([] : Files), inDir (jobDir "./tmp" (newJobID none 7)) q = false := fun _ h => nomatch h
  have hsp : ∃ c, (safeBaseNameFromName spacedJob.file1Name).data.getLast? = some c ∧ isSpace c = true :=
    ⟨' ', by decide, by decide⟩
  have hext : toLower (pathExt (trimSpace (savedPath (jobDir "./tmp" (newJobID none 7)) "file1"
      spacedJob.file1Name))) ≠ ".xls" := by decide
  exact ⟨jobDir_sample_head, hfresh, hsp, hext, computeStage_trailing_space jobDir_sample_head hfresh hsp hext⟩

end Guangyang.WorkerDisk
