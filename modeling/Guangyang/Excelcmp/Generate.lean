import Guangyang.Excelcmp.Load
import Guangyang.Excelcmp.Export
/-!
# Excelcmp.Generate — `GenerateCompareExportXLSX`

The export reads both files, guessing the key column from file 1's first five rows and reading file
2 under the same key, refuses a file whose key repeats, builds the artifacts and writes the Added,
Removed and Changed sheets.  The model takes each file's first sheet as its rows; the sheet names are
modelled in `Excelcmp.SheetNames`, and the writing of the file is not modelled.
-/
namespace Guangyang.Excelcmp

/-- The text `%v` prints for a list of strings. -/
def goSliceString (xs : List String) : String := "[" ++ " ".intercalate xs ++ "]"

/-- The part of `GenerateCompareExportXLSX` before `excelize`: the path checks, both loads, the
duplicate checks, and `compareArtifactsFromMaps`. -/
def compareExportArtifacts (cls : Classifiers) (sheet1 sheet2 : List (List String))
    (file1Path file2Path outPath : String) : Except String Artifacts :=
  if trimSpace file1Path = "" ∨ trimSpace file2Path = "" then .error "输入文件路径为空" else
  if trimSpace outPath = "" then .error "输出路径为空" else
  match loadKeyedSheetXLSX cls sheet1 5 "" true with
  | .error e => .error ("读取文件1失败: " ++ e)
  | .ok (s1, dup1) =>
    if dup1.length > 0 then
      .error ("文件1主键列“" ++ s1.key ++ "”存在重复值（示例: " ++ goSliceString dup1 ++ "），请先去重或修正后再比对")
    else
    match loadKeyedSheetXLSX cls sheet2 0 s1.key false with
    | .error e => .error ("读取文件2失败: " ++ e)
    | .ok (s2, dup2) =>
      if dup2.length > 0 then
        .error ("文件2主键列“" ++ s1.key ++ "”存在重复值（示例: " ++ goSliceString dup2 ++ "），请先去重或修正后再比对")
      else compareArtifactsFromMaps s1.headers s2.headers s1.rowsByKey s2.rowsByKey s1.key

/-- `GenerateCompareExportXLSX`: the Added, Removed and Changed sheets, in workbook order, or the
error.  `redStyle` is the id `NewStyle` returned for the red fill. -/
def generateCompareExportXLSX (cls : Classifiers) (sheet1 sheet2 : List (List String))
    (file1Path file2Path file1Name file2Name outPath : String) (redStyle : Nat) :
    Except String (List (List (List Cell))) :=
  (compareExportArtifacts cls sheet1 sheet2 file1Path file2Path outPath).map
    (fun art => exportSheets art file1Name file2Name redStyle)

theorem compareExportArtifacts_congr (cls cls' : Classifiers) (rawHeader : List String)
    {data : List (List String)} (sheet2 : List (List String)) (file1Path file2Path outPath : String)
    (hr : ∀ r ∈ data, ∀ v ∈ r, IntegerLikeOrBlank v) :
    compareExportArtifacts cls (rawHeader :: data) sheet2 file1Path file2Path outPath =
      compareExportArtifacts cls' (rawHeader :: data) sheet2 file1Path file2Path outPath := by
  simp only [compareExportArtifacts, loadKeyedSheetXLSX_congr cls cls' rawHeader _ _ _ hr,
    loadKeyedSheetXLSX_noGuess cls cls']

/-- A header row `id, A, A, A.1` names its columns `id, A, A.1, A.1`: the ordered columns repeat
`A.1`, both files index it at its last position, and the third cell of a row is never read.  Rows
that differ only there share key `1`, whatever the classifiers, and the Changed sheet is the
placeholder. -/
theorem repeated_header_column_never_compared (cls : Classifiers) :
    normalizeHeaders ["id", "A", "A", "A.1"] = ["id", "A", "A.1", "A.1"] ∧
    normalizeScalarForCompare "3" ≠ normalizeScalarForCompare "5" ∧
    ∃ art, compareExportArtifacts cls [["id", "A", "A", "A.1"], ["1", "2", "3", "4"]]
        [["id", "A", "A", "A.1"], ["1", "2", "5", "4"]] "in/1.xlsx" "in/2.xlsx" "out/r.xlsx" = .ok art ∧
      art.key = "id" ∧ art.commonKeys = ["1"] ∧ art.orderedCols = ["A", "A.1", "A.1"] ∧
      art.colIdx1 = [1, 3, 3] ∧ art.colIdx2 = [1, 3, 3] ∧
      writeDiffSideBySideStream art "1.xlsx" "2.xlsx" 1 = [[plainCell "无变动项目"]] := by
  refine ⟨by decide, by decide, ?_⟩
  rw [compareExportArtifacts_congr cls ⟨fun _ => false, fun _ => false⟩ _ _ _ _ _ (by decide)]
  exact exists_ok_of_toOption_map (by decide)

end Guangyang.Excelcmp
