import DrawingDiary.Site.Generate
import DrawingDiary.Text.Digits

/-!
# The summary of a generated site

Counts are shown as words of thirty-two bits, a size in whole megabytes.
-/

namespace DrawingDiary.Report

open Text

def pageLine (failed : List String) (month : String) : String :=
  if failed.contains month then "    " ++ month ++ "/" ++ indexFile ++ " (failed)"
  else "    " ++ month ++ "/" ++ indexFile

def pagesWritten (months failed : List String) : UInt64 :=
  months.length.toUInt64 - failed.length.toUInt64

/-- The lines that sum up a run of the generator. -/
def summaryLines (s : Site.Summary) : List String :=
  let assets := if s.linkedAssets.isEmpty then "none" else String.intercalate ", " s.linkedAssets
  let failures :=
    if s.failedMonths.isEmpty then []
    else ["Failed " ++ counted s.failedMonths.length.toUInt32 "month page" "month pages" ++ ": " ++
      String.intercalate ", " s.failedMonths]
  ["Diary: " ++ counted s.days.toUInt32 "day" "days" ++ ", " ++
      counted s.thumbnailsCreated.toUInt32 "thumbnail" "thumbnails" ++ " created, " ++
      (s.diarySize / 1024 / 1024).repr ++ " MB",
    "Assets: " ++ assets, "Pages", "    " ++ indexFile] ++
  s.months.map (pageLine s.failedMonths) ++
  ["Generated " ++
    counted (pagesWritten s.months s.failedMonths).toUInt32 "month page" "month pages"] ++
  failures

end DrawingDiary.Report
