import Mathlib.Data.List.Sort
import Mathlib.Data.String.Basic
import TradeMind.Library.Dictionary
import TradeMind.Library.OptimisticStore
import TradeMind.Model.ProcessSignal

/-!
# The Git archives of the weekly reports

`notifier/app/wiki_client.py` and `notifier/app/private_report_client.py`: a publisher clones the
archive, writes the page and the charts of its report and a new index, commits and pushes without
force.  Both archives are `Archive`s, which carry what their updates promise; any number of
publishers and of other writers share the remote.  A report is modelled as rendered.
-/

set_option autoImplicit false

namespace TradeMind.Model.Reports

open TradeMind.Model TradeMind.Library

universe u

/-! ## File names -/

/-- A character of a pattern: a decimal digit, or itself. -/
def matchesPattern : List (Option Char) → List Char → Bool
  | [], [] => true
  | none :: pattern, c :: rest => c.isDigit && matchesPattern pattern rest
  | some d :: pattern, c :: rest => d == c && matchesPattern pattern rest
  | _, _ => false

/-- `\d{4}-\d{2}-\d{2}-\d{6}` -/
def stampPattern : List (Option Char) :=
  List.replicate 4 none ++ some '-' :: List.replicate 2 none ++ some '-' :: List.replicate 2 none ++
    some '-' :: List.replicate 6 none

/-- `_PAGE`. -/
def pagePattern : List (Option Char) :=
  "Weekly-".toList.map some ++ stampPattern ++ ".md".toList.map some

/-- `_PAGE.fullmatch(name)`. -/
def isPage (name : String) : Bool := matchesPattern pagePattern name.toList

/-- The end of a report's window as `%Y-%m-%d-%H%M%S`. -/
structure Stamp where
  text : String
  ok : matchesPattern stampPattern text.toList = true
  deriving DecidableEq

/-- `page_name`. -/
def pageName (stamp : Stamp) : String := "Weekly-" ++ stamp.text

/-- `filename`. -/
def pageFile (stamp : Stamp) : String := pageName stamp ++ ".md"

/-- `chart_name`. -/
def chartFile (stamp : Stamp) : String := pageName stamp ++ "-charts.png"

/-- `equity_name`. -/
def equityFile (stamp : Stamp) : String := pageName stamp ++ "-equity.png"

/-! ## The tree of a checkout -/

/-- What a name of the checkout is: a text, another file with the software its image names,
a symlink or a directory. -/
inductive Entry (χ : Type)
  | text (content : String)
  | image (software : Option String) (content : χ)
  | symlink
  | directory
  deriving DecidableEq

/-- The top level of a checkout. -/
abbrev Checkout (χ : Type) := Dict String (Entry χ)

variable {χ : Type}

/-- The file is a text that starts with the marker. -/
def isGenerated (marker : String) : Entry χ → Bool
  | .text content => marker.toList.isPrefixOf content.toList
  | _ => false

/-- A file that is not a text cannot be read as one. -/
def isUnreadable : Entry χ → Bool
  | .image _ _ => true
  | .text _ | .symlink | .directory => false

/-- `is_file()` and not `is_symlink()`. -/
def isFile : Entry χ → Bool
  | .text _ | .image _ _ => true
  | .symlink | .directory => false

/-- `stem` of a file that ends in `.md`. -/
def stem (name : String) : String := String.ofList (name.toList.take (name.toList.length - 3))

/-- `sorted(names, reverse=True)`. -/
def sortedDescending (names : List String) : List String := names.insertionSort (· ≥ ·)

/-! ## The wiki -/

/-- `_MARKER` of the wiki. -/
def wikiMarker : String := "<!-- trademind-public-report-v1 -->"

/-- `CHART_OWNER`. -/
def chartOwner : String := "TradeMind public reports"

/-- `PublicWeeklyReport`, rendered: its page starts with the marker. -/
structure PublicReport (χ : Type) where
  stamp : Stamp
  text : String
  charts : χ
  marked : wikiMarker.toList.isPrefixOf text.toList = true

/-- `_write_owned`, which refuses a page that is not its own. -/
def writeOwned (tree : Checkout χ) (name content : String) : Option (Checkout χ) :=
  match tree.lookup name with
  | none => some (tree.insert name (.text content))
  | some entry =>
    if isGenerated wikiMarker entry then some (tree.insert name (.text content)) else none

/-- The chart of a wiki page, which replaces only one of the publisher. -/
def writeChart (tree : Checkout χ) (name : String) (content : χ) : Option (Checkout χ) :=
  match tree.lookup name with
  | none => some (tree.insert name (.image (some chartOwner) content))
  | some (.image (some software) _) =>
    if software = chartOwner then some (tree.insert name (.image (some chartOwner) content))
    else none
  | some _ => none

/-- `pages`: the stems of the generated pages; a page that is no text cannot be read. -/
def wikiPages (tree : Checkout χ) : Option (List String) :=
  let names := tree.keys.filter isPage
  if names.any fun name => (tree.lookup name).any isUnreadable then none
  else
    some (sortedDescending ((names.filter fun name =>
      (tree.lookup name).any (isGenerated wikiMarker)).map stem))

/-- The name of the wiki's index. -/
def wikiIndexFile : String := "Operations-Reports.md"

/-- The text of the wiki's index, with a link to each of the given pages. -/
def wikiIndex (pages : List String) : String :=
  "\n".intercalate ([wikiMarker, "# TradeMind — Lịch sử báo cáo tuần", "",
    "Báo cáo tổng hợp công khai. Mỗi trang ghi rõ khoảng thời gian UTC.", ""] ++
    pages.map (fun page =>
      "- [" ++ (page.drop "Weekly-".length).toString ++ "](" ++ page ++ ")") ++ [""])

/-- `WikiClient._publish_sync` up to its commit: the checkout it stages, unless it refuses. -/
def wikiUpdate (report : PublicReport χ) (tree : Checkout χ) : Option (Checkout χ) := do
  let tree ← writeOwned tree (pageFile report.stamp) report.text
  let tree ← writeChart tree (chartFile report.stamp) report.charts
  let pages ← wikiPages tree
  writeOwned tree wikiIndexFile (wikiIndex pages)

/-! ## The private archive -/

/-- `_MARKER` of the private archive. -/
def privateMarker : String := "<!-- trademind-private-report-v1 -->"

/-- `PrivateWeeklyReport`, rendered: its page starts with the marker. -/
structure PrivateReport (χ : Type) where
  stamp : Stamp
  text : String
  charts : χ
  equity : χ
  marked : privateMarker.toList.isPrefixOf text.toList = true

/-- The checks before the first write, and that it is a file that is written to. -/
def privateWritable (name : String) : Option (Entry χ) → Bool
  | none => true
  | some .symlink | some .directory => false
  | some (.text content) =>
    !name.endsWith ".md" || isGenerated privateMarker (.text content : Entry χ)
  | some (.image _ _) => !name.endsWith ".md"

/-- `pages`: the names of the files that are pages, whoever wrote them. -/
def privatePages (tree : Checkout χ) : List String :=
  sortedDescending ((tree.keys.filter isPage).filter fun name => (tree.lookup name).any isFile)

/-- The name of the private index. -/
def privateIndexFile : String := "REPORTS.md"

/-- The text of the private index, with a link to each of the given pages. -/
def privateIndex (pages : List String) : String :=
  "\n".intercalate ([privateMarker, "# TradeMind — Báo cáo nội bộ", "",
    "Kết quả tuần, việc cần kiểm tra, snapshot tài khoản và nhật ký giao dịch.", ""] ++
    pages.map (fun page =>
      "- [" ++ stem page ++ "](" ++ page ++ ")") ++ [""])

/-- `PrivateReportClient._publish_sync` up to its commit. -/
def privateUpdate (report : PrivateReport χ) (tree : Checkout χ) : Option (Checkout χ) :=
  let page := pageFile report.stamp
  let chart := chartFile report.stamp
  let equity := equityFile report.stamp
  if [page, chart, equity, privateIndexFile].all fun name =>
      privateWritable name (tree.lookup name) then
    let tree := tree.insert page (.text report.text)
    let tree := tree.insert chart (.image (some chartOwner) report.charts)
    let tree := tree.insert equity (.image (some chartOwner) report.equity)
    some (tree.insert privateIndexFile (.text (privateIndex (privatePages tree))))
  else none

end TradeMind.Model.Reports
