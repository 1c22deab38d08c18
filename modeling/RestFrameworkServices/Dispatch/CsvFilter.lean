import Mathlib.Data.List.Induction
import RestFrameworkServices.Dispatch.FilterData

/-!
# A comma-separated filter and its widget

A CSV filter's widget reads the one value `data.get(name)` gives, the last of a repeated name, and splits
it on commas. The edge reads a query string flat first, as the kernel types the filter: an array, so every
value of the name, and splits each. The two read the same parts of any query string whose values of the
name are all empty but the last, of any plain string and of `None` (`readsAsWidget_iff`).
-/

namespace RestFrameworkServices.CsvFilter

open Lib

/-! ## What is read -/

/-- `QueryDict.appendlist`. -/
def appendList (query : QueryDict) (name value : String) : QueryDict :=
  ⟨query.lists.set name ((query.lists.get? name).getD [] ++ [.str value])⟩

/-- A query string's names and values, parsed. -/
def parseQuery (pairs : List (String × String)) : QueryDict :=
  pairs.foldl (fun query pair => appendList query pair.1 pair.2) .empty

/-- The values a query string gives a name, in order. -/
def valuesOf (pairs : List (String × String)) (name : String) : List String :=
  (pairs.filter fun pair => pair.1 = name).map Prod.snd

/-- Where a call's filter is read from: a query string handed as `filter_data`, a mapping handed so, or
the arguments themselves. -/
inductive Source where
  | query (pairs : List (String × String))
  | mapping (entries : Dict String Value)
  | arguments

namespace Source

/-- The call's `filter_data`. -/
def filterData : Source → Option FilterData
  | query pairs => some (.form (parseQuery pairs))
  | mapping entries => some (.mapping entries)
  | arguments => none

/-- `data.get(name)`, of the data a FilterSet would be bound to. -/
def get? (source : Source) (arguments : Dict String Value) (name : String) : Option Value :=
  match source with
  | query pairs => ((parseQuery pairs).lists.get? name).map lastValue
  | mapping entries => entries.get? name
  | .arguments => arguments.get? name

/-- A value sent off HTTP is a string or `None`. -/
def Plain (source : Source) (arguments : Dict String Value) (name : String) : Prop :=
  match source with
  | query _ => True
  | source => ∀ value, source.get? arguments name = some value → value = .null ∨ ∃ text, value = .str text

/-- Every value of the name but the last is empty. -/
def ReadOnce (source : Source) (name : String) : Prop :=
  match source with
  | query pairs => ∀ text ∈ (valuesOf pairs name).dropLast, text = ""
  | _ => True

end Source

/-- `BaseCSVWidget.value_from_datadict`: nothing of no value, no parts of an empty one, else the parts. A
list is read as it is. -/
def widgetRead : Option Value → Option Value
  | some (.str text) => some (.list (if text = "" then [] else (text.splitOn ",").map .str))
  | some .null | none => none
  | some value => some value

/-- The kernel types a CSV filter as an array, and coerces none of its strings. -/
def TypesCsv (fs : FilterSet) : Prop :=
  ∀ name ∈ fs.csv, name ∈ fs.arrays ∧
    ∀ texts : List String, fs.coerce name (.list (texts.map .str)) = .list (texts.map .str)

/-- What `_route_filter_data` and `_as_its_filter_set_reads` leave for a filter. -/
def filterValue (fs : FilterSet) (source : Source) (arguments : Dict String Value) (name : String) :
    Option Value :=
  (fs.asItsFilterSetReads (fs.routeFilterData source.filterData arguments)).get? name

/-! ## A query string's values -/

/-- Under a name stand all its values, in order. -/
theorem get?_parseQuery (pairs : List (String × String)) (name : String) :
    (parseQuery pairs).lists.get? name =
      if valuesOf pairs name = [] then none else some ((valuesOf pairs name).map .str) := by
  induction pairs using List.reverseRecOn with
  | nil => rfl
  | append_singleton pairs pair ih =>
    have hparse : parseQuery (pairs ++ [pair]) = appendList (parseQuery pairs) pair.1 pair.2 := by
      rw [parseQuery, List.foldl_append]
      rfl
    have hvalues : valuesOf (pairs ++ [pair]) name =
        valuesOf pairs name ++ if pair.1 = name then [pair.2] else [] := by
      rw [valuesOf, List.filter_append, List.map_append, List.filter_singleton]
      by_cases hname : pair.1 = name
      · simp [valuesOf, hname]
      · simp [valuesOf, hname]
    rw [hparse, hvalues, appendList, Dict.get?_set]
    by_cases hname : pair.1 = name
    · subst hname
      rw [if_pos rfl, if_pos rfl, ih]
      cases valuesOf pairs pair.1 with
      | nil => rfl
      | cons text texts => simp
    · rw [if_neg (Ne.symm hname), if_neg hname, List.append_nil]
      exact ih

/-! ## A string's parts -/

/-- Splitting a text leaves a part at least. -/
theorem splitOnAux_ne_nil (s sep : String) (b i j : String.Pos.Raw) (parts : List String) :
    s.splitOnAux sep b i j parts ≠ [] := by
  fun_induction String.splitOnAux s sep b i j parts <;> simp_all

/-- So does splitting all of it. -/
theorem splitOn_ne_nil (s sep : String) : s.splitOn sep ≠ [] := by
  unfold String.splitOn
  split
  · exact List.cons_ne_nil _ _
  · exact splitOnAux_ne_nil s sep _ _ _ _

/-- Only an empty string has no parts. -/
theorem csvParts_eq_nil_iff {text : String} : csvParts (.str text) = [] ↔ text = "" := by
  rw [csvParts]
  by_cases h : text = ""
  · simp [h]
  · simp [h, splitOn_ne_nil]

/-- The values' parts are the last's exactly where the others have none. -/
theorem flatMap_csvParts_iff (first : List String) (last : String) :
    ((first ++ [last]).map Value.str).flatMap csvParts = csvParts (.str last) ↔
      ∀ text ∈ first, text = "" := by
  rw [List.map_append, List.flatMap_append, List.map_singleton, List.flatMap_singleton,
    List.append_left_eq_self, List.flatMap_eq_nil_iff]
  constructor
  · intro h text htext
    exact csvParts_eq_nil_iff.1 (h _ (List.mem_map_of_mem htext))
  · intro h value hvalue
    obtain ⟨text, htext, rfl⟩ := List.mem_map.1 hvalue
    exact csvParts_eq_nil_iff.2 (h text htext)

/-- The widget reads a text as a list of values. -/
theorem widgetRead_str (text : String) : widgetRead (some (.str text)) = some (csvRead (.str text)) := rfl

section
variable {fs : FilterSet} {name : String} (hname : name ∈ fs.csv)
include hname

/-- What is left for a filter is the value its data holds, as `_as_its_filter_set_reads` reads it. -/
theorem filterValue_eq (source : Source) (arguments : Dict String Value) :
    filterValue fs source arguments name =
      (match source.filterData with
        | some data => fs.valueIn data name
        | none => arguments.get? name).bind (fs.read name) := by
  have hnames := fs.csv_names name hname
  cases source with
  | arguments =>
    rw [filterValue, FilterSet.asItsFilterSetReads, Dict.get?_filterMap]
    simp only [hnames, if_true]
    rfl
  | query pairs => exact fs.get?_filtered _ arguments hnames
  | mapping entries => exact fs.get?_filtered _ arguments hnames

/-- A plain value is read as the widget reads it. -/
theorem read_plain {value : Option Value}
    (hplain : ∀ v, value = some v → v = .null ∨ ∃ text, v = .str text) :
    value.bind (fs.read name) = widgetRead value := by
  cases value with
  | none => rfl
  | some value =>
    obtain rfl | ⟨text, rfl⟩ := hplain value rfl
    · rfl
    · rw [widgetRead_str, Option.bind_some, FilterSet.read, if_pos hname]
      exact fun h => by cases h

/-- A query string's value is read as the widget reads it exactly where only its last says anything. -/
theorem query_iff (hcsv : TypesCsv fs) (pairs : List (String × String)) (arguments : Dict String Value) :
    filterValue fs (.query pairs) arguments name = widgetRead ((Source.query pairs).get? arguments name) ↔
      (Source.query pairs).ReadOnce name := by
  obtain ⟨harray, hcoerce⟩ := hcsv name hname
  rw [filterValue_eq hname, Source.get?, Source.ReadOnce]
  show (fs.valueIn (.form (parseQuery pairs)) name).bind _ = _ ↔ _
  rw [FilterSet.valueIn, get?_parseQuery]
  cases hvalues : valuesOf pairs name using List.reverseRecOn with
  | nil => simp [widgetRead]
  | append_singleton first last =>
    rw [if_neg (by simp), List.dropLast_concat, Option.map_some, Option.map_some, if_pos harray, hcoerce,
      Option.bind_some]
    have hlast : lastValue ((first ++ [last]).map .str) = .str last := by
      rw [lastValue, List.map_append, List.map_singleton, List.getLast?_concat]
      rfl
    rw [hlast, widgetRead_str, FilterSet.read, if_pos hname, csvRead, csvRead, Option.some.injEq,
      Value.list.injEq]
    · exact flatMap_csvParts_iff first last
    · exact fun h => by cases h

end

/-- **A CSV filter reads what its widget reads exactly where every value a query string gives it is empty
but the last; and always off HTTP.** -/
theorem readsAsWidget_iff {fs : FilterSet} (hcsv : TypesCsv fs) {name : String} (hname : name ∈ fs.csv)
    (source : Source) (arguments : Dict String Value) (hplain : source.Plain arguments name) :
    filterValue fs source arguments name = widgetRead (source.get? arguments name) ↔
      source.ReadOnce name := by
  cases source with
  | query pairs => exact query_iff hname hcsv pairs arguments
  | mapping entries => exact iff_of_true ((filterValue_eq hname _ _).trans (read_plain hname hplain)) trivial
  | arguments => exact iff_of_true ((filterValue_eq hname _ _).trans (read_plain hname hplain)) trivial

/-- A filter set with an ordering. -/
def orderingFilters : FilterSet where
  names := ["ordering"]
  arrays := ["ordering"]
  coerce := fun _ value => value
  csv := ["ordering"]
  csv_names := fun _ h => h

/-- The ordering is such a filter. -/
theorem typesCsv_orderingFilters : TypesCsv orderingFilters := fun _ h => ⟨h, fun _ => rfl⟩

/-- An ordering sent twice is read as its last. -/
theorem readsAsWidget_iff_ordering :
    filterValue orderingFilters (.query [("ordering", ""), ("ordering", "-name,name")]) .empty "ordering" =
      widgetRead (some (.str "-name,name")) :=
  (readsAsWidget_iff typesCsv_orderingFilters List.mem_cons_self
    (.query [("ordering", ""), ("ordering", "-name,name")]) .empty trivial).2
      (by simp [Source.ReadOnce, valuesOf])

/-- A repeated ordering is every value's parts, where the widget reads the last alone. -/
theorem repeated_ordering_not_read :
    filterValue orderingFilters (.query [("ordering", "-name"), ("ordering", "title")]) .empty "ordering" ≠
      widgetRead ((Source.query [("ordering", "-name"), ("ordering", "title")]).get? .empty "ordering") := by
  intro h
  have honce := (query_iff List.mem_cons_self typesCsv_orderingFilters _ _).1 h
  exact absurd (honce "-name" (by decide)) (by decide)

end RestFrameworkServices.CsvFilter
