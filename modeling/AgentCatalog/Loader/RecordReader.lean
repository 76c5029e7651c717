import AgentCatalog.Capabilities
import AgentCatalog.Layout.Basic
import AgentCatalog.Pattern.Expression
import AgentCatalog.Text.Blank
import AgentCatalog.Text.Interner

/-!
# From records to capabilities

A reader takes patterns and capabilities from records, by a layout. Records with too few fields are
skipped. It counts both kinds, and numbers the values, of which many records have the same.
-/

namespace AgentCatalog

/-- The value that a cell gives an attribute: the cell without white space around it, or `Unknown`
if it is blank. -/
def Capabilities.valueOfCell (cell : String) : String :=
  let text := cell.toList
  if Text.isBlank text then Capabilities.unknownValue else String.ofList (Text.trim text)

/-- A layout, the values read so far, and how many records were used and skipped. -/
structure RecordReader where
  layout : Layout
  values : Interner
  used : Nat
  skipped : Nat

namespace RecordReader

/-- The reader that has read nothing. -/
def ofLayout (layout : Layout) : RecordReader :=
  ⟨layout, .empty, 0, 0⟩

/-- The number of distinct values read so far. -/
def valueCount (r : RecordReader) : Nat :=
  r.values.size

/-- The value that a record gives an attribute. The pattern is shown as a regular expression. A
field that the record does not have counts as blank. -/
def valueOf (a : Attribute) (cell : String) : String :=
  match a with
  | .pattern => String.ofList (Pattern.expression cell.toList)
  | _ => Capabilities.valueOfCell cell

/-- The attributes that a record gives a value, with their columns, the pattern first. -/
def sources (layout : Layout) (patternColumn : Nat) : List (Attribute × Nat) :=
  (.pattern, patternColumn) :: layout.readColumns.filter (·.1 ≠ .pattern)

/-- The pattern and the capabilities of a record. There are none if the record has too few fields or
the layout no column for the pattern. -/
def read (r : RecordReader) (record : List String) :
    Option (String × Capabilities) × RecordReader :=
  if record.length < r.layout.minFields then (none, { r with skipped := r.skipped + 1 })
  else
    match r.layout.columns .pattern with
    | none => (none, r)
    | some patternColumn =>
      let values := (sources r.layout patternColumn).map fun (a, column) =>
        (a, valueOf a (record.getD column ""))
      let capabilities := values.foldl (fun c (a, value) => c.set a value) Capabilities.unknown
      let known := values.foldl (fun known (_, value) => (known.intern value).1) r.values
      (some (record.getD patternColumn "", capabilities),
        { r with values := known, used := r.used + 1 })

end RecordReader

end AgentCatalog
