import AgentCatalog.Json.Reader
import AgentCatalog.Layout.Basic

/-!
# Layouts as JSON documents

A layout is written as an object with a tier, a number of fields and the columns by attribute. What
is left out has its default. It may also be written as an array of the three in this order, of which
the last ones may be left out.
-/

namespace AgentCatalog.Layout

/-- The tier that a value names. -/
def tierOfJson? (json : Json) : Option Tier :=
  json.name?.bind Tier.ofName?

/-- The columns of an object. Where an attribute comes twice, the later column counts. -/
def columnsOfJson? (json : Json) : Option (Attribute → Option Nat) := do
  let entries ← (← json.members?).mapM fun (name, value) => do
    return (← Attribute.ofName? name, ← value.nat?)
  return fun a => entries.reverse.lookup a

/-- The layout of three values, each of which may be missing. -/
def ofParts? (tier minFields columns : Option Json) : Option Layout := do
  let tier ← match tier with
    | none => some default.tier
    | some json => tierOfJson? json
  let minFields ← match minFields with
    | none => some default.minFields
    | some json => json.nat?
  let columns ← match columns with
    | none => some default.columns
    | some json => columnsOfJson? json
  return ⟨tier, minFields, columns⟩

/-- The layout that a value describes. An object may have other members besides; each of the three
it has at most once. -/
def ofJson? : Json → Option Layout
  | .array elements =>
    if elements.length ≤ 3 then ofParts? elements[0]? elements[1]? elements[2]? else none
  | json => do
    let members ← json.members?
    ofParts? (← Json.single? members "tier") (← Json.single? members "min_fields")
      (← Json.single? members "columns")

/-- The layout that a document describes. -/
def read? (document : String) : Option Layout :=
  (Json.read? document).bind ofJson?

/-- The columns as an object. -/
def columnsToJson (columns : Attribute → Option Nat) : Json :=
  .ofMembers <| Attribute.all.filterMap fun a =>
    (columns a).map fun column => (a.name, .ofNat column)

/-- The layout as an object. -/
def toJson (layout : Layout) : Json :=
  .ofMembers
    [("tier", .ofText layout.tier.name),
      ("min_fields", .ofNat layout.minFields),
      ("columns", columnsToJson layout.columns)]

end AgentCatalog.Layout
