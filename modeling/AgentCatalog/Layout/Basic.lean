import AgentCatalog.Attribute

/-!
# Layouts of rule files

A layout says in which column of a record each attribute stands, which of the attributes are read,
and how many fields a record must have to be used at all. The attributes that are read come in three
tiers. A layout is sound if it has a column for the pattern and if no column that is read lies
beyond the fields that every used record has.
-/

namespace AgentCatalog

/-- How many of the attributes are read. -/
inductive Tier where
  | basic
  | standard
  | extended
deriving DecidableEq, Repr

namespace Tier

/-- All tiers, each a part of the next. -/
def all : List Tier :=
  [basic, standard, extended]

/-- The name under which a tier is written. -/
def name : Tier → String
  | basic => "basic"
  | standard => "standard"
  | extended => "extended"

/-- The tier with the given name. -/
def ofName? (name : String) : Option Tier :=
  all.find? (·.name == name)

theorem ofName?_name (t : Tier) : ofName? t.name = some t := by
  cases t <;> decide

/-- The attributes of the basic tier. -/
def basicAttributes : List Attribute :=
  [.pattern, .comment, .browser, .browserType, .browserMajorVersion, .platform, .platformVersion,
    .deviceType]

/-- The attributes that are read, in the order in which they are read. -/
def attributes : Tier → List Attribute
  | basic => basicAttributes
  | standard => basicAttributes ++ [.deviceName, .deviceBrandName]
  | extended => Attribute.all

/-- The attribute is read. -/
def includes (t : Tier) (a : Attribute) : Bool :=
  t.attributes.contains a

end Tier

/-- The tier, the least number of fields of a record that is used, and the column of each attribute
that has one, counted from zero. -/
structure Layout where
  tier : Tier
  minFields : Nat
  columns : Attribute → Option Nat

namespace Layout

instance : DecidableEq Layout := fun a b =>
  decidable_of_iff
    (a.tier = b.tier ∧ a.minFields = b.minFields ∧
      ∀ x ∈ Attribute.all, a.columns x = b.columns x) <| by
    constructor
    · rintro ⟨ht, hm, hc⟩
      cases a; cases b
      simp_all only [mk.injEq, true_and]
      funext x
      exact hc x (Attribute.mem_all x)
    · rintro rfl
      exact ⟨rfl, rfl, fun _ _ => rfl⟩

/-- The columns of a rule file in its full form. -/
def fullColumns : Attribute → Option Nat
  | .pattern => some 0
  | .comment => some 4
  | .browser => some 5
  | .browserType => some 6
  | .browserMajorVersion => some 11
  | .platform => some 13
  | .platformVersion => some 14
  | .platformMaker => some 17
  | .deviceName => some 41
  | .deviceMaker => some 42
  | .deviceType => some 43
  | .deviceCodeName => some 45
  | .deviceBrandName => some 46

/-- The layout of a rule file in its full form, read by the given tier. -/
def ofTier (tier : Tier) : Layout :=
  ⟨tier, 48, fullColumns⟩

/-- The layout that is used if none is given. -/
def default : Layout :=
  ofTier .basic

/-- The column from which an attribute is read. -/
def column? (layout : Layout) (a : Attribute) : Option Nat :=
  if layout.tier.includes a then layout.columns a else none

/-- The attributes that are read, with their columns. -/
def readColumns (layout : Layout) : List (Attribute × Nat) :=
  layout.tier.attributes.filterMap fun a => (layout.column? a).map (a, ·)

/-- What is wrong with a layout. -/
inductive Problem where
  /-- The pattern has no column. -/
  | noPattern
  /-- The greatest column that is read lies beyond the fields that a record must have. -/
  | tooFewFields (minFields maxColumn : Nat)
deriving DecidableEq, Repr

/-- The message of a problem. -/
def Problem.message : Problem → String
  | .noPattern => "字段布局缺少 pattern 列"
  | .tooFewFields minFields maxColumn =>
    "最少字段数 " ++ toString minFields ++ " 不足以覆盖第 " ++ toString maxColumn ++ " 列"

/-- The first problem of a layout, if it has one. -/
def problem? (layout : Layout) : Option Problem :=
  match layout.columns .pattern with
  | none => some .noPattern
  | some pattern =>
    let maxColumn := (layout.readColumns.map (·.2)).foldl max pattern
    if layout.minFields ≤ maxColumn then some (.tooFewFields layout.minFields maxColumn) else none

example : default.problem? = none := by decide

example : ({ default with minFields := 43 } : Layout).problem? = some (.tooFewFields 43 43) := by
  decide

end Layout

end AgentCatalog
