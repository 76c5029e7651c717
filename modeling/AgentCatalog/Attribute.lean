/-!
# Attributes

What a rule says of the user agents that it matches comes as thirteen attributes. Their names and
their order are those of the records that are written.
-/

namespace AgentCatalog

/-- An attribute of a user agent. `pattern` is the pattern of the rule itself, as an expression. -/
inductive Attribute where
  | pattern
  | browser
  | browserType
  | browserMajorVersion
  | platform
  | platformVersion
  | deviceType
  | deviceName
  | deviceCodeName
  | platformMaker
  | deviceMaker
  | deviceBrandName
  | comment
deriving DecidableEq, Repr

namespace Attribute

/-- All attributes, in their order. -/
def all : List Attribute :=
  [pattern, browser, browserType, browserMajorVersion, platform, platformVersion, deviceType,
    deviceName, deviceCodeName, platformMaker, deviceMaker, deviceBrandName, comment]

theorem mem_all (a : Attribute) : a ∈ all := by
  cases a <;> decide

theorem nodup_all : all.Nodup := by
  decide

/-- The name under which an attribute is written. -/
def name : Attribute → String
  | pattern => "pattern"
  | browser => "browser"
  | browserType => "browser_type"
  | browserMajorVersion => "browser_major_version"
  | platform => "platform"
  | platformVersion => "platform_version"
  | deviceType => "device_type"
  | deviceName => "device_name"
  | deviceCodeName => "device_code_name"
  | platformMaker => "platform_maker"
  | deviceMaker => "device_maker"
  | deviceBrandName => "device_brand_name"
  | comment => "comment"

/-- The attribute with the given name. -/
def ofName? (name : String) : Option Attribute :=
  all.find? (·.name == name)

theorem ofName?_name (a : Attribute) : ofName? a.name = some a := by
  cases a <;> decide

/-- The place of an attribute in the order. -/
def position (a : Attribute) : Nat :=
  all.idxOf a

end Attribute

end AgentCatalog
