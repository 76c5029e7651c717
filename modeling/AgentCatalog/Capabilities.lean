import AgentCatalog.Attribute
import AgentCatalog.Json.Value

/-!
# Capabilities

The capabilities of a user agent are the values of its attributes. A value that nothing is known of
is the text `Unknown`.
-/

namespace AgentCatalog

/-- A value for every attribute. -/
structure Capabilities where
  pattern : String
  browser : String
  browserType : String
  browserMajorVersion : String
  platform : String
  platformVersion : String
  deviceType : String
  deviceName : String
  deviceCodeName : String
  platformMaker : String
  deviceMaker : String
  deviceBrandName : String
  comment : String
deriving DecidableEq, Repr

namespace Capabilities

/-- The value of an attribute of which nothing is known. -/
def unknownValue : String :=
  "Unknown"

/-- The browser of a user agent that no rule knows. -/
def defaultBrowser : String :=
  "Default Browser"

/-- The capabilities with these values. -/
def ofValues (value : Attribute → String) : Capabilities where
  pattern := value .pattern
  browser := value .browser
  browserType := value .browserType
  browserMajorVersion := value .browserMajorVersion
  platform := value .platform
  platformVersion := value .platformVersion
  deviceType := value .deviceType
  deviceName := value .deviceName
  deviceCodeName := value .deviceCodeName
  platformMaker := value .platformMaker
  deviceMaker := value .deviceMaker
  deviceBrandName := value .deviceBrandName
  comment := value .comment

/-- The value of one attribute. -/
def get (c : Capabilities) : Attribute → String
  | .pattern => c.pattern
  | .browser => c.browser
  | .browserType => c.browserType
  | .browserMajorVersion => c.browserMajorVersion
  | .platform => c.platform
  | .platformVersion => c.platformVersion
  | .deviceType => c.deviceType
  | .deviceName => c.deviceName
  | .deviceCodeName => c.deviceCodeName
  | .platformMaker => c.platformMaker
  | .deviceMaker => c.deviceMaker
  | .deviceBrandName => c.deviceBrandName
  | .comment => c.comment

@[simp] theorem get_ofValues (value : Attribute → String) (a : Attribute) :
    (ofValues value).get a = value a := by
  cases a <;> rfl

/-- The capabilities with one value replaced. -/
def set (c : Capabilities) (a : Attribute) (value : String) : Capabilities :=
  match a with
  | .pattern => { c with pattern := value }
  | .browser => { c with browser := value }
  | .browserType => { c with browserType := value }
  | .browserMajorVersion => { c with browserMajorVersion := value }
  | .platform => { c with platform := value }
  | .platformVersion => { c with platformVersion := value }
  | .deviceType => { c with deviceType := value }
  | .deviceName => { c with deviceName := value }
  | .deviceCodeName => { c with deviceCodeName := value }
  | .platformMaker => { c with platformMaker := value }
  | .deviceMaker => { c with deviceMaker := value }
  | .deviceBrandName => { c with deviceBrandName := value }
  | .comment => { c with comment := value }

theorem get_set (c : Capabilities) (a b : Attribute) (value : String) :
    (c.set a value).get b = if b = a then value else c.get b := by
  cases a <;> cases b <;> rfl

/-- Nothing is known. -/
def unknown : Capabilities :=
  ofValues fun _ => unknownValue

@[simp] theorem get_unknown (a : Attribute) : unknown.get a = unknownValue := by
  simp [unknown]

/-- What is said of a user agent that no rule knows. -/
def fallback : Capabilities :=
  (unknown.set .browser defaultBrowser).set .browserType defaultBrowser

/-! ## Forms of a record -/

/-- The record as an object with a member for every attribute. -/
def toJson (c : Capabilities) : Json :=
  .ofMembers (Attribute.all.map fun a => (a.name, .ofText (c.get a)))

/-- The record of an object that has a text for every attribute once, whatever else it has, or of an
array of the thirteen texts in order. -/
def ofJson? (json : Json) : Option Capabilities :=
  match json with
  | .array elements => do
    let values ← elements.mapM Json.text?
    if values.length = Attribute.all.length then
      return ofValues fun a => values.getD a.position unknownValue
    else none
  | json => do
    let members ← json.members?
    let pairs ← Attribute.all.mapM fun a => do
      let value ← (← Json.single? members a.name)
      return (a, ← value.text?)
    return ofValues fun a => (pairs.lookup a).getD unknownValue

/-- A short form for messages, with the six attributes that tell most. -/
def summary (c : Capabilities) : String :=
  "Capabilities\x7bbrowser='" ++ c.browser
    ++ "', browserType='" ++ c.browserType
    ++ "', browserMajorVersion='" ++ c.browserMajorVersion
    ++ "', deviceType='" ++ c.deviceType
    ++ "', platform='" ++ c.platform
    ++ "', platformVersion='" ++ c.platformVersion ++ "'\x7d"

end Capabilities

end AgentCatalog
