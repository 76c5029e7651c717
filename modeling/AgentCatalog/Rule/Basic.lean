import AgentCatalog.Capabilities
import AgentCatalog.Literal.Table
import AgentCatalog.Pattern.Specificity
import AgentCatalog.Rule.Shape

/-!
# Rules

A rule is a compiled pattern with the capabilities of the user agents that it matches. It refers to
its literals by handle, so it is matched against the table in which they are found.

A structured rule is matched from both ends inwards: its first literal at the start of the subject,
its last one at the end, and the inner ones, from left to right, each at its first place in between.
-/

namespace AgentCatalog

/-- A compiled pattern. `minLength` is the number of bytes that its literals take at least. -/
structure Rule where
  shape : Shape Handle
  pattern : String
  capabilities : Capabilities
  specificity : Specificity
  minLength : Nat

/-- The subject, in bytes, has the shape. -/
def Shape.accepts (shape : Shape Literal) (subject : List UInt8) : Bool :=
  match shape with
  | .catchAll => true
  | .exact literal => literal.takesAll subject
  | .structured first inner last =>
    let stop? := do
      let start ← match first with
        | none => some 0
        | some literal => literal.matchFrom subject 0
      let limit ← match last with
        | none => some subject.length
        | some literal => literal.matchEnd subject start
      inner.foldlM (fun start (literal : Literal) => literal.search subject start limit) start
    stop?.isSome

namespace Rule

/-- The rule of the lone `*`, which matches everything. -/
def catchAll : Rule where
  shape := .catchAll
  pattern := "*"
  capabilities := .fallback
  specificity := .ofPattern ['*']
  minLength := 0

instance : Inhabited Rule := ⟨catchAll⟩

/-- The rule is that of the lone `*`. -/
def isCatchAll (rule : Rule) : Bool :=
  rule.shape == .catchAll

/-- The shape of the rule over its literals. -/
def literalShape? (rule : Rule) (table : LiteralTable) : Option (Shape Literal) :=
  rule.shape.resolve? table.get?

/-- The rule matches the subject, given as bytes in lower case. -/
def accepts (rule : Rule) (table : LiteralTable) (subject : List UInt8) : Bool :=
  rule.minLength ≤ subject.length &&
    (rule.literalShape? table).any (·.accepts subject)

/-- The first byte of every subject that the rule matches, if its pattern starts with a text whose
first character is not `?`. -/
def firstByte? (rule : Rule) (table : LiteralTable) : Option UInt8 :=
  match rule.shape with
  | .exact handle | .structured (some handle) _ _ => (table.get? handle).bind (·.firstByte?)
  | _ => none

/-- The pattern that the literals of the rule spell. -/
def spelledPattern? (rule : Rule) (table : LiteralTable) : Option String := do
  let shape ← rule.shape.resolve? fun handle => (table.get? handle).map (·.text.toList)
  return String.ofList shape.render

/-- The order in which rules are tried: the more specific one first, and among equally specific ones
the one whose pattern comes first. -/
def compare (a b : Rule) : Ordering :=
  (a.specificity.compare b.specificity).then (Ord.compare a.pattern b.pattern)

end Rule

end AgentCatalog
