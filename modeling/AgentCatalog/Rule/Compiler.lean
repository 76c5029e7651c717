import AgentCatalog.Rule.Basic
import AgentCatalog.Text.Ellipsis

/-!
# Compiling patterns

A compiler turns patterns into rules, one after the other, and collects their literals in one
registry. It counts what it does. A pattern is refused if it is empty or has two adjacent `*`; the
latter shows when the pattern is spelled from its shape again and comes out different. A refused
pattern leaves its literals in the registry.
-/

namespace AgentCatalog

/-- Why a pattern is not compiled. -/
inductive CompileError where
  /-- The pattern is empty, or its shape spells another pattern, which is then given. -/
  | unparsable (pattern : String) (spelled : Option String)
  /-- An internal limit is exceeded. -/
  | limitExceeded (what : String)
deriving DecidableEq, Repr

namespace CompileError

/-- The message of an error. -/
def message : CompileError → String
  | .unparsable pattern _ => "Unable to parse pattern `" ++ pattern ++ "`"
  | .limitExceeded what => "Core invariant violation: " ++ what

/-- What is logged as a warning when the error arises. -/
def warning? : CompileError → Option String
  | .unparsable pattern (some spelled) =>
    some ("模式重建校验失败：输入=`" ++ Text.elide 120 pattern
      ++ "` 重建=`" ++ Text.elide 120 spelled ++ "`")
  | _ => none

/-- A new literal does not fit into the registry. -/
def tooManyLiterals : CompileError :=
  .limitExceeded "literal pool exceeded u32 handle space"

end CompileError

/-- How many patterns of each form have been compiled, and how many literals they had, repeated and
refused ones included. -/
structure CompileCounts where
  catchAll : Nat
  exact : Nat
  structured : Nat
  literalUses : Nat
deriving DecidableEq, Repr

namespace CompileCounts

/-- Nothing has been compiled. -/
def zero : CompileCounts :=
  ⟨0, 0, 0, 0⟩

/-- The number of compiled patterns. -/
def total (n : CompileCounts) : Nat :=
  n.catchAll + n.exact + n.structured

/-- One more pattern of the given shape. -/
def count {α : Type} (n : CompileCounts) : Shape α → CompileCounts
  | .catchAll => { n with catchAll := n.catchAll + 1 }
  | .exact _ => { n with exact := n.exact + 1 }
  | .structured .. => { n with structured := n.structured + 1 }

end CompileCounts

/-- The literals met so far and the counts. -/
structure Compiler where
  registry : LiteralRegistry
  counts : CompileCounts

namespace Compiler

/-- A compiler that has done nothing. -/
def empty : Compiler :=
  ⟨.empty, .zero⟩

/-- A step of a compiler, which changes it also when it fails. -/
abbrev Step (α : Type) := ExceptT CompileError (StateM Compiler) α

/-- The handle of a literal. -/
def intern (text : List Char) : Step Handle := do
  modify fun c => { c with counts.literalUses := c.counts.literalUses + 1 }
  match (← get).registry.intern? (String.ofList text) with
  | some (registry, handle) =>
    modify fun c => { c with registry }
    return handle
  | none => throw .tooManyLiterals

/-- The handles of the literals of a shape. Those at the ends get theirs before the inner ones. -/
def internShape : Shape (List Char) → Step (Shape Handle)
  | .catchAll => return .catchAll
  | .exact text => return .exact (← intern text)
  | .structured first inner last => do
    let first ← first.mapM intern
    let last ← last.mapM intern
    let inner ← inner.mapM intern
    return .structured first inner last

/-- The rule of a pattern. The lone `*` has a rule of its own, whatever its capabilities. -/
def compileStep (pattern : List Char) (capabilities : Capabilities) : Step Rule := do
  match Shape.ofSegments? (Pattern.split pattern) with
  | none => throw (.unparsable (String.ofList pattern) none)
  | some .catchAll =>
    modify fun c => { c with counts := c.counts.count (.catchAll : Shape Handle) }
    return .catchAll
  | some texts =>
    let shape ← internShape texts
    let spelled := texts.render
    if spelled ≠ pattern then
      throw (.unparsable (String.ofList pattern) (some (String.ofList spelled)))
    modify fun c => { c with counts := c.counts.count shape }
    return {
      shape
      pattern := String.ofList pattern
      capabilities
      specificity := .ofPattern pattern
      minLength := (texts.literals.flatMap Utf8.encode).length }

/-- Compile a pattern as it stands. -/
def compile (c : Compiler) (pattern : String) (capabilities : Capabilities) :
    Except CompileError Rule × Compiler :=
  (compileStep pattern.toList capabilities).run c

/-- Compile the normal form of a pattern. -/
def compileNormal (c : Compiler) (raw : String) (capabilities : Capabilities) :
    Except CompileError Rule × Compiler :=
  c.compile (String.ofList (Pattern.normalize raw.toList)) capabilities

end Compiler

end AgentCatalog
