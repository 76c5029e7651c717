import AgentCatalog.Literal.Basic
import AgentCatalog.Text.Interner

/-!
# Registries and tables of literals

Rules refer to their literals by handle, so that a text that occurs in many patterns is kept once.
While patterns are compiled the literals are collected in a registry, which holds at most `capacity`
of them. A finished registry becomes a table, in which handles are looked up.
-/

namespace AgentCatalog

/-- The number of a literal. -/
abbrev Handle := Nat

/-- The literals met so far. -/
structure LiteralRegistry where
  interner : Interner
deriving Inhabited

/-- The literals of a catalog, by handle. -/
structure LiteralTable where
  literals : Array Literal

namespace LiteralRegistry

/-- The number of literals that a registry can hold, which is that of the handles of 32 bits. -/
def capacity : Nat :=
  4294967296

/-- The registry without literals. -/
def empty : LiteralRegistry :=
  ⟨.empty⟩

/-- The number of literals. -/
def size (r : LiteralRegistry) : Nat :=
  r.interner.size

/-- The text of a handle. -/
def text? (r : LiteralRegistry) (handle : Handle) : Option String :=
  r.interner.text? handle

/-- The registry with the text in it, and the handle of the text. There is none if the text is new
and the registry is full. -/
def intern? (r : LiteralRegistry) (text : String) : Option (LiteralRegistry × Handle) :=
  if (r.interner.handle? text).isSome || r.size < capacity then
    let (interner, handle) := r.interner.intern text
    some (⟨interner⟩, handle)
  else none

/-- The table of the registry, in which every handle keeps its text. -/
def toTable (r : LiteralRegistry) : LiteralTable :=
  ⟨r.interner.texts.map Literal.ofText⟩

end LiteralRegistry

namespace LiteralTable

/-- The number of literals. -/
def size (table : LiteralTable) : Nat :=
  table.literals.size

/-- The literal of a handle. -/
def get? (table : LiteralTable) (handle : Handle) : Option Literal :=
  table.literals[handle]?

/-- The texts of the literals, in the order of their handles. -/
def texts (table : LiteralTable) : List String :=
  table.literals.toList.map (·.text)

end LiteralTable

end AgentCatalog
