import Std.Data.TreeMap

/-!
# Numbering of texts

An interner numbers the texts that it is given, in the order in which they first come. The number of
a text is its handle. Handles and texts determine each other, which is kept as an invariant.
-/

namespace AgentCatalog

/-- Distinct texts in the order of their first occurrence, and the handle of each. -/
structure Interner where
  texts : Array String
  handles : Std.TreeMap String Nat
  handles_eq_some_iff :
    ∀ (text : String) (i : Nat), handles[text]? = some i ↔ texts[i]? = some text

namespace Interner

/-- Nothing has been numbered. -/
def empty : Interner where
  texts := #[]
  handles := ∅
  handles_eq_some_iff := by simp

instance : Inhabited Interner := ⟨empty⟩

/-- The number of distinct texts. -/
def size (p : Interner) : Nat :=
  p.texts.size

/-- The handle of a text that has been numbered. -/
def handle? (p : Interner) (text : String) : Option Nat :=
  p.handles[text]?

/-- The text of a handle. -/
def text? (p : Interner) (handle : Nat) : Option String :=
  p.texts[handle]?

theorem handle?_eq_some_iff {p : Interner} {text : String} {i : Nat} :
    p.handle? text = some i ↔ p.text? i = some text :=
  p.handles_eq_some_iff text i

/-- The interner with a new text at the end. -/
def push (p : Interner) (text : String) (new : p.handle? text = none) : Interner where
  texts := p.texts.push text
  handles := p.handles.insert text p.texts.size
  handles_eq_some_iff := by
    intro other i
    have known := p.handles_eq_some_iff other i
    have new' : ∀ i : Nat, p.texts[i]? ≠ some text := fun i h => by
      simp [handle?, (p.handles_eq_some_iff text i).2 h] at new
    rw [Std.TreeMap.getElem?_insert, Array.getElem?_push]
    by_cases hi : i = p.texts.size <;> by_cases ht : text = other
    · simp [hi, ht]
    · subst hi
      simp [ht, known]
    · subst ht
      simp [hi, new' i, Ne.symm hi]
    · simp [hi, ht, known]

/-- The handle of a text, which is numbered if it is new. -/
def intern (p : Interner) (text : String) : Interner × Nat :=
  match h : p.handle? text with
  | some i => (p, i)
  | none => (p.push text h, p.size)

end Interner

end AgentCatalog
