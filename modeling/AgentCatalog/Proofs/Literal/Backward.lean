import AgentCatalog.Proofs.Literal.FirstMatch
import Mathlib.Data.Set.Subsingleton

/-!
# A literal at the end of a text

From the end of a text a literal is matched backwards. It has to come out where the literal would
have to be matched from to reach the end, whatever the widths of the characters that a `?` takes on
the way, and the floor counts only when the place has been found. The main result is
`matchEnd_eq_some_iff`.
-/

namespace AgentCatalog.Literal

open Utf8 (encode Boundary)
open Pattern (Covers)

/-- Matched from the offset `start` on, which is a boundary of the text and not before `floor`, the
literal takes what is left of the text. -/
structure TakesEnd (l : Literal) (s : List Char) (floor start : Nat) : Prop where
  boundary : Boundary s start
  floor_le : floor ≤ start
  le_length : start ≤ (encode s).length
  matchFrom_eq : l.matchFrom (encode s) start = some (encode s).length

variable {t : String} {s : List Char} {floor start : Nat}

/-- The end that a literal takes is one that its characters cover. -/
lemma takesEnd_iff : (ofText t).TakesEnd s floor start ↔
    ∃ x u, s = x ++ u ∧ Covers t.toList u ∧ (encode x).length = start ∧ floor ≤ start := by
  constructor
  · rintro ⟨hboundary, hfloor, -, hmatch⟩
    obtain ⟨x, u, z, rfl, hu, hx, hstop⟩ := matchFrom_boundary_iff.1 ⟨hboundary, hmatch⟩
    -- what is taken reaches the end, so nothing is left behind it
    have hz : encode z = [] := by
      rw [Utf8.encode_append (x ++ u) z, List.length_append] at hstop
      exact List.eq_nil_of_length_eq_zero (by omega)
    exact ⟨x, u, by rw [Utf8.encode_eq_nil_iff.1 hz, List.append_nil], hu, hx, hfloor⟩
  · rintro ⟨x, u, rfl, hu, rfl, hfloor⟩
    obtain ⟨hboundary, hmatch⟩ :=
      (matchFrom_boundary_iff (t := t)).2 ⟨x, u, [], (List.append_nil _).symm, hu, rfl, rfl⟩
    exact ⟨hboundary, hfloor, hboundary.le_length, hmatch⟩

lemma matchEnd_eq_some_iff_covers : (ofText t).matchEnd (encode s) floor = some start ↔
    ∃ x u, s = x ++ u ∧ Covers t.toList u ∧ (encode x).length = start ∧ floor ≤ start := by
  rw [matchEnd_eq, bytes_ofText, takeBack?_encode, Option.map_map]
  simp only [Option.filter_eq_some_iff, Option.map_eq_some_iff, Pattern.back?_eq_some_iff,
    Function.comp_apply, List.length_reverse, decide_eq_true_eq]
  constructor
  · rintro ⟨⟨x, ⟨u, hs, hu⟩, hx⟩, hfloor⟩
    exact ⟨x, u, hs, hu, hx, hfloor⟩
  · rintro ⟨x, u, hs, hu, hx, hfloor⟩
    exact ⟨⟨x, ⟨u, hs, hu⟩, hx⟩, hfloor⟩

lemma takesAll_iff_covers : (ofText t).takesAll (encode s) = true ↔ Covers t.toList s := by
  rw [takesAll_encode, beq_iff_eq, Pattern.front?_eq_some_iff]
  simp only [List.append_nil]
  constructor
  · rintro ⟨u, rfl, hu⟩
    exact hu
  · exact fun hs => ⟨s, rfl, hs⟩

/-- A literal takes the whole of a text if it takes the end of it from the start on. -/
lemma takesAll_iff_matchEnd :
    (ofText t).takesAll (encode s) = true ↔ (ofText t).matchEnd (encode s) 0 = some 0 := by
  rw [takesAll_iff_covers, matchEnd_eq_some_iff_covers]
  constructor
  · exact fun hs => ⟨[], s, rfl, hs, rfl, Nat.le_refl 0⟩
  · rintro ⟨x, u, rfl, hu, hx, -⟩
    rw [Utf8.encode_eq_nil_iff.1 (List.eq_nil_of_length_eq_zero hx), List.nil_append]
    exact hu

/-- Backwards a literal is found where, forwards, it takes the end of the text, and there is at most
one such place. -/
theorem matchEnd_eq_some_iff (l : Literal) (s : List Char) (floor : Nat) :
    (∀ start, l.matchEnd (encode s) floor = some start ↔ l.TakesEnd s floor start) ∧
    {start | l.TakesEnd s floor start}.Subsingleton ∧
    (l.takesAll (encode s) = true ↔ l.matchEnd (encode s) 0 = some 0) := by
  obtain ⟨text, bytes, rfl⟩ := l
  change (∀ start, (ofText text).matchEnd (encode s) floor = some start ↔
      (ofText text).TakesEnd s floor start) ∧
    {start | (ofText text).TakesEnd s floor start}.Subsingleton ∧
    ((ofText text).takesAll (encode s) = true ↔ (ofText text).matchEnd (encode s) 0 = some 0)
  have hiff : ∀ start, (ofText text).matchEnd (encode s) floor = some start ↔
      (ofText text).TakesEnd s floor start := fun start => by
    rw [matchEnd_eq_some_iff_covers, takesEnd_iff]
  refine ⟨hiff, fun start hstart start' hstart' => ?_, takesAll_iff_matchEnd⟩
  have hfound := (hiff start).2 hstart
  rw [(hiff start').2 hstart'] at hfound
  exact (Option.some.inj hfound).symm

/-- The `?` would take the `é`, but the floor lies behind its first byte. -/
example : (ofText "?b").matchEnd (encode "aéb".toList) 1 = some 1 ∧
    (ofText "?b").matchEnd (encode "aéb".toList) 2 = none := by decide

end AgentCatalog.Literal
