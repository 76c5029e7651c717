import AgentCatalog.Proofs.Pattern.Language
import AgentCatalog.Proofs.Pattern.Segments

/-!
# Patterns that match other patterns

A pattern is one of its own texts: every `*` takes a `*`, and every `?` takes a `?`. So a pattern
whose language has that of `p` in it matches `p` itself, read as a text. In this text the `*` stand
for characters of their own, for no text between `*` has any: only the `*` of the other pattern take
them. The main results are

* `matches_self`: a pattern is in its own language;
* `before_of_matches`: a pattern without `?` that matches another one has fewer characters besides
  `*`, or as many of them and more `*`.
-/

namespace AgentCatalog.Pattern

/-- A pattern is in its own language. -/
lemma matches_self (p : List Char) : Matches p p := by
  induction p with
  | nil => exact .nil
  | cons c p ih =>
    by_cases hstar : c = '*'
    · subst hstar
      exact .run ['*'] ih
    · by_cases hany : c = '?'
      · subst hany
        exact .any '?' ih
      · exact .same hstar hany ih

/-- A text has no fewer characters besides `*` than a pattern that matches it. -/
lemma length_filter_le_of_matches {q s : List Char} (hq : '?' ∉ q) (h : Matches q s) :
    (q.filter (· ≠ '*')).length ≤ (s.filter (· ≠ '*')).length := by
  induction h with
  | nil => exact Nat.le_refl _
  | run taken _ ih =>
    have hrest := ih fun hmem => hq (List.mem_cons_of_mem _ hmem)
    rw [List.filter_cons_of_neg (by simp), List.filter_append, List.length_append]
    omega
  | any => exact absurd List.mem_cons_self hq
  | same hstar _ _ ih =>
    have hrest := ih fun hmem => hq (List.mem_cons_of_mem _ hmem)
    rw [List.filter_cons_of_pos (by simpa using hstar),
      List.filter_cons_of_pos (by simpa using hstar), List.length_cons, List.length_cons]
    omega

/-- If the pattern takes all characters besides `*` one by one, its `*` are left with those of the
text, of which no two are together. So each takes one at most. -/
lemma count_star_le_of_matches {q s : List Char} (hq : '?' ∉ q) (hs : Collapsed s)
    (h : Matches q s) (hle : (s.filter (· ≠ '*')).length ≤ (q.filter (· ≠ '*')).length) :
    s.count '*' ≤ q.count '*' ∧ (s.count '*' = q.count '*' → q = s) := by
  induction h with
  | nil => exact ⟨Nat.le_refl _, fun _ => rfl⟩
  | @run taken q s h ih =>
    have hq' : '?' ∉ q := fun hmem => hq (List.mem_cons_of_mem _ hmem)
    obtain ⟨htaken, hs', -⟩ := List.isChain_append.1 hs
    rw [List.filter_append, List.length_append, List.filter_cons_of_neg (by simp)] at hle
    have hrest := length_filter_le_of_matches hq' h
    obtain ⟨hcount, heq⟩ := ih hq' hs' (by omega)
    have hnone : taken.filter (· ≠ '*') = [] := List.eq_nil_of_length_eq_zero (by omega)
    have hstars : ∀ c ∈ taken, c = '*' := by
      simpa using List.filter_eq_nil_iff.1 hnone
    rcases eq_nil_or_eq_star_of_collapsed htaken hstars with rfl | rfl
    · -- a `*` that takes nothing is one more than there are in the text
      rw [List.nil_append, List.count_cons_self]
      exact ⟨by omega, by omega⟩
    · rw [List.singleton_append, List.count_cons_self, List.count_cons_self]
      exact ⟨by omega, fun h => by rw [heq (by omega)]⟩
  | any => exact absurd List.mem_cons_self hq
  | @same c hstar _ q s _ ih =>
    rw [List.filter_cons_of_pos (by simpa using hstar),
      List.filter_cons_of_pos (by simpa using hstar), List.length_cons, List.length_cons] at hle
    obtain ⟨hcount, heq⟩ :=
      ih (fun hmem => hq (List.mem_cons_of_mem _ hmem)) (List.IsChain.of_cons hs) (by omega)
    rw [List.count_cons_of_ne hstar, List.count_cons_of_ne hstar]
    exact ⟨hcount, fun h => by rw [heq h]⟩

/-- A pattern without `?` that matches another pattern has fewer characters besides `*`, or as many
of them and more `*`. -/
theorem before_of_matches {p q : List Char} (hq : '?' ∉ q) (hp : Collapsed p) (hne : p ≠ q)
    (h : Matches q p) :
    (q.filter (· ≠ '*')).length < (p.filter (· ≠ '*')).length ∨
      (q.filter (· ≠ '*')).length = (p.filter (· ≠ '*')).length ∧ p.count '*' < q.count '*' := by
  have hlength := length_filter_le_of_matches hq h
  rcases Nat.lt_or_eq_of_le hlength with hlt | heq
  · exact .inl hlt
  · obtain ⟨hcount, hsame⟩ := count_star_le_of_matches hq hp h (Nat.le_of_eq heq.symm)
    refine .inr ⟨heq, Nat.lt_of_le_of_ne hcount fun hstars => hne (hsame hstars).symm⟩

end AgentCatalog.Pattern
