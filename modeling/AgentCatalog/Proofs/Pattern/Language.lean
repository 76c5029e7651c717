import AgentCatalog.Pattern.Language
import Mathlib.Data.List.Forall2

/-!
# Matching a pattern from both ends inwards

A pattern is matched by the texts between its `*`. A text without `*` covers as many characters as
it has, one by one, so it is matched at the start of a text (`front?`), at its end (`back?`), or at
the first place where it covers anything (`behindFirst?`). This module relates the three to the
language of a pattern. The main result is

* `foldlM_behindFirst?_isSome_iff`: texts with `*` around them are matched by looking for the first
  place of each in turn. No other choice of places leaves more to match the others in.
-/

namespace AgentCatalog.Pattern

/-! ### The language of a pattern, from its parts -/

lemma matches_append_iff {p q s : List Char} :
    Matches (p ++ q) s ↔ ∃ a b, s = a ++ b ∧ Matches p a ∧ Matches q b := by
  constructor
  · intro h
    induction p generalizing s with
    | nil => exact ⟨[], s, rfl, .nil, h⟩
    | cons c p ih =>
      cases h with
      | run taken h =>
        obtain ⟨a, b, rfl, ha, hb⟩ := ih h
        exact ⟨taken ++ a, b, by simp, .run taken ha, hb⟩
      | any d h =>
        obtain ⟨a, b, rfl, ha, hb⟩ := ih h
        exact ⟨d :: a, b, rfl, .any d ha, hb⟩
      | same hstar hany h =>
        obtain ⟨a, b, rfl, ha, hb⟩ := ih h
        exact ⟨c :: a, b, rfl, .same hstar hany ha, hb⟩
  · rintro ⟨a, b, rfl, ha, hb⟩
    induction ha with
    | nil => exact hb
    | run taken _ ih =>
      rw [List.append_assoc]
      exact .run taken ih
    | any d _ ih => exact .any d ih
    | same hstar hany _ ih => exact .same hstar hany ih

lemma matches_star_cons_iff {p s : List Char} :
    Matches ('*' :: p) s ↔ ∃ a b, s = a ++ b ∧ Matches p b := by
  constructor
  · intro h
    cases h with
    | run taken h => exact ⟨taken, _, rfl, h⟩
    | same hstar => exact absurd rfl hstar
  · rintro ⟨a, b, rfl, h⟩
    exact .run a h

/-- What a `*` starts still matches when there is more before it. -/
lemma matches_star_cons_of_suffix {p s t : List Char} (h : Matches ('*' :: p) s) (hst : s <:+ t) :
    Matches ('*' :: p) t := by
  obtain ⟨x, rfl⟩ := hst
  obtain ⟨a, b, rfl, hb⟩ := matches_star_cons_iff.1 h
  exact matches_star_cons_iff.2 ⟨x ++ a, b, by simp, hb⟩

/-! ### Texts without `*` -/

/-- A character of a pattern, other than `*`, takes a character of a text. -/
def Takes (p c : Char) : Prop :=
  p = '?' ∨ p = c

instance : DecidableRel Takes := fun p c => inferInstanceAs (Decidable (p = '?' ∨ p = c))

/-- A part of a pattern takes a text, character for character. -/
def Covers (t s : List Char) : Prop :=
  List.Forall₂ Takes t s

lemma Covers.length_eq {t s : List Char} (h : Covers t s) : t.length = s.length :=
  List.Forall₂.length_eq h

lemma matches_iff_covers {t s : List Char} (ht : '*' ∉ t) : Matches t s ↔ Covers t s := by
  constructor
  · intro h
    induction h with
    | nil => exact .nil
    | run => exact absurd List.mem_cons_self ht
    | any c _ ih => exact .cons (.inl rfl) (ih fun hmem => ht (List.mem_cons_of_mem _ hmem))
    | same _ _ _ ih => exact .cons (.inr rfl) (ih fun hmem => ht (List.mem_cons_of_mem _ hmem))
  · intro h
    induction h with
    | nil => exact .nil
    | @cons p c t s hpc _ ih =>
      rw [List.mem_cons, not_or] at ht
      by_cases hp : p = '?'
      · subst hp
        exact .any c (ih ht.2)
      · obtain rfl : p = c := hpc.resolve_left hp
        exact .same (Ne.symm ht.1) hp (ih ht.2)

/-! ### At the ends of a text -/

/-- What is left of a text behind the characters that a part of a pattern takes from its start. -/
def front? : List Char → List Char → Option (List Char)
  | [], s => some s
  | _ :: _, [] => none
  | p :: t, c :: s => if Takes p c then front? t s else none

/-- What is left of a text before the characters that a part of a pattern takes from its end. -/
def back? (t s : List Char) : Option (List Char) :=
  (front? t.reverse s.reverse).map List.reverse

lemma front?_eq_some_iff {t s b : List Char} :
    front? t s = some b ↔ ∃ a, s = a ++ b ∧ Covers t a := by
  induction t generalizing s with
  | nil =>
    simp only [front?, Option.some.injEq]
    constructor
    · rintro rfl
      exact ⟨[], rfl, .nil⟩
    · rintro ⟨a, rfl, ha⟩
      rw [List.forall₂_nil_left_iff.1 ha, List.nil_append]
  | cons p t ih =>
    cases s with
    | nil =>
      simp only [front?, reduceCtorEq, false_iff]
      rintro ⟨a, ha, hc⟩
      rw [(List.append_eq_nil_iff.1 ha.symm).1] at hc
      cases hc
    | cons c s =>
      simp only [front?, Option.ite_none_right_eq_some, ih]
      constructor
      · rintro ⟨hpc, a, rfl, ha⟩
        exact ⟨c :: a, rfl, .cons hpc ha⟩
      · rintro ⟨_, ha, hc⟩
        cases hc with
        | cons hpd hc =>
          rw [List.cons_append, List.cons.injEq] at ha
          obtain ⟨rfl, rfl⟩ := ha
          exact ⟨hpd, _, rfl, hc⟩

lemma back?_eq_some_iff {t s a : List Char} :
    back? t s = some a ↔ ∃ b, s = a ++ b ∧ Covers t b := by
  simp only [back?, Option.map_eq_some_iff, front?_eq_some_iff]
  constructor
  · rintro ⟨_, ⟨b, hs, hb⟩, rfl⟩
    refine ⟨b.reverse, ?_, ?_⟩
    · rw [← List.reverse_append, ← hs, List.reverse_reverse]
    · rw [Covers, ← List.forall₂_reverse_iff, List.reverse_reverse]
      exact hb
  · rintro ⟨b, rfl, hb⟩
    exact ⟨a.reverse, ⟨b.reverse, by simp, List.forall₂_reverse_iff.2 hb⟩, by simp⟩

/-- What is taken from the end of `a ++ s` is taken from that of `s`, if it leaves all of `a`. -/
lemma back?_append_eq_some_iff {t a s x : List Char} :
    back? t (a ++ s) = some x ∧ a.length ≤ x.length ↔ ∃ m, x = a ++ m ∧ back? t s = some m := by
  simp only [back?_eq_some_iff]
  constructor
  · rintro ⟨⟨b, h, hb⟩, hle⟩
    rcases List.append_eq_append_iff.1 h with ⟨m, rfl, hs⟩ | ⟨m, rfl, hm⟩
    · exact ⟨m, rfl, b, hs, hb⟩
    · -- the end would reach into `a`, unless `m` is empty
      rw [List.length_append] at hle
      obtain rfl : m = [] := List.eq_nil_of_length_eq_zero (by omega)
      exact ⟨[], by simp, b, by simpa using hm.symm, hb⟩
  · rintro ⟨m, rfl, b, rfl, hb⟩
    exact ⟨⟨b, by simp, hb⟩, by simp⟩

/-! ### The first place -/

/-- What is left of a text behind the first place where a part of a pattern takes anything. -/
def behindFirst? (t : List Char) : List Char → Option (List Char)
  | [] => none
  | c :: s => (front? t (c :: s)).or (behindFirst? t s)

lemma exists_of_behindFirst? {t s r : List Char} (h : behindFirst? t s = some r) :
    ∃ a b, s = a ++ b ++ r ∧ Covers t b := by
  induction s with
  | nil => simp [behindFirst?] at h
  | cons c s ih =>
    rw [behindFirst?, Option.or_eq_some_iff] at h
    rcases h with h | ⟨-, h⟩
    · obtain ⟨b, hs, hb⟩ := front?_eq_some_iff.1 h
      exact ⟨[], b, hs, hb⟩
    · obtain ⟨a, b, rfl, hb⟩ := ih h
      exact ⟨c :: a, b, by simp, hb⟩

/-- The first place leaves at least as much of the text as any other. -/
lemma behindFirst?_of_covers {t a b c : List Char} (ht : t ≠ []) (hb : Covers t b) :
    ∃ r, behindFirst? t (a ++ b ++ c) = some r ∧ c <:+ r := by
  have hlen := hb.length_eq
  have hpos := List.length_pos_iff.2 ht
  induction a with
  | nil =>
    obtain ⟨x, b', rfl⟩ := List.exists_cons_of_length_pos (hlen ▸ hpos)
    have hf : front? t (x :: (b' ++ c)) = some c := front?_eq_some_iff.2 ⟨x :: b', rfl, hb⟩
    refine ⟨c, ?_, List.suffix_rfl⟩
    rw [List.nil_append, List.cons_append, behindFirst?, hf, Option.some_or]
  | cons x a ih =>
    rw [List.cons_append, List.cons_append, behindFirst?]
    cases hf : front? t (x :: (a ++ b ++ c)) with
    | none => simpa using ih
    | some r =>
      -- both `r` and `c` end the text, and no more characters are taken before `r`
      obtain ⟨b', heq, hb'⟩ := front?_eq_some_iff.1 hf
      have hsuff : c <:+ x :: (a ++ b ++ c) := ⟨x :: (a ++ b), by simp⟩
      have hsuff' : r <:+ x :: (a ++ b ++ c) := ⟨b', heq.symm⟩
      refine ⟨r, rfl, List.suffix_of_suffix_length_le hsuff hsuff' ?_⟩
      have := congrArg List.length heq
      have := hb'.length_eq
      simp only [List.length_cons, List.length_append] at *
      omega

lemma behindFirst?_eq_none_iff {t s : List Char} (ht : t ≠ []) :
    behindFirst? t s = none ↔ ∀ a b c, s = a ++ b ++ c → ¬ Covers t b := by
  constructor
  · rintro hnone a b c rfl hb
    obtain ⟨r, hr, -⟩ := behindFirst?_of_covers (a := a) (c := c) ht hb
    rw [hnone] at hr
    cases hr
  · intro h
    rw [Option.eq_none_iff_forall_ne_some]
    intro r hr
    obtain ⟨a, b, hs, hb⟩ := exists_of_behindFirst? hr
    exact h a b r hs hb

/-- What is left is what lies behind the place that has the fewest characters before it. -/
lemma behindFirst?_eq_some_iff {t s r : List Char} (ht : t ≠ []) :
    behindFirst? t s = some r ↔ ∃ a b, s = a ++ b ++ r ∧ Covers t b ∧
      ∀ a' b' r', s = a' ++ b' ++ r' → Covers t b' → a.length ≤ a'.length := by
  constructor
  · intro h
    obtain ⟨a, b, rfl, hb⟩ := exists_of_behindFirst? h
    refine ⟨a, b, rfl, hb, fun a' b' r' hs hb' => ?_⟩
    obtain ⟨r'', hr'', hsuff⟩ := behindFirst?_of_covers (a := a') (c := r') ht hb'
    rw [← hs, h, Option.some.injEq] at hr''
    subst hr''
    -- as many characters are taken at both places, and no fewer are left behind the first
    have := hsuff.length_le
    have := hb.length_eq
    have := hb'.length_eq
    have := congrArg List.length hs
    simp only [List.length_append] at this
    omega
  · rintro ⟨a, b, rfl, hb, hfirst⟩
    obtain ⟨r', hr', hsuff⟩ := behindFirst?_of_covers (a := a) (c := r) ht hb
    obtain ⟨a', b', hs, hb'⟩ := exists_of_behindFirst? hr'
    have hle := hfirst a' b' r' hs hb'
    have hlen := congrArg List.length hs
    have := hb.length_eq
    have := hb'.length_eq
    simp only [List.length_append] at hlen
    rw [hr', hsuff.eq_of_length_le (by omega)]

/-- The pattern of texts with a `*` before and behind each. -/
def starred (ts : List (List Char)) : List Char :=
  ts.flatMap ('*' :: ·) ++ ['*']

lemma starred_cons (t : List Char) (ts : List (List Char)) :
    starred (t :: ts) = '*' :: (t ++ starred ts) := by
  simp [starred]

lemma exists_starred_eq_cons (ts : List (List Char)) : ∃ p, starred ts = '*' :: p := by
  cases ts with
  | nil => exact ⟨[], rfl⟩
  | cons t ts => exact ⟨_, starred_cons t ts⟩

theorem foldlM_behindFirst?_isSome_iff {ts : List (List Char)}
    (hts : ∀ t ∈ ts, t ≠ [] ∧ '*' ∉ t) (s : List Char) :
    (ts.foldlM (fun s t => behindFirst? t s) s).isSome = true ↔ Matches (starred ts) s := by
  induction ts generalizing s with
  | nil => simp [starred, matches_star]
  | cons t ts ih =>
    obtain ⟨ht, hstar⟩ := hts t List.mem_cons_self
    have hts' : ∀ t ∈ ts, t ≠ [] ∧ '*' ∉ t := fun u hu => hts u (List.mem_cons_of_mem t hu)
    rw [List.foldlM_cons, starred_cons, matches_star_cons_iff]
    constructor
    · intro h
      cases hr : behindFirst? t s with
      | none => simp [hr] at h
      | some r =>
        rw [hr] at h
        obtain ⟨a, b, rfl, hb⟩ := exists_of_behindFirst? hr
        refine ⟨a, b ++ r, by simp, matches_append_iff.2 ⟨b, r, rfl, ?_, (ih hts' r).1 h⟩⟩
        exact (matches_iff_covers hstar).2 hb
    · rintro ⟨a, _, rfl, h⟩
      obtain ⟨b, c, rfl, hb, hc⟩ := matches_append_iff.1 h
      obtain ⟨r, hr, hcr⟩ :=
        behindFirst?_of_covers (a := a) (c := c) ht ((matches_iff_covers hstar).1 hb)
      obtain ⟨p, hp⟩ := exists_starred_eq_cons ts
      rw [← List.append_assoc, hr]
      refine (ih hts' r).2 ?_
      -- the rest `c` is a suffix of `r`, and the other texts still start with a `*`
      rw [hp] at hc ⊢
      exact matches_star_cons_of_suffix hc hcr

end AgentCatalog.Pattern
