import AgentCatalog.Proofs.Pattern.Normal
import AgentCatalog.Proofs.Text.Context
import Mathlib.Data.List.Destutter

/-!
# Segments of normal forms

A normal form is cut at its `*` as the raw pattern is. Collapsing leaves one segment of every run of
`*` and does not touch the texts. Folding does not touch the `*`, and folds each text as if it stood
alone, for no text asks what stands behind a `*`:

* `split_collapse`: the segments of a collapsed pattern;
* `split_foldCase`: the segments of a folded pattern;
* `normalize_preserves`: what a normal form has in common with its pattern.
-/

namespace AgentCatalog.Pattern

open Text (foldCase)

/-! ### Collapsing -/

/-- The segments with every run of `*` replaced by one. -/
def mergeStars (segments : List Segment) : List Segment :=
  segments.destutter fun a b => ¬(a = .star ∧ b = .star)

lemma mergeStars_star_star (segments : List Segment) :
    mergeStars (.star :: .star :: segments) = mergeStars (.star :: segments) := by
  rw [mergeStars, List.destutter_cons_cons, if_neg (by simp)]
  rfl

lemma mergeStars_cons {a : Segment} {segments : List Segment}
    (h : ¬(a = .star ∧ segments.head? = some .star)) :
    mergeStars (a :: segments) = a :: mergeStars segments := by
  cases segments with
  | nil => rfl
  | cons b segments =>
    have hab : ¬(a = .star ∧ b = .star) := by simpa using h
    rw [mergeStars, List.destutter_cons_cons, if_pos hab]
    rfl

lemma head?_mergeStars (segments : List Segment) :
    (mergeStars segments).head? = segments.head? := by
  induction segments with
  | nil => rfl
  | cons a segments ih =>
    by_cases h : a = .star ∧ segments.head? = some .star
    · obtain ⟨rfl, hhead⟩ := h
      obtain ⟨rest, rfl⟩ := List.head?_eq_some_iff.1 hhead
      rw [mergeStars_star_star, ih, List.head?_cons, List.head?_cons]
    · rw [mergeStars_cons h, List.head?_cons, List.head?_cons]

lemma head?_split_eq_star_iff {p : List Char} :
    (split p).head? = some .star ↔ p.head? = some '*' := by
  cases p with
  | nil => simp [split]
  | cons c p =>
    by_cases hc : c = '*'
    · simp [hc, split_star_cons]
    · rcases split_cons_cases hc p with ⟨t, segments, -, h⟩ | ⟨-, h⟩ <;> simp [h, hc]

/-- Cutting and collapsing may be done in any order. -/
theorem split_collapse (p : List Char) : split (collapse p) = mergeStars (split p) := by
  induction p with
  | nil => rfl
  | cons c p ih =>
    by_cases hc : c = '*'
    · subst hc
      rw [collapse, split_star_cons]
      split
      · next h =>
        obtain ⟨q, rfl⟩ := List.head?_eq_some_iff.1 h.2
        rw [ih, split_star_cons, mergeStars_star_star]
      · next h =>
        rw [split_star_cons, ih, mergeStars_cons]
        exact fun hstar => h ⟨rfl, head?_split_eq_star_iff.1 hstar.2⟩
    · rw [collapse, if_neg fun h => hc h.1]
      rcases split_cons_cases hc p with ⟨t, segments, hp, hcp⟩ | ⟨hp, hcp⟩
      · -- the character goes to the text that follows, which is the first segment of both
        rw [hp, mergeStars_cons (by simp)] at ih
        rw [hcp, mergeStars_cons (by simp), split, if_neg hc, ih]
      · rw [hcp, mergeStars_cons (by simp), ← ih]
        rcases split_cons_cases hc (collapse p) with ⟨t, segments, hq, -⟩ | ⟨-, hcq⟩
        · have hhead := head?_mergeStars (split p)
          rw [← ih, hq, List.head?_cons] at hhead
          obtain ⟨rest, hrest⟩ := List.head?_eq_some_iff.1 hhead.symm
          exact absurd hrest (hp t rest)
        · exact hcq

/-! ### Folding -/

/-- The segment with its text folded on its own. -/
def Segment.fold : Segment → Segment
  | .star => .star
  | .literal t => .literal (foldCase t)

lemma Segment.fold_eq_star_iff {segment : Segment} : segment.fold = .star ↔ segment = .star := by
  cases segment <;> simp [fold]

lemma split_append_star (a b : List Char) : split (a ++ '*' :: b) = split a ++ .star :: split b := by
  induction a with
  | nil => exact split_star_cons b
  | cons c a ih =>
    by_cases hc : c = '*'
    · rw [hc, List.cons_append, split_star_cons, split_star_cons, ih, List.cons_append]
    · rw [List.cons_append, split, split, if_neg hc, if_neg hc, ih]
      -- the first segment is that of `a`, unless `a` is empty
      rcases split a with _ | ⟨_ | t, segments⟩ <;> rfl

lemma split_of_star_notMem {t : List Char} (hne : t ≠ []) (ht : '*' ∉ t) :
    split t = [.literal t] := by
  induction t with
  | nil => exact absurd rfl hne
  | cons c t ih =>
    rw [List.mem_cons, not_or] at ht
    rw [split, if_neg (Ne.symm ht.1)]
    cases t with
    | nil => rfl
    | cons d t => rw [ih (List.cons_ne_nil d t) ht.2]

lemma star_notMem_foldCase {t : List Char} (ht : '*' ∉ t) : '*' ∉ foldCase t :=
  fun h => ht (Text.mem_of_mem_foldCase (by decide) (by decide) h)

/-- Cutting a pattern and folding may be done in any order. -/
theorem split_foldCase (p : List Char) : split (foldCase p) = (split p).map Segment.fold := by
  -- on the length of the pattern, which is cut at one of its `*`
  induction hn : p.length using Nat.strongRecOn generalizing p with
  | ind n ih =>
    by_cases hstar : '*' ∈ p
    · obtain ⟨a, b, rfl⟩ := List.append_of_mem hstar
      rw [List.length_append, List.length_cons] at hn
      rw [Text.foldCase_append_star, split_append_star, split_append_star,
        ih a.length (by omega) a rfl, ih b.length (by omega) b rfl, List.map_append, List.map_cons]
      rfl
    · by_cases hnil : p = []
      · rw [hnil]
        rfl
      · have hne : foldCase p ≠ [] := fun h => hnil (Text.foldCase_eq_nil_iff.1 h)
        rw [split_of_star_notMem hnil hstar, split_of_star_notMem hne (star_notMem_foldCase hstar)]
        rfl

/-! ### Normal forms -/

lemma split_normalize (raw : List Char) :
    split (normalize raw) = (mergeStars (split raw)).map Segment.fold := by
  have hstars : ∀ a ∈ split raw, ∀ b ∈ split raw,
      ¬(a = .star ∧ b = .star) ↔ ¬(a.fold = .star ∧ b.fold = .star) := by
    intro a _ b _
    rw [Segment.fold_eq_star_iff, Segment.fold_eq_star_iff]
  rw [normalize, split_collapse, split_foldCase]
  exact (List.map_destutter hstars).symm

/-- Where no two `*` stand next to each other, the normal form is the folded pattern. -/
lemma normalize_eq_foldCase {raw : List Char} (h : Collapsed raw) :
    normalize raw = foldCase raw := by
  have hmerge : mergeStars (split raw) = split raw := by rw [← split_collapse, collapse_eq_self h]
  rw [← join_split (normalize raw), split_normalize, hmerge, ← split_foldCase, join_split]

/-- A normal form has no two `*` next to each other, is folded, and is its own normal form. It is
empty for the empty pattern only, has the language of the folded pattern, and is cut into the texts
of the raw pattern, each folded on its own, with one `*` for every run. -/
theorem normalize_preserves (raw : List Char) :
    Collapsed (normalize raw) ∧ foldCase (normalize raw) = normalize raw ∧
    (normalize raw = [] ↔ raw = []) ∧ normalize (normalize raw) = normalize raw ∧
    (∀ s, Matches (normalize raw) s ↔ Matches (foldCase raw) s) ∧
    split (normalize raw) = (mergeStars (split raw)).map Segment.fold := by
  refine ⟨collapsed_collapse _, foldCase_normalize raw, normalize_eq_nil_iff,
    normalize_normalize raw, fun s => ?_, split_normalize raw⟩
  rw [normalize, matches_collapse_iff]

end AgentCatalog.Pattern
