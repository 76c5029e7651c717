import AgentCatalog.Pattern.Language
import AgentCatalog.Rule.Shape
import Mathlib.Data.List.Chain
import Mathlib.Tactic.Lemma

/-!
# Segments and shapes of collapsed patterns

A pattern is collapsed if no two `*` stand next to each other. Its segments alternate between `*`
and texts, and so nothing is lost when only their texts and the places of these are kept:

* `render_ofSegments?`: the shape of alternating segments spells them again;
* `plain_ofSegments?`: the texts in the shape of a pattern are not empty and have no `*`.
-/

namespace AgentCatalog

open Pattern (Segment split join)

namespace Pattern

/-- No two `*` stand next to each other. -/
def Collapsed (p : List Char) : Prop :=
  p.IsChain fun c d => ¬(c = '*' ∧ d = '*')

instance : DecidablePred Collapsed := fun p =>
  inferInstanceAs (Decidable (p.IsChain fun c d => ¬(c = '*' ∧ d = '*')))

/-- A collapsed text of nothing but `*` has at most one of them. -/
lemma eq_nil_or_eq_star_of_collapsed {t : List Char} (ht : Collapsed t)
    (hstars : ∀ c ∈ t, c = '*') : t = [] ∨ t = ['*'] := by
  match t with
  | [] => exact .inl rfl
  | [c] => exact .inr (by rw [hstars c List.mem_cons_self])
  | c :: d :: t =>
    have hpair := (List.isChain_cons_cons.1 ht).1
    exact absurd ⟨hstars c (by simp), hstars d (by simp)⟩ hpair

/-- No two `*` and no two texts stand next to each other. -/
def Alternating (segments : List Segment) : Prop :=
  segments.IsChain fun a b => a = .star ↔ b ≠ .star

@[simp] lemma Segment.text_star : Segment.text .star = ['*'] := rfl

@[simp] lemma Segment.text_literal (t : List Char) : Segment.text (.literal t) = t := rfl

@[simp] lemma Segment.text?_star : Segment.text? .star = none := rfl

@[simp] lemma Segment.text?_literal (t : List Char) : Segment.text? (.literal t) = some t := rfl

/-! ### Cutting a pattern -/

lemma split_star_cons (p : List Char) : split ('*' :: p) = .star :: split p := by
  rw [split, if_pos rfl]

/-- A character other than `*` goes to the text that follows, if one does, else it is a text of its
own. -/
lemma split_cons_cases {c : Char} (hc : c ≠ '*') (p : List Char) :
    (∃ t segments, split p = .literal t :: segments ∧
        split (c :: p) = .literal (c :: t) :: segments) ∨
      ((∀ t segments, split p ≠ .literal t :: segments) ∧
        split (c :: p) = .literal [c] :: split p) := by
  rw [split, if_neg hc]
  split
  · next t segments h => exact .inl ⟨t, segments, h, rfl⟩
  · next h => exact .inr ⟨h, rfl⟩

lemma split_eq_nil_iff {p : List Char} : split p = [] ↔ p = [] := by
  cases p with
  | nil => simp [split]
  | cons c p =>
    simp only [reduceCtorEq, iff_false]
    by_cases hc : c = '*'
    · simp [hc, split_star_cons]
    · rcases split_cons_cases hc p with ⟨t, segments, -, h⟩ | ⟨-, h⟩ <;> simp [h]

lemma mem_split_literal {p t : List Char} (h : .literal t ∈ split p) : t ≠ [] ∧ '*' ∉ t := by
  induction p generalizing t with
  | nil => simp [split] at h
  | cons c p ih =>
    by_cases hc : c = '*'
    · subst hc
      rw [split_star_cons, List.mem_cons] at h
      exact ih (h.resolve_left (by simp))
    · rcases split_cons_cases hc p with ⟨u, segments, hp, hcp⟩ | ⟨-, hcp⟩
      · rw [hcp, List.mem_cons] at h
        rcases h with h | h
        · have hu := (ih (t := u) (by simp [hp])).2
          obtain rfl := Segment.literal.inj h
          exact ⟨by simp, by simp [hu, Ne.symm hc]⟩
        · exact ih (by simp [hp, h])
      · rw [hcp, List.mem_cons] at h
        rcases h with h | h
        · obtain rfl := Segment.literal.inj h
          exact ⟨by simp, by simp [Ne.symm hc]⟩
        · exact ih h

lemma alternating_split {p : List Char} (h : Collapsed p) : Alternating (split p) := by
  induction p with
  | nil => exact .nil
  | cons c p ih =>
    have hp := ih (List.IsChain.of_cons h)
    by_cases hc : c = '*'
    · subst hc
      rw [split_star_cons]
      cases p with
      | nil => exact .singleton _
      | cons d p =>
        -- the next character is no `*`, so a text follows
        have hd : d ≠ '*' := fun hd => (List.isChain_cons_cons.1 h).1 ⟨rfl, hd⟩
        rcases split_cons_cases hd p with ⟨t, segments, -, hdp⟩ | ⟨-, hdp⟩ <;>
          (rw [hdp] at hp ⊢; exact List.isChain_cons_cons.2 ⟨by simp, hp⟩)
    · rcases split_cons_cases hc p with ⟨t, segments, hsp, hcp⟩ | ⟨hsp, hcp⟩
      · rw [hcp]
        rw [hsp] at hp
        cases segments with
        | nil => exact .singleton _
        | cons segment segments =>
          obtain ⟨hfirst, hrest⟩ := List.isChain_cons_cons.1 hp
          exact List.isChain_cons_cons.2 ⟨by simpa using hfirst, hrest⟩
      · rw [hcp]
        cases hs : split p with
        | nil => exact .singleton _
        | cons segment segments =>
          cases segment with
          | star => exact List.isChain_cons_cons.2 ⟨by simp, hs ▸ hp⟩
          | literal t => exact absurd hs (hsp t segments)

/-- From a `*` on, alternating segments are texts with a `*` before each, and a last text. -/
lemma join_star_cons : ∀ {segments : List Segment}, Alternating (.star :: segments) →
    join (.star :: segments)
      = ((Segment.star :: segments).dropLast.filterMap Segment.text?).flatMap ('*' :: ·)
        ++ '*' :: ((Segment.star :: segments).getLast (by simp)).text?.getD []
  | [], _ => rfl
  | [.literal t], _ => by simp [join]
  | .star :: _, h => absurd (List.isChain_cons_cons.1 h).1 (by simp)
  | .literal _ :: .literal _ :: _, h =>
    absurd (List.isChain_cons_cons.1 (List.isChain_cons_cons.1 h).2).1 (by simp)
  | .literal t :: .star :: segments, h => by
    have ih := join_star_cons (List.isChain_cons_cons.1 (List.isChain_cons_cons.1 h).2).2
    rw [List.getLast_cons (by simp), List.getLast_cons (by simp)]
    simp only [join, List.flatMap_cons, List.dropLast_cons_cons] at ih ⊢
    rw [ih]
    simp [List.filterMap_cons]

/-! ### Collapsing -/

lemma head?_collapse (p : List Char) : (collapse p).head? = p.head? := by
  induction p with
  | nil => rfl
  | cons c p ih =>
    rw [collapse]
    split
    · next h => rw [ih, h.2, List.head?_cons, h.1]
    · rfl

lemma collapse_eq_nil_iff {p : List Char} : collapse p = [] ↔ p = [] := by
  rw [← List.head?_eq_none_iff, head?_collapse, List.head?_eq_none_iff]

lemma collapsed_collapse (p : List Char) : Collapsed (collapse p) := by
  induction p with
  | nil => exact .nil
  | cons c p ih =>
    rw [collapse]
    split
    · exact ih
    · next h =>
      have hhead := head?_collapse p
      cases hp : collapse p with
      | nil => exact .singleton _
      | cons d q =>
        rw [hp, List.head?_cons] at hhead
        refine List.isChain_cons_cons.2 ⟨?_, hp ▸ ih⟩
        rintro ⟨rfl, rfl⟩
        exact h ⟨rfl, hhead.symm⟩

end Pattern

/-! ### Shapes -/

namespace Shape

/-- The texts are not empty and have no `*`. -/
def Plain (texts : Shape (List Char)) : Prop :=
  ∀ t ∈ texts.literals, t ≠ [] ∧ '*' ∉ t

section Plain

variable {first last : Option (List Char)} {inner : List (List Char)}
  (h : (structured first inner last).Plain)

include h

lemma Plain.star_notMem_first : '*' ∉ first.getD [] := by
  cases first with
  | none => simp
  | some t => exact (h t (by simp [literals])).2

lemma Plain.of_mem_inner {t : List Char} (ht : t ∈ inner) : t ≠ [] ∧ '*' ∉ t :=
  h t (by simp [literals, ht])

lemma Plain.star_notMem_last : '*' ∉ last.getD [] := by
  cases last with
  | none => simp
  | some t => exact (h t (by simp [literals])).2

end Plain

lemma ofSegments?_cons_cons (first second : Segment) (rest : List Segment) :
    ofSegments? (first :: second :: rest) = some (.structured first.text?
      ((second :: rest).dropLast.filterMap Segment.text?)
      ((second :: rest).getLast (List.cons_ne_nil second rest)).text?) := by
  rw [ofSegments?]

lemma ofSegments?_eq_none_iff {segments : List Segment} :
    ofSegments? segments = none ↔ segments = [] := by
  match segments with
  | [] => simp [ofSegments?]
  | [.star] => simp [ofSegments?]
  | [.literal t] => simp [ofSegments?]
  | first :: second :: rest => simp [ofSegments?]

/-- Only the lone `*` has the shape that catches all. -/
lemma ofSegments?_split_eq_catchAll_iff {p : List Char} :
    ofSegments? (split p) = some .catchAll ↔ p = ['*'] := by
  constructor
  · intro h
    rw [← Pattern.join_split p]
    match hs : split p, h with
    | [.star], _ => rfl
    | [.literal t], h => exact absurd (Option.some.inj h) (by simp)
    | first :: second :: rest, h =>
      rw [ofSegments?_cons_cons] at h
      exact absurd (Option.some.inj h) (by simp)
  · rintro rfl
    rfl

/-- A shape has the texts of the segments, from left to right. -/
lemma literals_ofSegments? {segments : List Segment} {texts : Shape (List Char)}
    (h : ofSegments? segments = some texts) :
    texts.literals = segments.filterMap Segment.text? := by
  match segments, h with
  | [.star], h =>
    obtain rfl := Option.some.inj h
    rfl
  | [.literal t], h =>
    obtain rfl := Option.some.inj h
    rfl
  | first :: second :: rest, h =>
    rw [ofSegments?_cons_cons] at h
    obtain rfl := Option.some.inj h
    have hlast := List.dropLast_append_getLast (List.cons_ne_nil second rest)
    -- only the last of the segments behind the first one is apart from the inner ones
    rw [literals, List.append_assoc]
    conv_rhs => rw [← hlast, ← List.singleton_append, List.filterMap_append, List.filterMap_append]
    rfl

lemma plain_ofSegments? {p : List Char} {texts : Shape (List Char)}
    (h : ofSegments? (split p) = some texts) : texts.Plain := by
  intro t ht
  rw [literals_ofSegments? h, List.mem_filterMap] at ht
  obtain ⟨segment, hmem, hs⟩ := ht
  cases segment with
  | star => simp [Segment.text?] at hs
  | literal u =>
    obtain rfl := Option.some.inj hs
    exact Pattern.mem_split_literal hmem

/-- The shape of alternating segments spells them. -/
lemma render_ofSegments? {segments : List Segment} (ha : Pattern.Alternating segments)
    {texts : Shape (List Char)} (h : ofSegments? segments = some texts) :
    texts.render = join segments := by
  match segments, h with
  | [.star], h =>
    obtain rfl := Option.some.inj h
    rfl
  | [.literal t], h =>
    obtain rfl := Option.some.inj h
    simp [render, join]
  | .star :: second :: rest, h =>
    obtain rfl := Option.some.inj h
    rw [Pattern.join_star_cons ha, List.getLast_cons (List.cons_ne_nil second rest)]
    simp [render, List.filterMap_cons]
  | .literal t :: .literal u :: rest, _ => exact absurd (List.isChain_cons_cons.1 ha).1 (by simp)
  | .literal t :: .star :: rest, h =>
    obtain rfl := Option.some.inj h
    have hjoin := Pattern.join_star_cons (List.isChain_cons_cons.1 ha).2
    rw [join, List.flatMap_cons, ← join, hjoin]
    simp [render]

end Shape

end AgentCatalog
