import AgentCatalog.Proofs.Pattern.NormalSegments

/-!
# The segmentation of a pattern

Many rows of segments spell the same pattern: a text may be cut in two, an empty text may stand
anywhere, and a `*` may be hidden within a text. A row with none of these is a segmentation. A
pattern has one segmentation only, which is what cutting the pattern gives:

* `segmentation_split`: a pattern is cut into a segmentation;
* `Segmentation.split_eq`: cutting gives back the segments that spell the pattern;
* `segmentation_unique`: both, and the number of `*`.
-/

namespace AgentCatalog.Pattern

/-- The segments spell the pattern. No text among them is empty or has a `*`, and no two texts stand
next to each other. -/
structure Segmentation (p : List Char) (segments : List Segment) : Prop where
  join_eq : join segments = p
  texts : ∀ t, .literal t ∈ segments → t ≠ [] ∧ '*' ∉ t
  apart : segments.IsChain fun a b => a = .star ∨ b = .star

variable {p : List Char} {segments : List Segment}

/-! ### What the segments spell -/

lemma Segmentation.tail {a : Segment} (h : Segmentation p (a :: segments)) :
    Segmentation (join segments) segments where
  join_eq := rfl
  texts t ht := h.texts t (List.mem_cons_of_mem a ht)
  apart := List.IsChain.of_cons h.apart

/-- The segments of a segmentation come out when the pattern that they spell is cut. -/
theorem Segmentation.split_eq : ∀ {p : List Char} {segments : List Segment},
    Segmentation p segments → split p = segments
  | _, [], h => by
    rw [← h.join_eq]
    rfl
  | _, .star :: rest, h => by
    rw [← h.join_eq]
    exact (split_star_cons (join rest)).trans (congrArg (Segment.star :: ·) h.tail.split_eq)
  | _, [.literal t], h => by
    obtain ⟨hne, hstar⟩ := h.texts t List.mem_cons_self
    rw [← h.join_eq]
    exact (congrArg split (List.append_nil t)).trans (split_of_star_notMem hne hstar)
  | _, .literal t :: .star :: rest, h => by
    obtain ⟨hne, hstar⟩ := h.texts t List.mem_cons_self
    rw [← h.join_eq]
    calc split (join (.literal t :: .star :: rest))
        = split t ++ .star :: split (join rest) := split_append_star t (join rest)
      _ = .literal t :: .star :: rest := by
        rw [split_of_star_notMem hne hstar, h.tail.tail.split_eq, List.singleton_append]
  | _, .literal t :: .literal u :: rest, h =>
    absurd (List.isChain_cons_cons.1 h.apart).1 (by simp)

/-- If no text has a `*`, there are as many `*` as segments that are one. -/
lemma count_star_join (h : ∀ t, .literal t ∈ segments → '*' ∉ t) :
    (join segments).count '*' = segments.count .star := by
  induction segments with
  | nil => rfl
  | cons a segments ih =>
    have hrest := ih fun t ht => h t (List.mem_cons_of_mem a ht)
    rw [join, List.flatMap_cons, List.count_append, ← join, hrest]
    cases a with
    | star => rw [List.count_cons_self, Segment.text_star, List.count_singleton_self, Nat.add_comm]
    | literal t =>
      rw [List.count_cons_of_ne (by simp), Segment.text_literal,
        List.count_eq_zero_of_not_mem (h t List.mem_cons_self), Nat.zero_add]

/-! ### What a pattern is cut into -/

/-- Texts are cut at every `*` and nowhere else, so there is a `*` between any two of them. -/
lemma apart_split (p : List Char) : (split p).IsChain fun a b => a = .star ∨ b = .star := by
  induction p with
  | nil => exact .nil
  | cons c p ih =>
    by_cases hc : c = '*'
    · rw [hc, split_star_cons]
      exact List.isChain_cons.2 ⟨fun _ _ => .inl rfl, ih⟩
    · rcases split_cons_cases hc p with ⟨t, segments, hp, hcp⟩ | ⟨hp, hcp⟩
      · -- a longer text stands where the text stood
        rw [hp, List.isChain_cons] at ih
        rw [hcp, List.isChain_cons]
        exact ⟨fun b hb => .inr ((ih.1 b hb).resolve_left (by simp)), ih.2⟩
      · rw [hcp, List.isChain_cons]
        refine ⟨fun b hb => .inr ?_, ih⟩
        obtain ⟨segments, hsegments⟩ := List.head?_eq_some_iff.1 (Option.mem_def.1 hb)
        cases b with
        | star => rfl
        | literal t => exact absurd hsegments (hp t segments)

theorem segmentation_split (p : List Char) : Segmentation p (split p) where
  join_eq := join_split p
  texts _ := mem_split_literal
  apart := apart_split p

/-- A pattern has one segmentation, in which there are as many `*` as in the pattern. It is found by
cutting the pattern. -/
theorem segmentation_unique (p : List Char) :
    (∀ segments, Segmentation p segments ↔ segments = split p) ∧
      (split p).count .star = p.count '*' := by
  refine ⟨fun segments => ⟨fun h => h.split_eq.symm, fun h => ?_⟩, ?_⟩
  · rw [h]
    exact segmentation_split p
  · have hcount := count_star_join fun t ht => (mem_split_literal (p := p) ht).2
    rw [← hcount, join_split]

end AgentCatalog.Pattern
