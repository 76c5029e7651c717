import AgentCatalog.Proofs.Pattern.Segments

/-!
# Patterns and the texts they are cut into

The shape of a pattern is compared with the pattern itself. What a shape spells has no two `*` next
to each other, whatever pattern the shape was taken from, so a pattern that has them is never spelled
again. From any other pattern nothing is lost:

* `collapsed_render`: what a shape over plain texts spells is collapsed;
* `render_eq_iff_collapsed`: the shape of a pattern spells it if it is collapsed, and only then;
* `cutsAtStars_of_render_eq`: the kind of the shape, its ends and its inner texts, in terms of the
  `*` of the pattern.
-/

namespace AgentCatalog

open Pattern (Collapsed split)

namespace Pattern

lemma collapsed_of_star_notMem {t : List Char} (ht : '*' ∉ t) : Collapsed t := by
  induction t with
  | nil => exact .nil
  | cons c t ih =>
    rw [List.mem_cons, not_or] at ht
    cases t with
    | nil => exact .singleton c
    | cons d t => exact List.isChain_cons_cons.2 ⟨fun h => ht.1 h.1.symm, ih ht.2⟩

/-- A text without `*` stands before a pattern that starts with `*`. -/
lemma collapsed_append_star {t p : List Char} (ht : '*' ∉ t) (hp : Collapsed ('*' :: p)) :
    Collapsed (t ++ '*' :: p) := by
  refine List.isChain_append.2 ⟨collapsed_of_star_notMem ht, hp, fun c hc d _ h => ?_⟩
  exact ht (h.1 ▸ List.mem_of_getLast? hc)

/-- A `*` stands before a text without `*` that is not empty. -/
lemma collapsed_star_cons {t p : List Char} (hne : t ≠ []) (ht : '*' ∉ t)
    (hp : Collapsed (t ++ p)) : Collapsed ('*' :: (t ++ p)) := by
  cases t with
  | nil => exact absurd rfl hne
  | cons c t =>
    refine List.isChain_cons_cons.2 ⟨fun h => ht ?_, hp⟩
    rw [h.2]
    exact List.mem_cons_self

end Pattern

namespace Shape

variable {texts : Shape (List Char)} {p : List Char}

/-! ### What a shape spells -/

/-- From the first `*` on. -/
lemma collapsed_inner {inner : List (List Char)} (hinner : ∀ t ∈ inner, t ≠ [] ∧ '*' ∉ t)
    {t : List Char} (ht : '*' ∉ t) :
    ∃ p, inner.flatMap ('*' :: ·) ++ '*' :: t = '*' :: p ∧ Collapsed ('*' :: p) := by
  induction inner with
  | nil =>
    refine ⟨t, rfl, ?_⟩
    cases t with
    | nil => exact .singleton '*'
    | cons c t =>
      simpa using Pattern.collapsed_star_cons (p := []) (List.cons_ne_nil c t) ht
        (by simpa using Pattern.collapsed_of_star_notMem ht)
  | cons u inner ih =>
    obtain ⟨hu, hinner⟩ := List.forall_mem_cons.1 hinner
    obtain ⟨p, hp, hcollapsed⟩ := ih hinner
    refine ⟨u ++ '*' :: p, ?_, ?_⟩
    · rw [List.flatMap_cons, List.append_assoc, hp, List.cons_append]
    · exact Pattern.collapsed_star_cons hu.1 hu.2 (Pattern.collapsed_append_star hu.2 hcollapsed)

/-- No two `*` stand next to each other in what a shape spells. -/
theorem collapsed_render (h : texts.Plain) : Collapsed texts.render := by
  cases texts with
  | catchAll => exact .singleton '*'
  | exact t => exact Pattern.collapsed_of_star_notMem (h t (List.mem_singleton_self t)).2
  | structured first inner last =>
    obtain ⟨p, hp, hcollapsed⟩ := collapsed_inner (fun _ => h.of_mem_inner) h.star_notMem_last
    rw [render, List.append_assoc, hp]
    exact Pattern.collapsed_append_star h.star_notMem_first hcollapsed

/-- The shape of a pattern spells it if the pattern is collapsed, and only then. -/
theorem render_eq_iff_collapsed (h : ofSegments? (split p) = some texts) :
    texts.render = p ↔ Collapsed p := by
  constructor
  · intro hrender
    rw [← hrender]
    exact collapsed_render (plain_ofSegments? h)
  · intro hcollapsed
    rw [render_ofSegments? (Pattern.alternating_split hcollapsed) h, Pattern.join_split]

/-! ### The kind of a shape -/

/-- What a shape has to do with the `*` of a pattern: a text without `*` stands at an end unless
there is a `*`, and the inner texts are the pieces in between, from left to right. -/
structure CutsAtStars (texts : Shape (List Char)) (p : List Char) : Prop where
  catchAll_iff : texts = .catchAll ↔ p = ['*']
  exact_iff : (∃ t, texts = .exact t) ↔ '*' ∉ p
  eq_of_exact : ∀ t, texts = .exact t → t = p
  first_iff : ∀ first inner last, texts = .structured first inner last →
    (first = none ↔ p.head? = some '*')
  last_iff : ∀ first inner last, texts = .structured first inner last →
    (last = none ↔ p.getLast? = some '*')
  pieces_eq : ∀ first inner last, texts = .structured first inner last →
    first.getD [] :: inner ++ [last.getD []] = p.splitOn '*'

lemma render_eq_intercalate (first : Option (List Char)) (inner : List (List Char))
    (last : Option (List Char)) :
    (structured first inner last).render =
      ['*'].intercalate (first.getD [] :: inner ++ [last.getD []]) := by
  have hinner : inner.flatMap ('*' :: ·) ++ '*' :: last.getD [] =
      '*' :: ['*'].intercalate (inner ++ [last.getD []]) := by
    induction inner with
    | nil => simp
    | cons t inner ih =>
      rw [List.flatMap_cons, List.append_assoc, ih, List.cons_append, List.cons_append,
        List.intercalate_cons_of_ne_nil (by simp)]
      simp
  rw [render, List.append_assoc, hinner, List.cons_append,
    List.intercalate_cons_of_ne_nil (by simp)]
  simp

lemma head?_render_eq_star_iff {first : Option (List Char)} {inner : List (List Char)}
    {last : Option (List Char)} (h : (structured first inner last).Plain) :
    (structured first inner last).render.head? = some '*' ↔ first = none := by
  cases first with
  | none => cases inner <;> simp [render]
  | some t =>
    obtain ⟨hne, hstar⟩ := h t (by simp [literals])
    obtain ⟨c, t, rfl⟩ := List.exists_cons_of_ne_nil hne
    simp only [List.mem_cons, not_or] at hstar
    simpa [render] using Ne.symm hstar.1

lemma getLast?_render_eq_star_iff {first : Option (List Char)} {inner : List (List Char)}
    {last : Option (List Char)} (h : (structured first inner last).Plain) :
    (structured first inner last).render.getLast? = some '*' ↔ last = none := by
  rw [render, List.getLast?_append]
  cases last with
  | none => simp
  | some t =>
    obtain ⟨hne, hstar⟩ := h t (by simp [literals])
    rw [Option.getD_some, List.getLast?_cons_of_ne_nil hne, List.getLast?_eq_some_getLast hne]
    simpa using fun heq : t.getLast hne = '*' => hstar (heq ▸ List.getLast_mem hne)

/-- The shape of a pattern that it spells again has the kind, the ends and the inner texts that the
`*` of the pattern tell. -/
theorem cutsAtStars_of_render_eq (h : ofSegments? (split p) = some texts)
    (hrender : texts.render = p) : texts.CutsAtStars p where
  catchAll_iff := by rw [← ofSegments?_split_eq_catchAll_iff, h, Option.some.injEq]
  exact_iff := by
    constructor
    · rintro ⟨t, rfl⟩
      rw [← hrender]
      exact (plain_ofSegments? h t (List.mem_singleton_self t)).2
    · intro hstar
      rw [← hrender] at hstar
      cases texts with
      | catchAll => simp [render] at hstar
      | exact t => exact ⟨t, rfl⟩
      | structured first inner last => simp [render] at hstar
  eq_of_exact := by
    rintro t rfl
    exact hrender
  first_iff := by
    rintro first inner last rfl
    rw [← hrender, head?_render_eq_star_iff (plain_ofSegments? h)]
  last_iff := by
    rintro first inner last rfl
    rw [← hrender, getLast?_render_eq_star_iff (plain_ofSegments? h)]
  pieces_eq := by
    rintro first inner last rfl
    have hplain := plain_ofSegments? h
    rw [← hrender, render_eq_intercalate, List.splitOn_intercalate _ _ (by simp)]
    intro t ht
    simp only [List.cons_append, List.mem_cons, List.mem_append, List.not_mem_nil, or_false] at ht
    rcases ht with rfl | ht | rfl
    · exact hplain.star_notMem_first
    · exact (hplain.of_mem_inner ht).2
    · exact hplain.star_notMem_last

end Shape

end AgentCatalog
