import AgentCatalog.Proofs.Rule.Compilation

/-!
# The order of rules

Rules are ordered by specificity and then by pattern. This is a total preorder. Compiled rules are
equal in it if they have the same pattern, and only the lone `*` comes after all other patterns:

* `Compiled.compare_eq_eq_iff`: compiled rules are equal in the order if their patterns are equal;
* `Compiled.catchAll_iff`: a compiled rule with no characters besides `*` is that of the lone `*`.

In a sorted list the elements that are equal to one stand together (`filter_eq_infix_of_sorted`), and
sorting keeps their order (`filter_eq_mergeSort`). Nothing else of the order in a list plays a part in
what it is sorted to (`mergeSort_eq_of_filter_eq`).
-/

namespace AgentCatalog

instance : Std.TransOrd Specificity :=
  inferInstanceAs <| Std.TransCmp <| compareLex (compareOn Specificity.catchAll) <|
    compareLex (fun a b => compareOn Specificity.literalChars b a) (compareOn Specificity.stars)

instance : Std.TransCmp Rule.compare :=
  inferInstanceAs <| Std.TransCmp <|
    compareLex (compareOn Rule.specificity) (compareOn Rule.pattern)

namespace Rule

variable {a b : Rule} {r s : LiteralRegistry}

lemma pattern_eq_of_compare_eq (h : a.compare b = .eq) : a.pattern = b.pattern := by
  rw [compare, Ordering.then_eq_eq] at h
  exact Std.LawfulEqOrd.eq_of_compare h.2

/-- Compiled rules are equal in the order if their patterns are equal, and only then. -/
theorem Compiled.compare_eq_eq_iff (ha : a.Compiled r) (hb : b.Compiled s) :
    a.compare b = .eq ↔ a.pattern = b.pattern := by
  constructor
  · exact pattern_eq_of_compare_eq
  · intro h
    obtain ⟨_, ha⟩ := ha
    obtain ⟨_, hb⟩ := hb
    have hspec : a.specificity = b.specificity := by
      rw [ha.specificity_eq, hb.specificity_eq, h]
    have hrefl : b.specificity.compare b.specificity = .eq :=
      Std.ReflOrd.compare_self (a := b.specificity)
    rw [compare, Ordering.then_eq_eq, hspec, h]
    exact ⟨hrefl, Std.ReflOrd.compare_self⟩

/-- A specificity that catches all is that of some `*` and nothing else. -/
lemma ofPattern_catchAll_iff {p : List Char} :
    (Specificity.ofPattern p).catchAll = true ↔ p ≠ [] ∧ ∀ c ∈ p, '*' = c := by
  have hle := List.count_le_length (a := '*') (l := p)
  rw [← List.count_eq_length, Ne, ← List.length_eq_zero_iff]
  simp only [Specificity.ofPattern, Bool.and_eq_true, beq_iff_eq, decide_eq_true_eq]
  omega

/-- Only the lone `*` is compiled without any other character. -/
theorem Compiled.catchAll_iff (h : a.Compiled r) :
    a.specificity.catchAll = true ↔ a.pattern = "*" := by
  obtain ⟨texts, h⟩ := h
  rw [h.specificity_eq, ofPattern_catchAll_iff]
  constructor
  · rintro ⟨-, hstars⟩
    have hflat : texts.literals.flatten = [] := by
      rw [Shape.flatten_literals h.plain, h.render_eq, List.filter_eq_nil_iff]
      intro c hc
      simp [← hstars c hc]
    -- a text would have a character besides `*`, so there is none
    have hliterals : texts.literals = [] := by
      rw [List.eq_nil_iff_forall_not_mem]
      intro t ht
      exact (h.plain t ht).1 (List.flatten_eq_nil_iff.1 hflat t ht)
    rw [← String.toList_inj, ← h.render_eq]
    cases texts with
    | catchAll => rfl
    | exact t => simp [Shape.literals] at hliterals
    | structured first inner last =>
      obtain ⟨hfirst, hinner, hlast⟩ : first = none ∧ inner = [] ∧ last = none := by
        simpa [Shape.literals] using hliterals
      rw [hfirst, hinner, hlast]
      rfl
  · intro hstar
    rw [hstar]
    show ['*'] ≠ [] ∧ ∀ c ∈ ['*'], '*' = c
    simp

/-- A compiled rule shows in its specificity whether it catches all. -/
lemma Compiled.catchAll_eq_isCatchAll (h : a.Compiled r) :
    a.specificity.catchAll = a.isCatchAll := by
  rw [Bool.eq_iff_iff, h.catchAll_iff, h.isCatchAll_iff]

/-- A rule that catches all comes after every other rule. -/
lemma Compiled.compare_eq_lt_of_isCatchAll (ha : a.Compiled r) (hb : b.Compiled s)
    (hacatch : a.isCatchAll = false) (hbcatch : b.isCatchAll = true) : a.compare b = .lt := by
  rw [compare, Specificity.compare, ha.catchAll_eq_isCatchAll, hb.catchAll_eq_isCatchAll, hacatch,
    hbcatch]
  rfl

end Rule

/-! ### Sorted lists -/

section Sorted

variable {α : Type} (cmp : α → α → Ordering) [Std.TransCmp cmp]

/-- A sorted list has first the elements before `k`, then those equal to it, then those after it. -/
lemma eq_append_filter_of_sorted {l : List α} (hl : l.Pairwise fun a b => (cmp a b).isLE = true)
    (k : α) :
    l = l.filter (cmp · k == .lt) ++ l.filter (cmp · k == .eq) ++ l.filter (cmp · k == .gt) := by
  induction l with
  | nil => rfl
  | cons a l ih =>
    rw [List.pairwise_cons] at hl
    have hrest := ih hl.2
    cases h : cmp a k with
    | lt => simpa [List.filter_cons, h] using hrest
    | eq =>
      have hlt : l.filter (cmp · k == .lt) = [] := by
        refine List.filter_eq_nil_iff.2 fun b hb => ?_
        have hle := hl.1 b hb
        rw [Std.TransCmp.congr_left h] at hle
        simpa using Std.OrientedCmp.not_lt_of_isLE hle
      simpa [List.filter_cons, h, hlt] using hrest
    | gt =>
      have hgt : ∀ b ∈ l, cmp b k = .gt := fun b hb =>
        Std.OrientedCmp.gt_of_lt <|
          Std.TransCmp.lt_of_lt_of_isLE (Std.OrientedCmp.lt_of_gt h) (hl.1 b hb)
      have hlt : l.filter (cmp · k == .lt) = [] :=
        List.filter_eq_nil_iff.2 fun b hb => by simp [hgt b hb]
      have heq : l.filter (cmp · k == .eq) = [] :=
        List.filter_eq_nil_iff.2 fun b hb => by simp [hgt b hb]
      simpa [List.filter_cons, h, hlt, heq] using hrest

/-- In a sorted list the elements that are equal to one stand together. -/
lemma filter_eq_infix_of_sorted {l : List α} (hl : l.Pairwise fun a b => (cmp a b).isLE = true)
    (k : α) : l.filter (cmp · k == .eq) <:+: l :=
  ⟨_, _, (eq_append_filter_of_sorted cmp hl k).symm⟩

lemma isLE_or_isLE (a b : α) : ((cmp a b).isLE || (cmp b a).isLE) = true := by
  cases h : cmp a b with
  | lt => rfl
  | eq => rfl
  | gt =>
    rw [Std.OrientedCmp.lt_of_gt h]
    rfl

lemma pairwise_isLE_mergeSort (l : List α) :
    (l.mergeSort fun a b => (cmp a b).isLE).Pairwise fun a b => (cmp a b).isLE = true :=
  List.pairwise_mergeSort (fun _ _ _ => Std.TransCmp.isLE_trans) (isLE_or_isLE cmp) l

/-- Sorting keeps the order of the elements that are equal to one. -/
lemma filter_eq_mergeSort (l : List α) (k : α) :
    (l.mergeSort fun a b => (cmp a b).isLE).filter (cmp · k == .eq)
      = l.filter (cmp · k == .eq) := by
  have hequal : (l.filter (cmp · k == .eq)).Pairwise fun a b => (cmp a b).isLE = true := by
    refine List.pairwise_of_forall_mem_list fun a ha b hb => ?_
    have hak : cmp a k = .eq := by simpa using (List.mem_filter.1 ha).2
    have hbk : cmp b k = .eq := by simpa using (List.mem_filter.1 hb).2
    rw [Std.TransCmp.eq_trans hak (Std.OrientedCmp.eq_symm hbk)]
    rfl
  have hsub := (List.sublist_mergeSort (fun _ _ _ => Std.TransCmp.isLE_trans) (isLE_or_isLE cmp)
    hequal List.filter_sublist).filter (cmp · k == .eq)
  rw [List.filter_filter] at hsub
  simp only [Bool.and_self] at hsub
  -- a sublist of the sorted list that has as many of these elements has the same ones
  have hperm := (List.mergeSort_perm l fun a b => (cmp a b).isLE).filter (cmp · k == .eq)
  exact (hsub.eq_of_length hperm.length_eq.symm).symm

/-- The first element of a sorted list comes before all others. -/
lemma isLE_head_of_sorted {a b : α} {l : List α}
    (hl : (a :: l).Pairwise fun a b => (cmp a b).isLE = true) (hb : b ∈ a :: l) :
    (cmp a b).isLE = true := by
  rcases List.mem_cons.1 hb with rfl | hb
  · have hself : cmp b b = .eq := Std.ReflCmp.compare_self
    rw [hself]
    rfl
  · exact (List.pairwise_cons.1 hl).1 b hb

lemma mem_of_filter_eq {a : α} {l l' : List α}
    (h : l.filter (cmp · a == .eq) = l'.filter (cmp · a == .eq)) (ha : a ∈ l) : a ∈ l' := by
  have hself : cmp a a = .eq := Std.ReflCmp.compare_self
  have hmem : a ∈ l.filter (cmp · a == .eq) := List.mem_filter.2 ⟨ha, by simp [hself]⟩
  rw [h] at hmem
  exact (List.mem_filter.1 hmem).1

/-- A sorted list is determined by the elements that are equal to one, in their order, for each one. -/
lemma eq_of_sorted_of_filter_eq {l l' : List α}
    (hl : l.Pairwise fun a b => (cmp a b).isLE = true)
    (hl' : l'.Pairwise fun a b => (cmp a b).isLE = true)
    (h : ∀ k, l.filter (cmp · k == .eq) = l'.filter (cmp · k == .eq)) : l = l' := by
  induction l generalizing l' with
  | nil =>
    cases l' with
    | nil => rfl
    | cons b l' =>
      exact absurd (mem_of_filter_eq cmp (h b).symm List.mem_cons_self) List.not_mem_nil
  | cons a l ih =>
    cases l' with
    | nil => exact absurd (mem_of_filter_eq cmp (h a) List.mem_cons_self) List.not_mem_nil
    | cons b l' =>
      have hle := isLE_head_of_sorted cmp hl (mem_of_filter_eq cmp (h b).symm List.mem_cons_self)
      have hge := isLE_head_of_sorted cmp hl' (mem_of_filter_eq cmp (h a) List.mem_cons_self)
      -- the first elements are equal in the order, so each is the first of its equals
      have hself : cmp a a = .eq := Std.ReflCmp.compare_self
      have hba : cmp b a = .eq := Std.OrientedCmp.isLE_antisymm hge hle
      have hfirst := h a
      rw [List.filter_cons_of_pos (by simp [hself]), List.filter_cons_of_pos (by simp [hba])]
        at hfirst
      obtain ⟨rfl, -⟩ := List.cons.inj hfirst
      refine congrArg (a :: ·) (ih hl.of_cons hl'.of_cons fun k => ?_)
      have hk := h k
      rw [List.filter_cons, List.filter_cons] at hk
      split at hk
      · exact (List.cons.inj hk).2
      · exact hk

/-- What a list is sorted to depends on the order of equal elements only. -/
lemma mergeSort_eq_of_filter_eq {l l' : List α}
    (h : ∀ k, l.filter (cmp · k == .eq) = l'.filter (cmp · k == .eq)) :
    (l.mergeSort fun a b => (cmp a b).isLE) = l'.mergeSort fun a b => (cmp a b).isLE :=
  eq_of_sorted_of_filter_eq cmp (pairwise_isLE_mergeSort cmp l) (pairwise_isLE_mergeSort cmp l')
    fun k => by rw [filter_eq_mergeSort, filter_eq_mergeSort, h k]

/-- The first element of a kind in a sorted list comes before the others of the kind. If the kind
does not tell apart what is equal in the order, it is also the first one of its equals in the list
that was sorted. -/
lemma find?_mergeSort {l : List α} {P : α → Bool} {x : α}
    (hP : ∀ a ∈ l, ∀ b ∈ l, cmp a b = .eq → P a = true → P b = true)
    (h : (l.mergeSort fun a b => (cmp a b).isLE).find? P = some x) :
    (∀ a ∈ l, P a = true → (cmp x a).isLE = true) ∧ l.find? (cmp · x == .eq) = some x := by
  obtain ⟨hx, as, bs, hsplit, has⟩ := List.find?_eq_some_iff_append.1 h
  have hnot : ∀ a ∈ as, ¬P a = true := fun a ha hPa => by simpa [hPa] using has a ha
  have hmem : ∀ a ∈ as ++ x :: bs, a ∈ l := fun a ha => List.mem_mergeSort.1 (hsplit ▸ ha)
  have hself : cmp x x = .eq := Std.ReflCmp.compare_self
  constructor
  · intro a ha hPa
    have hsorted := pairwise_isLE_mergeSort cmp l
    rw [hsplit, List.pairwise_append, List.pairwise_cons] at hsorted
    have ha' : a ∈ l.mergeSort fun a b => (cmp a b).isLE := List.mem_mergeSort.2 ha
    rw [hsplit, List.mem_append, List.mem_cons] at ha'
    rcases ha' with ha' | rfl | ha'
    · exact absurd hPa (hnot a ha')
    · rw [hself]
      rfl
    · exact hsorted.2.1.1 a ha'
  · -- an element before `x` that is equal to it would be of the kind, too
    have hnone : as.filter (cmp · x == .eq) = [] := by
      refine List.filter_eq_nil_iff.2 fun a ha heq => hnot a ha ?_
      have hxa : cmp x a = .eq := Std.OrientedCmp.eq_symm (by simpa using heq)
      exact hP x (hmem x (by simp)) a (hmem a (List.mem_append_left _ ha)) hxa hx
    rw [← List.head?_filter, ← filter_eq_mergeSort, hsplit, List.filter_append, hnone,
      List.filter_cons_of_pos (by simp [hself])]
    rfl

end Sorted

end AgentCatalog
