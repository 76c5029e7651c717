import AgentCatalog.Proofs.Pattern.NormalSegments
import AgentCatalog.Proofs.Rule.References

/-!
# What a compiler counts

Every call is accounted for. A call that succeeds is counted once, by the kind of its pattern. The
pieces of every pattern are counted and put into the registry, also those of a pattern that is
refused, if there is room for them:

* `literals_eq_pieces`: the texts of a pattern, told from the `*` alone;
* `uses_internShape`: how many uses interning counts;
* `counted_call`: what one call counts;
* `Counted.after`: what some calls count, one after the other.
-/

namespace AgentCatalog

/-! ### Pieces -/

namespace Pattern

/-- What is between the `*` of a pattern, as far as it is not empty, from left to right. -/
def pieces (p : List Char) : List (List Char) :=
  (p.splitOn '*').filter (· ≠ [])

lemma pieces_append_star {t : List Char} (ht : '*' ∉ t) (p : List Char) :
    pieces (t ++ '*' :: p) = pieces t ++ pieces p := by
  rw [pieces, pieces, pieces, List.splitOn_append_cons_self_of_not_mem ht,
    List.splitOn_eq_singleton ht, ← List.filter_append]
  rfl

/-- The texts of the segments are the pieces. -/
theorem literals_eq_pieces (p : List Char) : literals p = pieces p := by
  -- from one `*` to the next
  induction hn : p.length using Nat.strongRecOn generalizing p with
  | ind n ih =>
    by_cases hstar : '*' ∈ p
    · obtain ⟨t, rest, rfl, ht⟩ := List.eq_append_cons_of_mem hstar
      rw [List.length_append, List.length_cons] at hn
      rw [pieces_append_star ht, ← ih t.length (by omega) t rfl,
        ← ih rest.length (by omega) rest rfl, literals, split_append_star, List.filterMap_append]
      rfl
    · by_cases hnil : p = []
      · rw [hnil]
        decide
      · rw [literals, split_of_star_notMem hnil hstar, pieces, List.splitOn_eq_singleton hstar]
        simp [Segment.text?, hnil]

end Pattern

open Pattern (pieces split)

namespace Compiler

/-! ### Uses of literals -/

/-- If the step returns, it has counted that many uses of literals. -/
def Uses {α : Type} (n : Nat) (x : Step α) : Prop :=
  ∀ (c c' : Compiler) (a : α), x.run c = (.ok a, c') →
    c'.counts.literalUses = c.counts.literalUses + n

lemma Uses.pure {α : Type} (a : α) : Uses 0 (pure a) := by
  intro c c' b h
  cases h
  rfl

lemma Uses.bind {α β : Type} {n m : Nat} {x : Step α} {f : α → Step β} (hx : Uses n x)
    (hf : ∀ a, Uses m (f a)) : Uses (n + m) (x >>= f) := by
  intro c c' b h
  rcases hrun : x.run c with ⟨e | a, c''⟩
  · rw [run_bind_error hrun] at h
    cases h
  · rw [run_bind_ok hrun] at h
    have hfirst := hx c c'' a hrun
    have hrest := hf a c'' c' b h
    omega

lemma uses_intern (text : List Char) : Uses 1 (intern text) := by
  intro c c' handle h
  rw [run_intern] at h
  cases hi : c.registry.intern? (String.ofList text) with
  | none =>
    rw [hi] at h
    cases h
  | some found =>
    rw [hi] at h
    cases h
    rfl

lemma uses_option_mapM (text? : Option (List Char)) :
    Uses text?.toList.length (text?.mapM intern) := by
  cases text? with
  | none => exact .pure none
  | some text =>
    rw [Option.mapM_some, map_eq_pure_bind]
    exact (uses_intern text).bind fun handle => .pure _

lemma uses_mapM (texts : List (List Char)) : Uses texts.length (texts.mapM intern) := by
  induction texts with
  | nil => exact .pure []
  | cons text texts ih =>
    rw [List.mapM_cons, List.length_cons, Nat.add_comm]
    exact (uses_intern text).bind fun handle => ih.bind fun handles => .pure _

theorem uses_internShape (texts : Shape (List Char)) :
    Uses texts.literals.length (internShape texts) := by
  cases texts with
  | catchAll => exact .pure Shape.catchAll
  | exact text => exact (uses_intern text).bind fun handle => .pure _
  | structured first inner last =>
    have hlength : (Shape.structured first inner last).literals.length =
        first.toList.length + (last.toList.length + (inner.length + 0)) := by
      simp only [Shape.literals, List.length_append]
      omega
    rw [hlength]
    refine (uses_option_mapM first).bind fun first' => ?_
    refine (uses_option_mapM last).bind fun last' => ?_
    exact (uses_mapM inner).bind fun inner' => .pure _

/-! ### One pattern -/

lemma literalUses_count {α : Type} (n : CompileCounts) (shape : Shape α) :
    (n.count shape).literalUses = n.literalUses := by
  cases shape <;> rfl

section Room

variable {c : Compiler}

/-- With room for all of them, the texts of a shape are interned. -/
lemma run_internShape {texts : Shape (List Char)}
    (hroom : (c.registry.pool ∪ texts.literals.toFinset).card ≤ LiteralRegistry.capacity) :
    ∃ shape c', (internShape texts).run c = (.ok shape, c') ∧
      c'.registry.pool = c.registry.pool ∪ texts.literals.toFinset ∧
      c'.counts = { c.counts with
        literalUses := c.counts.literalUses + texts.literals.length } := by
  have hinterns : Interns (c.registry.pool ∪ texts.literals.toFinset) (internShape texts)
      fun r shape => shape.resolve? r.chars? = some texts :=
    interns_internShape fun t ht => Finset.mem_union_right _ (List.mem_toFinset.2 ht)
  have hwithin : c.registry.Within (c.registry.pool ∪ texts.literals.toFinset) :=
    fun handle text h => Finset.mem_union_left _ (c.registry.within_pool handle text h)
  obtain ⟨shape, hshape⟩ := hinterns.returns c hwithin hroom
  have hgrows := (hinterns.grows c).pool_subset
  have hpool := (hinterns.within c hwithin).pool_subset
  have hstands := hinterns.stands c shape hshape
  have hcounts := counts_internShape texts c
  rcases hrun : (internShape texts).run c with ⟨result, c'⟩
  rw [hrun] at hshape hgrows hpool hstands hcounts
  obtain rfl : result = .ok shape := hshape
  refine ⟨shape, c', rfl, hpool.antisymm (Finset.union_subset hgrows ?_), ?_⟩
  · -- what is returned stands for the texts, so the registry has them
    intro t ht
    have hmem : some t ∈ shape.literals.map c'.registry.chars? := by
      rw [Shape.map_literals_of_resolve? hstands]
      exact List.mem_map_of_mem (List.mem_toFinset.1 ht)
    obtain ⟨handle, -, hhandle⟩ := List.mem_map.1 hmem
    exact LiteralRegistry.mem_pool_of_chars? hhandle
  · rw [hcounts, uses_internShape texts c c' shape hrun]

/-- With room for its pieces a pattern has all of them counted and put into the registry, whether it
is refused or not. -/
theorem compile_pieces {pattern : String}
    (hroom : (c.registry.pool ∪ (pieces pattern.toList).toFinset).card ≤ LiteralRegistry.capacity)
    (capabilities : Capabilities) :
    (c.compile pattern capabilities).2.registry.pool =
        c.registry.pool ∪ (pieces pattern.toList).toFinset ∧
      (c.compile pattern capabilities).2.counts.literalUses =
        c.counts.literalUses + (pieces pattern.toList).length := by
  rw [← Pattern.literals_eq_pieces, Pattern.literals] at hroom ⊢
  generalize hcompile : c.compile pattern capabilities = result
  cases Outcome.of_eq hcompile with
  | empty hseg =>
    have hsplit : split pattern.toList = [] := Shape.ofSegments?_eq_none_iff.1 hseg
    rw [hsplit]
    simp
  | catchAll hseg =>
    rw [← Shape.literals_ofSegments? hseg, literalUses_count]
    simp [Shape.literals]
  | full hseg hrun =>
    rw [← Shape.literals_ofSegments? hseg] at hroom
    obtain ⟨shape, c'', hrun', -⟩ := run_internShape hroom
    rw [hrun] at hrun'
    cases hrun'
  | refused hseg hrun =>
    rw [← Shape.literals_ofSegments? hseg] at hroom ⊢
    obtain ⟨shape, c'', hrun', hpool, hcounts⟩ := run_internShape hroom
    rw [hrun] at hrun'
    cases hrun'
    exact ⟨hpool, by rw [hcounts]⟩
  | compiled hseg _ hrun =>
    rw [← Shape.literals_ofSegments? hseg] at hroom ⊢
    obtain ⟨shape, c'', hrun', hpool, hcounts⟩ := run_internShape hroom
    rw [hrun] at hrun'
    cases hrun'
    exact ⟨hpool, by rw [literalUses_count, hcounts]⟩

end Room

/-- A pattern that is compiled is counted by the shape of its rule. -/
theorem counts_of_compile_eq_ok {c c' : Compiler} {pattern : String} {capabilities : Capabilities}
    {rule : Rule} (h : c.compile pattern capabilities = (.ok rule, c')) :
    c'.counts = { c.counts.count rule.shape with literalUses := c'.counts.literalUses } := by
  cases Outcome.of_eq h with
  | catchAll => rfl
  | @compiled texts shape _ _ _ hrun =>
    have hcounts := counts_internShape texts c
    rw [hrun] at hcounts
    dsimp only at hcounts
    rw [hcounts]
    cases shape <;> rfl

end Compiler

/-- The kind of a compiled rule is told from the `*` of its pattern. -/
lemma Rule.Compiled.exact_iff {rule : Rule} {r : LiteralRegistry} (h : rule.Compiled r) :
    (∃ handle, rule.shape = .exact handle) ↔ '*' ∉ rule.pattern.toList := by
  obtain ⟨texts, h⟩ := h
  have hcuts := Shape.cutsAtStars_of_render_eq h.ofSegments?_eq h.render_eq
  have hmap := Shape.resolve?_eq_some_iff.1 h.resolve?_eq
  rw [← hcuts.exact_iff]
  constructor
  · rintro ⟨handle, hshape⟩
    rw [hshape] at hmap
    cases texts with
    | exact t => exact ⟨t, rfl⟩
    | catchAll | structured => cases hmap
  · rintro ⟨t, rfl⟩
    cases hshape : rule.shape with
    | exact handle => exact ⟨handle, rfl⟩
    | catchAll =>
      rw [hshape] at hmap
      cases hmap
    | structured first inner last =>
      rw [hshape] at hmap
      cases hmap

/-- A compiled rule is counted by the kind of its pattern. -/
lemma Rule.Compiled.count_shape {rule : Rule} {r : LiteralRegistry} (h : rule.Compiled r)
    (n : CompileCounts) :
    (n.count rule.shape).catchAll = n.catchAll + [rule.pattern].countP (· = "*") ∧
      (n.count rule.shape).exact = n.exact + [rule.pattern].countP ('*' ∉ ·.toList) ∧
      (n.count rule.shape).structured =
        n.structured + [rule.pattern].countP fun p => p ≠ "*" ∧ '*' ∈ p.toList := by
  have hcatch : rule.shape = .catchAll ↔ rule.pattern = "*" := by
    rw [← h.isCatchAll_iff, isCatchAll, beq_iff_eq]
  cases hshape : rule.shape with
  | catchAll =>
    rw [hcatch.1 hshape]
    exact ⟨rfl, rfl, rfl⟩
  | exact handle =>
    have hstar := h.exact_iff.1 ⟨handle, hshape⟩
    have hne : rule.pattern ≠ "*" := by
      rw [Ne, ← hcatch, hshape]
      rintro ⟨⟩
    simp [CompileCounts.count, hstar, hne]
  | structured first inner last =>
    have hstar : '*' ∈ rule.pattern.toList := by
      by_contra hstar
      obtain ⟨handle, hexact⟩ := h.exact_iff.2 hstar
      rw [hshape] at hexact
      cases hexact
    have hne : rule.pattern ≠ "*" := by
      rw [Ne, ← hcatch, hshape]
      rintro ⟨⟩
    simp [CompileCounts.count, hstar, hne]

namespace Compiler

/-! ### Calls -/

/-- The pieces of the pattern of a call. -/
def Call.pieces (call : Call) : List (List Char) :=
  Pattern.pieces call.pattern.toList

/-- Some calls have been made, and these are the patterns of those that succeeded. Each of these is
counted by its kind, and the pieces of all calls are counted and in the registry. -/
structure Counted (c : Compiler) (calls : List Call) (patterns : List String)
    (c' : Compiler) : Prop where
  catchAll_eq : c'.counts.catchAll = c.counts.catchAll + patterns.countP (· = "*")
  exact_eq : c'.counts.exact = c.counts.exact + patterns.countP ('*' ∉ ·.toList)
  structured_eq : c'.counts.structured =
    c.counts.structured + patterns.countP fun p => p ≠ "*" ∧ '*' ∈ p.toList
  literalUses_eq : c'.counts.literalUses =
    c.counts.literalUses + (calls.map (·.pieces.length)).sum
  pool_eq : c'.registry.pool = c.registry.pool ∪ (calls.flatMap Call.pieces).toFinset

lemma Counted.refl (c : Compiler) : Counted c [] [] c := by
  constructor <;> simp

lemma Counted.trans {c c' c'' : Compiler} {calls calls' : List Call}
    {patterns patterns' : List String} (h : Counted c calls patterns c')
    (h' : Counted c' calls' patterns' c'') :
    Counted c (calls ++ calls') (patterns ++ patterns') c'' where
  catchAll_eq := by rw [h'.catchAll_eq, h.catchAll_eq, List.countP_append, Nat.add_assoc]
  exact_eq := by rw [h'.exact_eq, h.exact_eq, List.countP_append, Nat.add_assoc]
  structured_eq := by rw [h'.structured_eq, h.structured_eq, List.countP_append, Nat.add_assoc]
  literalUses_eq := by
    rw [h'.literalUses_eq, h.literalUses_eq, List.map_append, List.sum_append, Nat.add_assoc]
  pool_eq := by
    rw [h'.pool_eq, h.pool_eq, List.flatMap_append, List.toFinset_append, Finset.union_assoc]

/-- One call is counted, if there is room for its pieces. -/
lemma counted_call {c : Compiler} {call : Call}
    (hroom : (c.registry.pool ∪ call.pieces.toFinset).card ≤ LiteralRegistry.capacity) :
    Counted c [call] ((c.call call).1.toOption.toList.map (·.pattern)) (c.call call).2 := by
  obtain ⟨hpool, huses⟩ := compile_pieces hroom call.capabilities
  rw [← call_eq] at hpool huses
  have hpool' : (c.call call).2.registry.pool =
      c.registry.pool ∪ ([call].flatMap Call.pieces).toFinset := by
    rw [hpool, List.flatMap_singleton, Call.pieces]
  have huses' : (c.call call).2.counts.literalUses =
      c.counts.literalUses + ([call].map (·.pieces.length)).sum := by
    rw [huses, List.map_singleton, List.sum_singleton, Call.pieces]
  rcases hcall : c.call call with ⟨e | rule, c'⟩
  · rw [hcall] at hpool' huses'
    rw [call_eq] at hcall
    have hcounts := counts_of_compile_eq_error hcall
    refine ⟨?_, ?_, ?_, huses', hpool'⟩ <;>
    · dsimp only
      rw [hcounts]
      rfl
  · rw [hcall] at hpool' huses'
    rw [call_eq] at hcall
    have hcounts := counts_of_compile_eq_ok hcall
    obtain ⟨hcatch, hexact, hstructured⟩ :=
      (compiled_of_compile_eq_ok hcall).1.count_shape c.counts
    refine ⟨?_, ?_, ?_, huses', hpool'⟩
    · exact (congrArg CompileCounts.catchAll hcounts).trans hcatch
    · exact (congrArg CompileCounts.exact hcounts).trans hexact
    · exact (congrArg CompileCounts.structured hcounts).trans hstructured

/-- Some calls are counted, if there is room for the pieces of all of them. -/
theorem Counted.after (c : Compiler) (calls : List Call)
    (hroom : (c.registry.pool ∪ (calls.flatMap Call.pieces).toFinset).card ≤
      LiteralRegistry.capacity) :
    Counted c calls ((c.rulesOf calls).map (·.pattern)) (c.after calls) := by
  induction calls generalizing c with
  | nil => exact .refl c
  | cons call calls ih =>
    rw [List.flatMap_cons, List.toFinset_append, ← Finset.union_assoc] at hroom
    have hfirst := counted_call
      ((Finset.card_le_card Finset.subset_union_left).trans hroom)
    have hpool := hfirst.pool_eq
    rw [List.flatMap_singleton] at hpool
    rw [← hpool] at hroom
    rw [rulesOf, List.map_append]
    exact hfirst.trans (ih (c.call call).2 hroom)

/-- Every pattern is a lone `*`, without `*`, or of the third kind. -/
lemma length_eq_countP (patterns : List String) :
    patterns.length = patterns.countP (· = "*") + patterns.countP ('*' ∉ ·.toList) +
      patterns.countP fun p => p ≠ "*" ∧ '*' ∈ p.toList := by
  induction patterns with
  | nil => rfl
  | cons p patterns ih =>
    simp only [List.length_cons, List.countP_cons, ih, decide_eq_true_eq]
    by_cases hcatch : p = "*"
    · have hstar : '*' ∈ p.toList := by
        rw [hcatch]
        exact List.mem_singleton_self '*'
      rw [if_pos hcatch, if_neg (not_not_intro hstar), if_neg fun h => h.1 hcatch]
      omega
    · by_cases hstar : '*' ∈ p.toList
      · rw [if_neg hcatch, if_neg (not_not_intro hstar), if_pos ⟨hcatch, hstar⟩]
        omega
      · rw [if_neg hcatch, if_pos hstar, if_neg fun h => hstar h.2]
        omega

/-- Every call to a new compiler is accounted for. The rules of the calls that succeed are counted
by the kinds of their patterns, and the pieces of all patterns, whether refused or not, by their
uses. In the registry each piece is once. -/
theorem counts_account_for_calls (calls : List Call)
    (hroom : (calls.flatMap Call.pieces).toFinset.card ≤ LiteralRegistry.capacity) :
    let c := empty.after calls
    let patterns := (empty.rulesOf calls).map (·.pattern)
    c.counts.catchAll = patterns.countP (· = "*") ∧
      c.counts.exact = patterns.countP ('*' ∉ ·.toList) ∧
      c.counts.structured = (patterns.countP fun p => p ≠ "*" ∧ '*' ∈ p.toList) ∧
      c.counts.total = (empty.rulesOf calls).length ∧
      c.counts.literalUses = (calls.map (·.pieces.length)).sum ∧
      c.registry.size = (calls.flatMap Call.pieces).toFinset.card ∧
      c.registry.size ≤ c.counts.literalUses := by
  intro c patterns
  have hempty : empty.registry.pool = ∅ := rfl
  rw [← Finset.empty_union (calls.flatMap Call.pieces).toFinset, ← hempty] at hroom
  obtain ⟨hcatch, hexact, hstructured, huses, hpool⟩ := Counted.after empty calls hroom
  rw [hempty, Finset.empty_union] at hpool
  have hcatch' : c.counts.catchAll = patterns.countP (· = "*") := hcatch.trans (Nat.zero_add _)
  have hexact' : c.counts.exact = patterns.countP ('*' ∉ ·.toList) := hexact.trans (Nat.zero_add _)
  have hstructured' : c.counts.structured =
      patterns.countP fun p => p ≠ "*" ∧ '*' ∈ p.toList := hstructured.trans (Nat.zero_add _)
  have huses' : c.counts.literalUses = (calls.map (·.pieces.length)).sum :=
    huses.trans (Nat.zero_add _)
  have hsize : c.registry.size = (calls.flatMap Call.pieces).toFinset.card := by
    rw [← LiteralRegistry.card_pool, hpool]
  refine ⟨hcatch', hexact', hstructured', ?_, huses', hsize, ?_⟩
  · rw [CompileCounts.total, hcatch', hexact', hstructured', ← length_eq_countP]
    exact List.length_map _
  · rw [hsize, huses', ← List.length_flatMap]
    exact List.toFinset_card_le _

/-- Two patterns are refused, one of them with a literal that no other has. -/
theorem counts_account_for_calls_of_refused :
    let calls : List Call := [.verbatim "a**c" .unknown, .normal "A*?b" .unknown,
      .verbatim "" .unknown, .normal "**" .unknown, .normal "?B" .unknown]
    let c := empty.after calls
    c.counts.catchAll = 1 ∧ c.counts.exact = 1 ∧ c.counts.structured = 1 ∧ c.counts.total = 3 ∧
      c.counts.literalUses = 5 ∧ c.registry.size = 3 := by
  intro calls c
  have hcard : (calls.flatMap Call.pieces).toFinset.card = 3 := by decide +kernel
  have hpatterns : (empty.rulesOf calls).map (·.pattern) = ["a*?b", "*", "?b"] := by decide +kernel
  have huses : (calls.map (·.pieces.length)).sum = 5 := by decide +kernel
  have hroom : (calls.flatMap Call.pieces).toFinset.card ≤ LiteralRegistry.capacity := by
    rw [hcard]
    decide
  obtain ⟨hcatch, hexact, hstructured, htotal, huses', hsize, -⟩ :=
    counts_account_for_calls calls hroom
  have hlength := congrArg List.length hpatterns
  rw [List.length_map] at hlength
  rw [hpatterns] at hcatch hexact hstructured
  exact ⟨hcatch, hexact, hstructured, htotal.trans hlength, huses'.trans huses, hsize.trans hcard⟩

end Compiler

end AgentCatalog
