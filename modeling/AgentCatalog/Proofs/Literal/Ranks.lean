import AgentCatalog.Proofs.Literal.Registry

/-!
# Handles are ranks

Texts are put into a registry one after the other, some of them again and again. A text has as its
handle the number of different texts that came before it did first. That number depends on the texts
only, so a handle is never given to another text, and it does not change when more texts come. There
are as many handles as numbers of 32 bits. A new text for which there is none left is refused, and
stays refused, as nothing is ever taken out:

* `rank`: the number of different texts before the first occurrence of a text;
* `Ranked.intern?_eq_some` and `Ranked.intern?_eq_none`: what a call returns;
* `Ranked.put`: after one more call the handles still are the ranks.
-/

namespace AgentCatalog

/-! ### Ranks -/

/-- The number of different texts before the first occurrence of a text. -/
def rank (texts : List String) (text : String) : Nat :=
  (texts.takeWhile (· ≠ text)).toFinset.card

section Ranks

variable {texts : List String} {text other : String}

lemma rank_of_notMem (h : text ∉ texts) (behind : List String) :
    rank (texts ++ text :: behind) text = texts.toFinset.card := by
  have hbefore : ∀ t ∈ texts, decide (t ≠ text) = true := fun t ht =>
    decide_eq_true fun heq => h (heq ▸ ht)
  rw [rank, List.takeWhile_append_of_pos hbefore, List.takeWhile_cons_of_neg (by simp),
    List.append_nil]

/-- What comes behind a text does not change its rank. -/
lemma rank_append (h : text ∈ texts) (more : List String) :
    rank (texts ++ more) text = rank texts text := by
  obtain ⟨before, behind, rfl, hbefore⟩ := List.eq_append_cons_of_mem h
  rw [List.append_assoc, List.cons_append, rank_of_notMem hbefore, rank_of_notMem hbefore]

lemma rank_lt_card (h : text ∈ texts) : rank texts text < texts.toFinset.card := by
  obtain ⟨before, behind, rfl, hbefore⟩ := List.eq_append_cons_of_mem h
  rw [rank_of_notMem hbefore]
  refine Finset.card_lt_card ((Finset.ssubset_iff_of_subset ?_).2 ⟨text, ?_, ?_⟩)
  · rw [List.toFinset_append]
    exact Finset.subset_union_left
  · simp
  · rwa [List.mem_toFinset]

lemma toFinset_append_of_mem (h : text ∈ texts) : (texts ++ [text]).toFinset = texts.toFinset := by
  rw [List.toFinset_append, Finset.union_eq_left, List.toFinset_cons, List.toFinset_nil,
    insert_empty_eq, Finset.singleton_subset_iff]
  exact List.mem_toFinset.2 h

lemma card_append_of_notMem (h : text ∉ texts) :
    (texts ++ [text]).toFinset.card = texts.toFinset.card + 1 := by
  rw [List.toFinset_append, Finset.union_comm]
  exact Finset.card_insert_of_notMem (mt List.mem_toFinset.1 h)

/-- The texts and ranks before the last text. -/
lemma mem_and_rank_append_iff (hne : other ≠ text) (i : Nat) :
    (other ∈ texts ++ [text] ∧ rank (texts ++ [text]) other = i) ↔
      other ∈ texts ∧ rank texts other = i := by
  constructor
  · rintro ⟨hmem, hrank⟩
    have hmem' : other ∈ texts :=
      (List.mem_append.1 hmem).resolve_right fun h => hne (List.mem_singleton.1 h)
    exact ⟨hmem', by rwa [rank_append hmem'] at hrank⟩
  · rintro ⟨hmem, hrank⟩
    exact ⟨List.mem_append_left _ hmem, by rwa [rank_append hmem]⟩

end Ranks

lemma Interner.handle?_push {p : Interner} {text : String} (new : p.handle? text = none)
    (other : String) :
    (p.push text new).handle? other = if text = other then some p.size else p.handle? other := by
  rw [handle?, push, Std.TreeMap.getElem?_insert]
  simp only [Std.LawfulEqCmp.compare_eq_iff_eq]
  rfl

namespace LiteralRegistry

/-! ### One call -/

/-- The registry after a call for the handle of a text. -/
def put (r : LiteralRegistry) (text : String) : LiteralRegistry :=
  match r.intern? text with
  | some (s, _) => s
  | none => r

/-- The registry has the texts, each with its rank as its handle, as far as the handles go. -/
structure Ranked (r : LiteralRegistry) (texts : List String) : Prop where
  handle?_eq_some_iff : ∀ text i, r.interner.handle? text = some i ↔
    (text ∈ texts ∧ rank texts text = i) ∧ i < capacity
  size_eq : r.size = min texts.toFinset.card capacity

lemma ranked_empty : empty.Ranked [] where
  handle?_eq_some_iff text i := by
    have hnone : empty.interner.handle? text = none := rfl
    simp [hnone]
  size_eq := rfl

variable {r : LiteralRegistry} {texts : List String} {text other : String}

lemma intern?_eq_none_iff :
    r.intern? text = none ↔ r.interner.handle? text = none ∧ capacity ≤ r.size := by
  cases known : r.interner.handle? text with
  | some i => simp [intern?_eq_some_of_known known]
  | none =>
    by_cases room : r.size < capacity
    · simp [intern?_eq_some_of_new known room, room]
    · simp [intern?_eq_none_of_new known room, Nat.le_of_not_lt room]

namespace Ranked

lemma handle?_eq_none_of_notMem (h : r.Ranked texts) (ht : text ∉ texts) :
    r.interner.handle? text = none :=
  Option.eq_none_iff_forall_ne_some.2 fun i hi => ht ((h.handle?_eq_some_iff text i).1 hi).1.1

lemma size_of_lt (h : r.Ranked texts) (hroom : texts.toFinset.card < capacity) :
    r.size = texts.toFinset.card := by
  rw [h.size_eq]
  exact Nat.min_eq_left hroom.le

/-- Under the rank of a text there is the text. -/
lemma text?_rank (h : r.Ranked texts) (ht : text ∈ texts) (hlt : rank texts text < capacity) :
    r.text? (rank texts text) = some text :=
  Interner.handle?_eq_some_iff.1 ((h.handle?_eq_some_iff text _).2 ⟨⟨ht, rfl⟩, hlt⟩)

/-- No two texts have the same rank, for a handle has one text only. -/
lemma eq_of_rank_eq (h : r.Ranked texts) (ht : text ∈ texts) (hother : other ∈ texts)
    (hlt : rank texts text < capacity) (heq : rank texts text = rank texts other) :
    text = other := by
  have htext := h.text?_rank ht hlt
  rw [heq, h.text?_rank hother (heq ▸ hlt)] at htext
  exact (Option.some.inj htext).symm

/-- If there is a handle for each text, the registry has all of them. -/
lemma size_eq_card (h : r.Ranked texts) (hall : ∀ t ∈ texts, rank texts t < capacity) :
    r.size = texts.toFinset.card := by
  have hknown : texts.toFinset ⊆ r.interner.known := fun t ht => by
    rw [List.mem_toFinset] at ht
    exact Interner.mem_known_iff.2 ⟨_, h.text?_rank ht (hall t ht)⟩
  refine Nat.le_antisymm ?_ ((Finset.card_le_card hknown).trans_eq r.interner.card_known)
  rw [h.size_eq]
  exact Nat.min_le_left _ _

/-- Beyond the handles there are no ranks but for texts that the registry does not have. -/
lemma intern?_eq_none (h : r.Ranked texts)
    (hfull : capacity ≤ rank (texts ++ [text]) text) : r.intern? text = none := by
  refine intern?_eq_none_iff.2 ⟨Option.eq_none_iff_forall_ne_some.2 fun i hi => ?_, ?_⟩
  · obtain ⟨⟨hmem, rfl⟩, hlt⟩ := (h.handle?_eq_some_iff text i).1 hi
    rw [rank_append hmem] at hfull
    omega
  · rw [h.size_eq]
    by_cases ht : text ∈ texts
    · have hlt := rank_lt_card ht
      rw [rank_append ht] at hfull
      omega
    · rw [rank_of_notMem ht] at hfull
      omega

/-- A registry refuses no text before it is full. -/
lemma intern?_eq_none_iff_full (h : r.Ranked texts) : r.intern? text = none ↔
    r.interner.handle? text = none ∧ r.size = capacity := by
  have hle : r.size ≤ capacity := by
    rw [h.size_eq]
    exact Nat.min_le_right _ _
  rw [intern?_eq_none_iff, hle.ge_iff_eq]

/-- Up to the last handle a call returns the rank of the text. -/
lemma intern?_eq_some (h : r.Ranked texts) (hroom : rank (texts ++ [text]) text < capacity) :
    r.intern? text = some (r.put text, rank (texts ++ [text]) text) := by
  by_cases ht : text ∈ texts
  · rw [rank_append ht] at hroom ⊢
    have known := (h.handle?_eq_some_iff text _).2 ⟨⟨ht, rfl⟩, hroom⟩
    rw [put, intern?_eq_some_of_known known]
  · rw [rank_of_notMem ht] at hroom ⊢
    have hsize := h.size_of_lt hroom
    rw [put, intern?_eq_some_of_new (h.handle?_eq_none_of_notMem ht) (hsize ▸ hroom), hsize]

/-- A text that has come before finds the registry as it left it: with its handle in it, or full. -/
lemma put_of_mem (h : r.Ranked texts) (ht : text ∈ texts) : r.put text = r := by
  by_cases hroom : rank texts text < capacity
  · rw [LiteralRegistry.put,
      intern?_eq_some_of_known ((h.handle?_eq_some_iff text _).2 ⟨⟨ht, rfl⟩, hroom⟩)]
  · rw [LiteralRegistry.put, h.intern?_eq_none (by rw [rank_append ht]; omega)]

/-- A text that has come before changes no rank. -/
lemma append_of_mem (h : r.Ranked texts) (ht : text ∈ texts) : r.Ranked (texts ++ [text]) where
  handle?_eq_some_iff other i := by
    rw [h.handle?_eq_some_iff]
    by_cases hother : other = text
    · subst hother
      rw [rank_append ht]
      simp [ht]
    · rw [mem_and_rank_append_iff hother]
  size_eq := by rw [h.size_eq, toFinset_append_of_mem ht]

/-- A new text gets the handle behind those that there are. -/
lemma push (h : r.Ranked texts) (ht : text ∉ texts) (hroom : texts.toFinset.card < capacity) :
    (LiteralRegistry.mk (r.interner.push text (h.handle?_eq_none_of_notMem ht))).Ranked
      (texts ++ [text]) where
  handle?_eq_some_iff other i := by
    have hsize : r.interner.size = texts.toFinset.card := h.size_of_lt hroom
    rw [Interner.handle?_push, hsize]
    split
    · next heq =>
      subst heq
      rw [rank_of_notMem ht, Option.some.injEq]
      simp only [List.mem_append, List.mem_singleton, or_true, true_and]
      exact ⟨fun heq => ⟨heq, heq ▸ hroom⟩, fun heq => heq.1⟩
    · next hne => rw [h.handle?_eq_some_iff, mem_and_rank_append_iff (Ne.symm hne)]
  size_eq := by
    have hpush : (LiteralRegistry.mk (r.interner.push text
        (h.handle?_eq_none_of_notMem ht))).size = r.size + 1 := Array.size_push text
    rw [hpush, card_append_of_notMem ht, h.size_of_lt hroom]
    omega

/-- A new text for which there is no handle left is behind all ranks that are handles. -/
lemma append_of_full (h : r.Ranked texts) (ht : text ∉ texts)
    (hfull : capacity ≤ texts.toFinset.card) : r.Ranked (texts ++ [text]) where
  handle?_eq_some_iff other i := by
    by_cases hother : other = text
    · subst hother
      rw [h.handle?_eq_none_of_notMem ht, rank_of_notMem ht]
      simp only [reduceCtorEq, false_iff, not_and]
      rintro ⟨-, rfl⟩
      omega
    · rw [h.handle?_eq_some_iff, mem_and_rank_append_iff hother]
  size_eq := by
    rw [h.size_eq, card_append_of_notMem ht]
    omega

/-- One more call. -/
theorem put (h : r.Ranked texts) (text : String) : (r.put text).Ranked (texts ++ [text]) := by
  by_cases ht : text ∈ texts
  · rw [h.put_of_mem ht]
    exact h.append_of_mem ht
  · by_cases hroom : texts.toFinset.card < capacity
    · have hput : r.put text = ⟨r.interner.push text (h.handle?_eq_none_of_notMem ht)⟩ := by
        rw [LiteralRegistry.put, intern?_eq_some_of_new (h.handle?_eq_none_of_notMem ht)
          (h.size_of_lt hroom ▸ hroom)]
      rw [hput]
      exact h.push ht hroom
    · have hfull : capacity ≤ texts.toFinset.card := Nat.le_of_not_lt hroom
      rw [LiteralRegistry.put, h.intern?_eq_none (by rwa [rank_of_notMem ht])]
      exact h.append_of_full ht hfull

end Ranked

end LiteralRegistry

end AgentCatalog
