import AgentCatalog.Literal.Table
import AgentCatalog.Proofs.Text.Interning

/-!
# What a registry keeps

A registry only grows: a handle that has a text keeps it. So what has been compiled before stays as
it is when more is compiled. The registry is full only if it has as many literals as it can hold,
and all of them are different:

* `intern?_eq_some`: a new literal changes nothing of the others;
* `exists_intern?_of_within`: there is room for the literals of a set that is not too large;
* `size_le_capacity_of_intern?`: no registry has more literals than it can hold.
-/

namespace AgentCatalog.LiteralRegistry

/-- Every handle of the first registry has the same text in the second. -/
def Extends (r s : LiteralRegistry) : Prop :=
  ∀ handle text, r.text? handle = some text → s.text? handle = some text

/-- The characters of a handle. -/
def chars? (r : LiteralRegistry) (handle : Handle) : Option (List Char) :=
  (r.text? handle).map String.toList

lemma Extends.refl (r : LiteralRegistry) : r.Extends r :=
  fun _ _ h => h

lemma Extends.trans {r s t : LiteralRegistry} (hrs : r.Extends s) (hst : s.Extends t) :
    r.Extends t :=
  fun handle text h => hst handle text (hrs handle text h)

lemma Extends.chars? {r s : LiteralRegistry} (h : r.Extends s) {handle : Handle} {t : List Char}
    (ht : r.chars? handle = some t) : s.chars? handle = some t := by
  obtain ⟨text, htext, rfl⟩ := Option.map_eq_some_iff.1 ht
  exact Option.map_eq_some_iff.2 ⟨text, h handle text htext, rfl⟩

/-- All literals of the registry are in the set. -/
def Within (r : LiteralRegistry) (pool : Finset (List Char)) : Prop :=
  ∀ handle text, r.text? handle = some text → text.toList ∈ pool

lemma within_empty (pool : Finset (List Char)) : empty.Within pool := by
  intro handle text h
  simp [empty, text?, Interner.text?, Interner.empty] at h

/-! ### A new literal -/

lemma intern?_eq_some_of_new {r : LiteralRegistry} {text : String}
    (new : r.interner.handle? text = none) (room : r.size < capacity) :
    r.intern? text = some (⟨r.interner.push text new⟩, r.size) := by
  rw [intern?, if_pos (by simp [room]), Interner.intern_of_new new]
  rfl

lemma intern?_eq_some_of_known {r : LiteralRegistry} {text : String} {i : Nat}
    (known : r.interner.handle? text = some i) : r.intern? text = some (r, i) := by
  rw [intern?, if_pos (by simp [known]), Interner.intern_of_known known]

lemma intern?_eq_none_of_new {r : LiteralRegistry} {text : String}
    (new : r.interner.handle? text = none) (full : ¬ r.size < capacity) :
    r.intern? text = none := by
  rw [intern?, if_neg (by simp [new, full])]

lemma text?_push {r : LiteralRegistry} {text : String}
    (new : r.interner.handle? text = none) (i : Nat) :
    (LiteralRegistry.mk (r.interner.push text new)).text? i
      = if i = r.size then some text else r.text? i := by
  simp only [text?, Interner.text?, Interner.push, Array.getElem?_push]
  rfl

/-- The registry with a literal in it has its text and those of before, and no others. -/
theorem intern?_eq_some {r s : LiteralRegistry} {text : String} {handle : Handle}
    (h : r.intern? text = some (s, handle)) :
    r.Extends s ∧ s.text? handle = some text ∧
      ∀ i t, s.text? i = some t → r.text? i = some t ∨ t = text := by
  cases known : r.interner.handle? text with
  | some i =>
    rw [intern?_eq_some_of_known known, Option.some.injEq, Prod.mk.injEq] at h
    obtain ⟨rfl, rfl⟩ := h
    exact ⟨.refl r, Interner.handle?_eq_some_iff.1 known, fun _ _ => .inl⟩
  | none =>
    by_cases room : r.size < capacity
    · rw [intern?_eq_some_of_new known room, Option.some.injEq, Prod.mk.injEq] at h
      obtain ⟨rfl, rfl⟩ := h
      refine ⟨fun i t hi => ?_, ?_, fun i t hi => ?_⟩
      · have hlt : i < r.size := (Array.getElem?_eq_some_iff.1 hi).1
        rw [text?_push, if_neg (Nat.ne_of_lt hlt), hi]
      · rw [text?_push, if_pos rfl]
      · rw [text?_push] at hi
        split at hi
        · exact .inr (Option.some.inj hi).symm
        · exact .inl hi
    · simp [intern?_eq_none_of_new known room] at h

/-! ### Room for literals -/

/-- A registry has no more literals than a set in which they are. -/
lemma size_le_card {r : LiteralRegistry} {pool : Finset (List Char)} (h : r.Within pool) :
    r.size ≤ pool.card := by
  have hsize : r.interner.known.card = r.size := r.interner.card_known
  rw [← hsize]
  refine Finset.card_le_card_of_injOn String.toList ?_
    fun _ _ _ _ h => String.toList_inj.1 h
  intro text htext
  obtain ⟨i, hi⟩ := Interner.mem_known_iff.1 htext
  exact h i text hi

/-- A literal of a set that is not too large has room beside other literals of the set. -/
theorem exists_intern?_of_within {r : LiteralRegistry} {pool : Finset (List Char)}
    (h : r.Within pool) (hcard : pool.card ≤ capacity) {text : String}
    (ht : text.toList ∈ pool) : ∃ s handle, r.intern? text = some (s, handle) := by
  cases known : r.interner.handle? text with
  | some i => exact ⟨r, i, intern?_eq_some_of_known known⟩
  | none =>
    -- the new literal is not among those of the registry, so there is one less of them
    have hrest : r.Within (pool.erase text.toList) := by
      intro i t hi
      refine Finset.mem_erase.2 ⟨?_, h i t hi⟩
      rw [Ne, String.toList_inj]
      rintro rfl
      rw [Interner.handle?_eq_some_iff.2 hi] at known
      cases known
    have hsize := size_le_card hrest
    rw [Finset.card_erase_of_mem ht] at hsize
    have hpos := Finset.card_pos.2 ⟨_, ht⟩
    exact ⟨_, _, intern?_eq_some_of_new known (by omega)⟩

lemma Within.intern? {r s : LiteralRegistry} {pool : Finset (List Char)} (h : r.Within pool)
    {text : String} {handle : Handle} (hi : r.intern? text = some (s, handle))
    (ht : text.toList ∈ pool) : s.Within pool := by
  intro i t hit
  rcases (intern?_eq_some hi).2.2 i t hit with hr | rfl
  · exact h i t hr
  · exact ht

/-- A registry never has more literals than it can hold. -/
lemma size_le_capacity_of_intern? {r s : LiteralRegistry} {text : String} {handle : Handle}
    (h : r.intern? text = some (s, handle)) (hr : r.size ≤ capacity) : s.size ≤ capacity := by
  cases known : r.interner.handle? text with
  | some i =>
    rw [intern?_eq_some_of_known known, Option.some.injEq, Prod.mk.injEq] at h
    rwa [← h.1]
  | none =>
    by_cases room : r.size < capacity
    · rw [intern?_eq_some_of_new known room, Option.some.injEq, Prod.mk.injEq] at h
      have hsize : s.size = r.size + 1 := by
        rw [← h.1]
        exact Array.size_push text
      omega
    · rw [intern?_eq_none_of_new known room] at h
      cases h

/-- The texts of the registry. -/
def pool (r : LiteralRegistry) : Finset (List Char) :=
  (r.interner.texts.toList.map String.toList).toFinset

lemma within_pool (r : LiteralRegistry) : r.Within r.pool := by
  intro handle text h
  exact List.mem_toFinset.2 (List.mem_map_of_mem (Array.mem_of_getElem? h).val)

lemma mem_pool_of_chars? {r : LiteralRegistry} {handle : Handle} {t : List Char}
    (h : r.chars? handle = some t) : t ∈ r.pool := by
  obtain ⟨text, htext, rfl⟩ := Option.map_eq_some_iff.1 h
  exact r.within_pool handle text htext

lemma exists_text?_of_mem_pool {r : LiteralRegistry} {t : List Char} (h : t ∈ r.pool) :
    ∃ handle text, r.text? handle = some text ∧ text.toList = t := by
  obtain ⟨text, hmem, rfl⟩ := List.mem_map.1 (List.mem_toFinset.1 h)
  obtain ⟨handle, hhandle⟩ := Interner.mem_known_iff.1 (List.mem_toFinset.2 hmem)
  exact ⟨handle, text, hhandle, rfl⟩

lemma Within.pool_subset {r : LiteralRegistry} {pool : Finset (List Char)} (h : r.Within pool) :
    r.pool ⊆ pool := by
  intro t ht
  obtain ⟨handle, text, htext, rfl⟩ := exists_text?_of_mem_pool ht
  exact h handle text htext

lemma Extends.pool_subset {r s : LiteralRegistry} (h : r.Extends s) : r.pool ⊆ s.pool := by
  intro t ht
  obtain ⟨handle, text, htext, rfl⟩ := exists_text?_of_mem_pool ht
  exact s.within_pool handle text (h handle text htext)

/-- A registry has as many texts as handles. -/
theorem card_pool (r : LiteralRegistry) : r.pool.card = r.size := by
  refine Nat.le_antisymm ((List.toFinset_card_le _).trans ?_) (size_le_card r.within_pool)
  rw [List.length_map, Array.length_toList]
  exact Nat.le_refl r.size

/-! ### The handle of a text -/

/-- The handle of the characters of a literal. -/
def handle? (r : LiteralRegistry) (t : List Char) : Option Handle :=
  r.interner.handle? (String.ofList t)

/-- No two handles have the same characters. -/
lemma handle?_eq_some_of_chars? {r : LiteralRegistry} {handle : Handle} {t : List Char}
    (h : r.chars? handle = some t) : r.handle? t = some handle := by
  obtain ⟨text, htext, rfl⟩ := Option.map_eq_some_iff.1 h
  rw [handle?, String.ofList_toList]
  exact Interner.handle?_eq_some_iff.2 htext

/-! ### The table of a registry -/

lemma get?_toTable (r : LiteralRegistry) (handle : Handle) :
    r.toTable.get? handle = (r.text? handle).map Literal.ofText := by
  rw [LiteralTable.get?, toTable, Array.getElem?_map]
  rfl

lemma get?_toTable_of_chars? {r : LiteralRegistry} {handle : Handle} :
    r.toTable.get? handle = (r.chars? handle).map fun t => Literal.ofText (String.ofList t) := by
  rw [get?_toTable, chars?, Option.map_map]
  simp [Function.comp_def]

end AgentCatalog.LiteralRegistry
