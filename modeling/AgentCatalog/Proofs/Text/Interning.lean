import AgentCatalog.Text.Interner
import Mathlib.Data.Finset.Card
import Mathlib.Tactic.Lemma

/-!
# How many texts are numbered

An interner numbers each text once, whichever way the texts come. So its size is the number of
distinct texts that it was given: `card_known`, `known_foldl_intern`.
-/

namespace AgentCatalog.Interner

/-- The texts that have a number. -/
def known (p : Interner) : Finset String :=
  p.texts.toList.toFinset

lemma getElem?_toList_texts (p : Interner) (i : Nat) : p.texts.toList[i]? = p.text? i :=
  Array.getElem?_toList

lemma mem_known_iff {p : Interner} {text : String} :
    text ∈ p.known ↔ ∃ i, p.text? i = some text := by
  rw [known, List.mem_toFinset, List.mem_iff_getElem?]
  simp only [getElem?_toList_texts]

lemma nodup_texts (p : Interner) : p.texts.toList.Nodup := by
  rw [List.nodup_iff_getElem?_ne_getElem?]
  intro i j hij hj heq
  have htext : p.texts.toList[j]? = some p.texts.toList[j] := List.getElem?_eq_getElem hj
  have htext' := heq.trans htext
  rw [getElem?_toList_texts] at htext htext'
  -- both are the number of the text
  have := (handle?_eq_some_iff.2 htext').symm.trans (handle?_eq_some_iff.2 htext)
  exact Nat.ne_of_lt hij (Option.some.inj this)

/-- No text has two numbers. -/
theorem card_known (p : Interner) : p.known.card = p.size :=
  (List.toFinset_card_of_nodup p.nodup_texts).trans Array.length_toList

lemma intern_of_known {p : Interner} {text : String} {i : Nat} (h : p.handle? text = some i) :
    p.intern text = (p, i) := by
  rw [intern]
  split
  · next j hj => rw [Option.some.inj (hj.symm.trans h)]
  · next hnone => simp [h] at hnone

lemma intern_of_new {p : Interner} {text : String} (h : p.handle? text = none) :
    p.intern text = (p.push text h, p.size) := by
  rw [intern]
  split
  · next i hi => simp [h] at hi
  · rfl

lemma known_intern (p : Interner) (text : String) :
    (p.intern text).1.known = insert text p.known := by
  cases h : p.handle? text with
  | some i =>
    rw [intern_of_known h, Finset.insert_eq_self.2]
    exact mem_known_iff.2 ⟨i, handle?_eq_some_iff.1 h⟩
  | none =>
    rw [intern_of_new h]
    ext other
    simp only [known, push, Array.toList_push, List.toFinset_append, Finset.mem_union,
      List.mem_toFinset, List.mem_singleton, Finset.mem_insert]
    exact or_comm

theorem known_foldl_intern (p : Interner) (texts : List String) :
    (texts.foldl (fun p text => (p.intern text).1) p).known = p.known ∪ texts.toFinset := by
  induction texts generalizing p with
  | nil => simp
  | cons text texts ih =>
    rw [List.foldl_cons, ih, known_intern, List.toFinset_cons, Finset.insert_union,
      Finset.union_insert]

end AgentCatalog.Interner
