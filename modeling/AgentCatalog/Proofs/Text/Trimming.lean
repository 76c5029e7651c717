import AgentCatalog.Text.Blank
import Mathlib.Data.List.Basic

/-!
# Texts without white space around them

A text falls into white space, a text that neither starts nor ends with white space, and white space
again. If there is anything but white space, only one such text is in it, which is what is left of
the text when it is trimmed.
-/

namespace AgentCatalog.Text

/-- There is something in the text, and no white space at its start or its end. -/
structure Trimmed (text : List Char) : Prop where
  ne_nil : text ≠ []
  head : ∀ c ∈ text.head?, isBlankChar c = false
  last : ∀ c ∈ text.getLast?, isBlankChar c = false

variable {before text behind : List Char}

lemma isBlank_iff : isBlank text = true ↔ ∀ c ∈ text, isBlankChar c = true :=
  List.all_eq_true

lemma Trimmed.isBlank_eq_false (h : Trimmed text) : isBlank text = false := by
  obtain ⟨c, rest, rfl⟩ := List.exists_cons_of_ne_nil h.ne_nil
  rw [isBlank, List.all_cons, h.head c rfl, Bool.false_and]

/-- Two characters that are not white space, and whatever is between them. -/
lemma trimmed_of_ends {c d : Char} (hc : isBlankChar c = false) (hd : isBlankChar d = false)
    (text : List Char) : Trimmed (c :: text ++ [d]) where
  ne_nil := List.cons_ne_nil _ _
  head b hb := by
    obtain rfl := Option.some.inj hb
    exact hc
  last b hb := by
    rw [List.getLast?_concat] at hb
    obtain rfl := Option.some.inj hb
    exact hd

lemma trimStart_append (h : isBlank before = true) (text : List Char) :
    trimStart (before ++ text) = trimStart text :=
  List.dropWhile_append_of_pos (isBlank_iff.1 h)

lemma trimStart_eq_self (h : ∀ c ∈ text.head?, isBlankChar c = false) : trimStart text = text := by
  cases text with
  | nil => rfl
  | cons c text => exact List.dropWhile_cons_of_neg (Bool.eq_false_iff.1 (h c rfl))

lemma trimEnd_append (h : isBlank behind = true) (text : List Char) :
    trimEnd (text ++ behind) = trimEnd text := by
  have hreverse : isBlank behind.reverse = true := by rwa [isBlank, List.all_reverse]
  rw [trimEnd, List.reverse_append, trimStart_append hreverse, trimEnd]

lemma trimEnd_eq_self (h : ∀ c ∈ text.getLast?, isBlankChar c = false) : trimEnd text = text := by
  rw [← List.head?_reverse] at h
  rw [trimEnd, trimStart_eq_self h, List.reverse_reverse]

/-- White space around a text is what trimming takes away. -/
lemma trim_append (hbefore : isBlank before = true) (htext : Trimmed text)
    (hbehind : isBlank behind = true) : trim (before ++ (text ++ behind)) = text := by
  have hhead : ∀ c ∈ (text ++ behind).head?, isBlankChar c = false := by
    rw [List.head?_append_of_ne_nil _ htext.ne_nil]
    exact htext.head
  rw [trim, trimStart_append hbefore, trimStart_eq_self hhead, trimEnd_append hbehind,
    trimEnd_eq_self htext.last]

/-- What is behind the white space at the start of a text. -/
lemma exists_eq_append_trimStart (text : List Char) :
    ∃ before, text = before ++ trimStart text ∧ isBlank before = true ∧
      ∀ c ∈ (trimStart text).head?, isBlankChar c = false := by
  refine ⟨text.takeWhile isBlankChar, List.takeWhile_append_dropWhile.symm, List.all_takeWhile, ?_⟩
  intro c hc
  have := List.head?_dropWhile_not isBlankChar text
  rw [trimStart] at hc
  rw [Option.mem_def.1 hc] at this
  simpa using this

lemma exists_eq_trimEnd_append (text : List Char) :
    ∃ behind, text = trimEnd text ++ behind ∧ isBlank behind = true ∧
      ∀ c ∈ (trimEnd text).getLast?, isBlankChar c = false := by
  obtain ⟨before, happend, hblank, hhead⟩ := exists_eq_append_trimStart text.reverse
  refine ⟨before.reverse, ?_, by rwa [isBlank, List.all_reverse], ?_⟩
  · rw [trimEnd, ← List.reverse_append, ← happend, List.reverse_reverse]
  · rwa [trimEnd, List.getLast?_reverse]

/-- A text that is not white space is what trimming leaves of it, and white space around that. -/
lemma exists_eq_append_trim (h : isBlank text = false) : ∃ before behind,
    text = before ++ (trim text ++ behind) ∧ isBlank before = true ∧ isBlank behind = true ∧
      Trimmed (trim text) := by
  obtain ⟨before, hbefore, hblank, hhead⟩ := exists_eq_append_trimStart text
  obtain ⟨behind, hbehind, hblank', hlast⟩ := exists_eq_trimEnd_append (trimStart text)
  have hne : trim text ≠ [] := by
    intro hnil
    rw [trim] at hnil
    rw [hnil, List.nil_append] at hbehind
    rw [hbefore, hbehind, isBlank, List.all_append] at h
    rw [isBlank] at hblank hblank'
    rw [hblank, hblank'] at h
    cases h
  refine ⟨before, behind, ?_, hblank, hblank', hne, ?_, hlast⟩
  · rw [trim, ← hbehind, ← hbefore]
  · intro c hc
    refine hhead c ?_
    rw [hbehind]
    exact List.mem_head?_append_of_mem_head? hc

end AgentCatalog.Text
