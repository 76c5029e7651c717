import AgentCatalog.Proofs.Rule.Grammar
import AgentCatalog.Proofs.Rule.Order

/-!
# The order of rules, by their patterns

What the order of rules looks at can be read off the patterns: how many characters there are besides
`*`, how many `*`, and the texts themselves. `Precedes` says so without rules, and the main result is

* `compare_eq_lt_iff`: of compiled rules that do not catch all, those come first whose patterns
  precede.
-/

namespace AgentCatalog

/-- The number of characters of a pattern besides `*`. -/
def Pattern.otherChars (p : String) : Nat :=
  (p.toList.filter (· ≠ '*')).length

/-- The number of `*` in a pattern. -/
def Pattern.stars (p : String) : Nat :=
  p.toList.count '*'

/-- The pattern `p` has more characters besides `*` than `q`, or as many of them and fewer `*`, or
as many of both and comes before `q` as a text. -/
def Pattern.Precedes (p q : String) : Prop :=
  otherChars q < otherChars p ∨ otherChars q = otherChars p ∧
    (stars p < stars q ∨ stars p = stars q ∧ p < q)

lemma Specificity.literalChars_ofPattern (p : List Char) :
    (ofPattern p).literalChars = (p.filter (· ≠ '*')).length := by
  have hlen := List.length_eq_countP_add_countP (l := p) (· == '*')
  have hother : p.countP (fun c => decide ¬(c == '*') = true) = (p.filter (· ≠ '*')).length := by
    rw [List.countP_eq_length_filter]
    simp
  simp only [ofPattern, List.count]
  omega

namespace Rule.Compiled

variable {a b : Rule} {r s : LiteralRegistry}

lemma literalChars_eq (h : a.Compiled r) :
    a.specificity.literalChars = Pattern.otherChars a.pattern := by
  obtain ⟨_, h⟩ := h
  rw [h.specificity_eq]
  exact Specificity.literalChars_ofPattern _

lemma stars_eq (h : a.Compiled r) : a.specificity.stars = Pattern.stars a.pattern := by
  obtain ⟨_, h⟩ := h
  rw [h.specificity_eq]
  rfl

/-- The rules that do not catch all have a character besides `*`. -/
lemma isCatchAll_eq_false_iff (h : a.Compiled r) :
    a.isCatchAll = false ↔ 0 < Pattern.otherChars a.pattern := by
  obtain ⟨hne, hcollapsed⟩ := h.grammar
  rw [← Bool.not_eq_true, h.isCatchAll_iff, Nat.pos_iff_ne_zero, not_iff_not, Pattern.otherChars,
    List.length_eq_zero_iff, List.filter_eq_nil_iff]
  constructor
  · intro hstar
    simp [hstar]
  · intro hstars
    -- a collapsed pattern of `*` only has just one
    rcases Pattern.eq_nil_or_eq_star_of_collapsed hcollapsed (by simpa using hstars) with h | h
    · exact absurd (String.toList_eq_nil_iff.1 h) hne
    · exact String.toList_inj.1 h

/-- Of compiled rules that do not catch all, those come first whose patterns do. -/
lemma compare_eq_lt_iff (ha : a.Compiled r) (hb : b.Compiled s) (hacatch : a.isCatchAll = false)
    (hbcatch : b.isCatchAll = false) :
    a.compare b = .lt ↔ Pattern.Precedes a.pattern b.pattern := by
  rw [Rule.compare, Specificity.compare, ha.catchAll_eq_isCatchAll, hb.catchAll_eq_isCatchAll,
    hacatch, hbcatch, ha.literalChars_eq, ha.stars_eq, hb.literalChars_eq, hb.stars_eq]
  have hbool : Ord.compare false false = .eq := rfl
  have htext : Ord.compare a.pattern b.pattern = .lt ↔ a.pattern < b.pattern :=
    compareOfLessAndEq_eq_lt
  simp only [Pattern.Precedes, hbool, Ordering.eq_then, Ordering.then_eq_lt, Ordering.then_eq_eq,
    Nat.compare_eq_lt, Nat.compare_eq_eq, htext, or_assoc, and_assoc, and_or_left]

/-- Of two compiled rules that do not catch all, one comes before the other or they have the same
pattern. -/
lemma isLE_compare_iff (ha : a.Compiled r) (hb : b.Compiled s) (hacatch : a.isCatchAll = false)
    (hbcatch : b.isCatchAll = false) :
    (a.compare b).isLE = true ↔
      Pattern.Precedes a.pattern b.pattern ∨ a.pattern = b.pattern := by
  rw [← ha.compare_eq_lt_iff hb hacatch hbcatch, ← ha.compare_eq_eq_iff hb]
  cases a.compare b <;> decide

end Rule.Compiled

end AgentCatalog
