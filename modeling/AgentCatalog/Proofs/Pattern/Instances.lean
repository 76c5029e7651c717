import AgentCatalog.Proofs.Pattern.Containment
import AgentCatalog.Proofs.Pattern.Normal
import AgentCatalog.Proofs.Text.Context

/-!
# Instances of raw patterns

A text is an instance of a pattern if it has a text in the place of every `*` and a character in the
place of every `?`. The two are folded each on its own, and the folded pattern should match the folded
text. Two characters stand against it. `İ` is folded to two characters, and a `?` takes one. A capital
sigma is folded by the nearest characters on both sides, and what they are is not told by the pattern
if the nearest one is a `*` or a `?`: the pattern is folded as if they were no letters.

A pattern is settled if it tells enough about the characters around each of its capital sigmas.

* `matches_normalize_of_instance`: a settled pattern in its normal form matches all its folded
  instances.
-/

namespace AgentCatalog

namespace Text

/-- What comes behind is folded by what has been passed. -/
lemma exists_lowerFrom_append (cased : Bool) (s t : List Char) :
    ∃ lower, lowerFrom cased (s ++ t) = lower ++ lowerFrom (s.foldl casedAfter cased) t := by
  induction s generalizing cased with
  | nil => exact ⟨[], rfl⟩
  | cons c s ih =>
    obtain ⟨lower, h⟩ := ih (casedAfter cased c)
    rw [List.cons_append, lowerFrom, h, ← List.append_assoc]
    exact ⟨_, rfl⟩

/-- Only `İ` is folded to more than one character. -/
lemma exists_lowerFrom_cons {c : Char} (h : c ≠ 'İ') (cased : Bool) (s : List Char) :
    ∃ d, lowerFrom cased (c :: s) = d :: lowerFrom (casedAfter cased c) s := by
  rw [lowerFrom, lowerChar, if_neg h]
  split
  · exact ⟨_, rfl⟩
  · split <;> exact ⟨_, rfl⟩

end Text

namespace Pattern

open Text (isCased isCaseIgnorable casedAfter startsCased lowerFrom)

/-- The text is the pattern with a text in the place of every `*` and a character in the place of
every `?`, but not `İ`. -/
inductive Instance : List Char → List Char → Prop where
  /-- Nothing is left of the pattern and of the text. -/
  | nil : Instance [] []
  /-- A `*` is replaced by a text. -/
  | run (taken : List Char) {p s : List Char} : Instance p s → Instance ('*' :: p) (taken ++ s)
  /-- A `?` is replaced by a character that is folded to one. -/
  | any {c : Char} (not_dotted : c ≠ 'İ') {p s : List Char} :
      Instance p s → Instance ('?' :: p) (c :: s)
  /-- Any other character is kept, in its case. -/
  | same {c : Char} (not_star : c ≠ '*') (not_any : c ≠ '?') {p s : List Char} :
      Instance p s → Instance (c :: p) (c :: s)

/-! ### What the pattern tells about its instances -/

/-- The character is replaced in the instances. -/
def isWild (c : Char) : Bool :=
  c == '*' || c == '?'

/-- Whether the instances of the pattern start cased, if the pattern tells. -/
def startsCased? : List Char → Option Bool
  | [] => some false
  | c :: p =>
    if isWild c then none else if isCaseIgnorable c then startsCased? p else some (isCased c)

/-- Whether the instances are cased before the next character, once `c` has been passed, if the
pattern tells. -/
def casedAfter? (before : Option Bool) (c : Char) : Option Bool :=
  if isWild c then none else if isCaseIgnorable c then before else some (isCased c)

/-- A capital sigma between such characters is folded to the same one in all instances: it is known
not to end a word, or both sides are known. -/
def sigmaSettled (before behind : Option Bool) : Bool :=
  before == some false || behind == some true || (before.isSome && behind.isSome)

/-- Every capital sigma of the pattern is settled, where `before` tells of the characters that precede
the pattern. -/
def settledFrom (before : Option Bool) : List Char → Bool
  | [] => true
  | c :: p =>
    (c != 'Σ' || sigmaSettled before (startsCased? p)) && settledFrom (casedAfter? before c) p

/-- Every capital sigma of the pattern is folded to the same character in all instances. -/
def settled (p : List Char) : Bool :=
  settledFrom (some false) p

/-- What is known is so both in the pattern and in the instance. -/
def Tells (known : Option Bool) (a b : Bool) : Prop :=
  ∀ x ∈ known, a = x ∧ b = x

section Settled

variable {p s : List Char} {c : Char} {before behind : Option Bool} {a b x y : Bool}

lemma tells_none : Tells none a b :=
  fun _ h => nomatch h

lemma tells_some : Tells (some x) x x := by
  rintro _ ⟨⟩
  exact ⟨rfl, rfl⟩

lemma not_isWild (hstar : c ≠ '*') (hany : c ≠ '?') : ¬isWild c = true := by
  simp [isWild, hstar, hany]

lemma Instance.tells_startsCased (h : Instance p s) :
    Tells (startsCased? p) (startsCased p) (startsCased s) := by
  induction h with
  | nil => exact tells_some
  | run => exact tells_none
  | any => exact tells_none
  | same hstar hany _ ih =>
    rw [startsCased?, if_neg (not_isWild hstar hany), Text.startsCased_cons,
      Text.startsCased_cons]
    split
    · exact ih
    · exact tells_some

/-- One step along a character that is kept. -/
lemma Tells.casedAfter (h : Tells before a b) (hc : ¬isWild c = true) :
    Tells (casedAfter? before c) (casedAfter a c) (casedAfter b c) := by
  rw [casedAfter?, if_neg hc, Text.casedAfter, Text.casedAfter]
  split
  · exact h
  · exact tells_some

/-- A settled sigma is at the end of a word in both or in none. -/
lemma Tells.final_eq (hbefore : Tells before a b) (hbehind : Tells behind x y)
    (h : sigmaSettled before behind = true) : (a && !x) = (b && !y) := by
  rcases before with _ | _ | _
  · -- only what stands behind is known, and it does not let the word end
    obtain rfl : behind = some true := by simpa [sigmaSettled] using h
    obtain ⟨rfl, rfl⟩ := hbehind true rfl
    rw [Bool.not_true, Bool.and_false, Bool.and_false]
  · obtain ⟨rfl, rfl⟩ := hbefore false rfl
    rfl
  · obtain ⟨rfl, rfl⟩ := hbefore true rfl
    rcases behind with _ | z
    · exact absurd h (by decide)
    · obtain ⟨rfl, rfl⟩ := hbehind z rfl
      rfl

/-- A settled pattern and one of its instances, folded from the same context, are folded alike where
the pattern is kept. -/
lemma Instance.matches_lowerFrom (h : Instance p s) (hbefore : Tells before a b)
    (hsettled : settledFrom before p = true) : Matches (lowerFrom a p) (lowerFrom b s) := by
  induction h generalizing before a b with
  | nil => exact .nil
  | @run taken p s _ ih =>
    obtain ⟨lower, hlower⟩ := Text.exists_lowerFrom_append b taken s
    rw [settledFrom, Bool.and_eq_true] at hsettled
    rw [hlower]
    exact .run lower (ih tells_none hsettled.2)
  | @any c hdotted p s _ ih =>
    obtain ⟨d, hd⟩ := Text.exists_lowerFrom_cons hdotted b s
    rw [settledFrom, Bool.and_eq_true] at hsettled
    rw [hd]
    exact .any d (ih tells_none hsettled.2)
  | @same c hstar hany p s h ih =>
    rw [settledFrom, Bool.and_eq_true] at hsettled
    obtain ⟨hsigma, hrest⟩ := hsettled
    have hmatches := ih (hbefore.casedAfter (not_isWild hstar hany)) hrest
    -- the lower-case forms of the character are the same, also if it is a sigma
    rw [lowerFrom, lowerFrom]
    split
    · next heq =>
      rw [heq, bne_self_eq_false, Bool.false_or] at hsigma
      rw [hbefore.final_eq h.tells_startsCased hsigma]
      exact matches_append_iff.2 ⟨_, _, rfl, matches_self _, hmatches⟩
    · exact matches_append_iff.2 ⟨_, _, rfl, matches_self _, hmatches⟩

/-- The normal form of a settled pattern matches its instances, when they are folded. -/
theorem matches_normalize_of_instance (h : Instance p s) (hsettled : settled p = true) :
    Matches (normalize p) (Text.foldCase s) := by
  rw [normalize, matches_collapse_iff, Text.foldCase_eq_lowerCase, Text.foldCase_eq_lowerCase]
  exact h.matches_lowerFrom tells_some hsettled

end Settled

end Pattern

end AgentCatalog
