import AgentCatalog.Proofs.Text.Lowered

/-!
# Lower case in context

A text is lower-cased from its start on, with a note of whether what has been passed ends cased. The
same is said here of the whole text: every character stands between those before and those behind
it, and only a capital sigma asks what these are. A `*` makes no more difference to a sigma than the
start or the end of the text:

* `foldCase_eq_lowerInContext`: a folded text, character by character;
* `foldCase_foldCase`: folding again changes nothing;
* `foldCase_append_star`: what stands before a `*` and what stands behind it are folded apart.
-/

namespace AgentCatalog.Text

/-! ### The characters around a sigma -/

lemma startsCased_cons (c : Char) (s : List Char) :
    startsCased (c :: s) = if isCaseIgnorable c then startsCased s else isCased c := by
  rw [startsCased, List.dropWhile_cons]
  split <;> rfl

/-- A sigma that stands between these texts is at the end of a word. -/
def endsWord (before behind : List Char) : Bool :=
  startsCased before.reverse && !startsCased behind

/-- The lower-case form of a character that stands between these texts. -/
def lowerBetween (before : List Char) (c : Char) (behind : List Char) : List Char :=
  if c = 'Σ' then [if endsWord before behind then 'ς' else 'σ'] else lowerChar c

/-- The lower-case forms of the characters of a text, each between those before and those behind
it. -/
def lowerInContext (s : List Char) : List Char :=
  s.zipIdx.flatMap fun (c, i) => lowerBetween (s.take i) c (s.drop (i + 1))

/-- What is noted of the characters passed is whether they end cased. -/
lemma casedAfter_startsCased (before : List Char) (c : Char) :
    casedAfter (startsCased before.reverse) c = startsCased (before ++ [c]).reverse := by
  rw [List.reverse_append, List.reverse_singleton, List.singleton_append, startsCased_cons,
    casedAfter]

lemma lowerFrom_cons_eq_append (before : List Char) (c : Char) (s : List Char) :
    lowerFrom (startsCased before.reverse) (c :: s)
      = lowerBetween before c s ++ lowerFrom (startsCased (before ++ [c]).reverse) s := by
  rw [lowerFrom, casedAfter_startsCased, lowerBetween, endsWord]

lemma lowerFrom_eq_flatMap (before s : List Char) :
    lowerFrom (startsCased before.reverse) s = (s.zipIdx before.length).flatMap fun (c, i) =>
      lowerBetween ((before ++ s).take i) c ((before ++ s).drop (i + 1)) := by
  induction s generalizing before with
  | nil => rfl
  | cons c s ih =>
    have hsplit : before ++ c :: s = (before ++ [c]) ++ s := by simp
    have htake : (before ++ c :: s).take before.length = before := List.take_left
    have hdrop : (before ++ c :: s).drop (before.length + 1) = s := by
      rw [hsplit]
      exact List.drop_left' (by simp)
    have hrest := ih (before ++ [c])
    rw [List.length_append, List.length_singleton, ← hsplit] at hrest
    rw [lowerFrom_cons_eq_append, hrest, List.zipIdx_cons, List.flatMap_cons]
    dsimp only
    rw [htake, hdrop]

/-- A text is folded character by character, on the shorter way for ASCII as well. -/
theorem foldCase_eq_lowerInContext (s : List Char) : foldCase s = lowerInContext s := by
  rw [foldCase_eq_lowerCase]
  exact lowerFrom_eq_flatMap [] s

/-! ### Folding again -/

theorem foldCase_foldCase (s : List Char) : foldCase (foldCase s) = foldCase s :=
  foldCase_eq_self fun _ hc => lowerChar_eq_self_of_mem_foldCase hc

/-! ### Cutting at a `*` -/

lemma star_outside : isCaseIgnorable '*' = false ∧ isCased '*' = false := by
  decide +kernel

/-- A `*` is as good as the end of the text to a sigma before it. -/
lemma startsCased_append_star (a b : List Char) :
    startsCased (a ++ '*' :: b) = startsCased a := by
  induction a with
  | nil =>
    rw [List.nil_append, startsCased_cons, star_outside.1, star_outside.2]
    rfl
  | cons c a ih => rw [List.cons_append, startsCased_cons, startsCased_cons, ih]

/-- A `*` is as good as the start of the text to a sigma behind it. -/
lemma casedAfter_star (cased : Bool) : casedAfter cased '*' = false := by
  rw [casedAfter, star_outside.1, star_outside.2]
  rfl

lemma lowerFrom_star_cons (cased : Bool) (b : List Char) :
    lowerFrom cased ('*' :: b) = '*' :: lowerCase b := by
  rw [lowerFrom, if_neg (by decide), lowerChar_star, casedAfter_star]
  rfl

lemma lowerFrom_append_star (cased : Bool) (a b : List Char) :
    lowerFrom cased (a ++ '*' :: b) = lowerFrom cased a ++ '*' :: lowerCase b := by
  induction a generalizing cased with
  | nil => exact lowerFrom_star_cons cased b
  | cons c a ih =>
    rw [List.cons_append, lowerFrom, lowerFrom, ih, startsCased_append_star, List.append_assoc]

theorem foldCase_append_star (a b : List Char) :
    foldCase (a ++ '*' :: b) = foldCase a ++ '*' :: foldCase b := by
  simp only [foldCase_eq_lowerCase]
  exact lowerFrom_append_star false a b

end AgentCatalog.Text
