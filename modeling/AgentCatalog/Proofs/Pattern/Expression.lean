import AgentCatalog.Pattern.Expression
import AgentCatalog.Proofs.Pattern.Normal
import Mathlib.Data.List.DropRight

/-!
# Reading an expression

An expression is read without knowing the pattern that it has been made of: between the anchors, a
`.*?` stands for any run of characters, any other `.` for one character, and everything else for
itself, a backslash in front of it aside. In the expression of a pattern no `*` stands behind a `.` of
a `?`, so there is one way to read it. Lower-casing could still get in the way, as it is done last.
But a pattern in normal form has no character that it changes. So nothing is lost:

* `read_expression`: the expression of a normal form is read as that pattern;
* `expression_inj`: different normal forms have different expressions;
* `matches_read_iff`: an expression has the language of its pattern.
-/

namespace AgentCatalog.Pattern

/-! ### Reading -/

/-- What a part of an expression stands for. -/
inductive Token where
  /-- Any run of characters. -/
  | run
  /-- Any one character. -/
  | any
  /-- The character itself. -/
  | same (c : Char)
deriving DecidableEq, Repr

namespace Token

/-- The character of a pattern that stands for the same. -/
def char : Token → Char
  | .run => '*'
  | .any => '?'
  | .same c => c

/-- What a character of a pattern stands for. -/
def ofChar (c : Char) : Token :=
  if c = '*' then .run else if c = '?' then .any else .same c

/-- The text can be cut into consecutive pieces that the tokens stand for. -/
inductive Matches : List Token → List Char → Prop where
  /-- Nothing is left of the tokens and of the text. -/
  | nil : Matches [] []
  /-- A run takes any characters, or none. -/
  | run (taken : List Char) {ts : List Token} {s : List Char} :
      Matches ts s → Matches (.run :: ts) (taken ++ s)
  /-- Any one character is taken. -/
  | any (c : Char) {ts : List Token} {s : List Char} :
      Matches ts s → Matches (.any :: ts) (c :: s)
  /-- A character takes itself, also if it is `*` or `?`. -/
  | same (c : Char) {ts : List Token} {s : List Char} :
      Matches ts s → Matches (.same c :: ts) (c :: s)

end Token

/-- The tokens of an expression without its anchors, from left to right. -/
def tokens : List Char → List Token
  | [] => []
  | '.' :: '*' :: '?' :: rest => .run :: tokens rest
  | '.' :: rest => .any :: tokens rest
  | '\\' :: c :: rest => .same c :: tokens rest
  | c :: rest => .same c :: tokens rest

/-- The text between the first `^` and the last `$`. -/
def inside (text : List Char) : List Char :=
  ((text.dropWhile (· ≠ '^')).tail.rdropWhile (· ≠ '$')).dropLast

/-- The tokens of an expression. -/
def read (text : List Char) : List Token :=
  tokens (inside text)

/-! ### Characters in an expression -/

lemma Token.ofChar_of_ne {c : Char} (hstar : c ≠ '*') (hany : c ≠ '?') : ofChar c = .same c := by
  rw [ofChar, if_neg hstar, if_neg hany]

lemma Token.char_ofChar (c : Char) : (ofChar c).char = c := by
  rw [ofChar]
  split
  · next h => exact h.symm
  · split
    · next h => exact h.symm
    · rfl

lemma expressionChar_of_ne {c : Char} (hstar : c ≠ '*') (hany : c ≠ '?') :
    expressionChar c = if c.isAlphanum || c = ' ' then [c] else ['\\', c] := by
  rw [expressionChar, if_neg hstar, if_neg hany]

/-- No character of a pattern is written with a `*` in front, so a `.` before it is on its own. -/
lemma head?_flatMap_expressionChar_ne (p : List Char) :
    (p.flatMap expressionChar).head? ≠ some '*' := by
  cases p with
  | nil => simp
  | cons c p =>
    rw [List.flatMap_cons, expressionChar]
    split
    · simp
    · split
      · simp
      · next hstar _ =>
        split
        · simpa using hstar
        · simp

lemma tokens_any {rest : List Char} (h : rest.head? ≠ some '*') :
    tokens ('.' :: rest) = .any :: tokens rest := by
  rw [tokens]
  rintro rest' rfl
  exact h rfl

lemma tokens_plain {c : Char} (hdot : c ≠ '.') (hback : c ≠ '\\') (rest : List Char) :
    tokens (c :: rest) = .same c :: tokens rest := by
  rw [tokens] <;> simp_all

/-- What a pattern is written as is read as what its characters stand for. -/
theorem tokens_flatMap_expressionChar (p : List Char) :
    tokens (p.flatMap expressionChar) = p.map Token.ofChar := by
  induction p with
  | nil => rfl
  | cons c p ih =>
    rw [List.flatMap_cons, List.map_cons, ← ih]
    by_cases hstar : c = '*'
    · subst hstar
      rfl
    · by_cases hany : c = '?'
      · subst hany
        exact tokens_any (head?_flatMap_expressionChar_ne p)
      · rw [expressionChar_of_ne hstar hany, Token.ofChar_of_ne hstar hany]
        split
        · next hplain =>
          refine tokens_plain ?_ ?_ _ <;> rintro rfl <;> exact absurd hplain (by decide)
        · rfl

lemma inside_rawExpression (p : List Char) : inside (rawExpression p) = p.flatMap expressionChar := by
  rw [inside, rawExpression, List.cons_append, List.dropWhile_cons_of_neg (by simp), List.tail_cons,
    List.rdropWhile_concat_neg _ _ _ (by simp), List.dropLast_concat]

/-! ### Expressions of normal forms -/

variable {p q : List Char}

/-- The characters that stand in expressions of any patterns. -/
def signs : List Char :=
  ['^', '$', '\\', '.', '*', '?']

lemma mem_expressionChar {c d : Char} (h : d ∈ expressionChar c) : d = c ∨ d ∈ signs := by
  rw [expressionChar] at h
  split at h
  · exact .inr (List.mem_append_right ['^', '$', '\\'] h)
  · split at h
    · exact .inr (by simp [signs, List.mem_singleton.1 h])
    · split at h
      · exact .inl (List.mem_singleton.1 h)
      · rcases List.mem_cons.1 h with rfl | h
        · exact .inr (by simp [signs])
        · exact .inl (List.mem_singleton.1 h)

lemma mem_rawExpression {d : Char} (h : d ∈ rawExpression p) : d ∈ p ∨ d ∈ signs := by
  rw [rawExpression, List.cons_append, List.mem_cons, List.mem_append, List.mem_flatMap,
    List.mem_singleton] at h
  rcases h with rfl | ⟨c, hc, hd⟩ | rfl
  · exact .inr (by simp [signs])
  · exact (mem_expressionChar hd).imp_left fun heq => by rwa [heq]
  · exact .inr (by simp [signs])

/-- Lower-casing changes nothing of an expression whose pattern is in normal form. -/
lemma expression_eq_rawExpression (hp : normalize p = p) : expression p = rawExpression p := by
  have hsign : signs.all (fun d => Text.isAscii d && d.toLower == d) = true := by decide
  rw [expression, ← Text.foldCase_eq_lowerCase]
  refine Text.foldCase_eq_self fun d hd => ?_
  rcases mem_rawExpression hd with hd | hd
  · exact Text.lowerChar_eq_self_of_mem_foldCase (mem_collapse_iff.1 (hp.symm ▸ hd))
  · have hd' := List.all_eq_true.1 hsign d hd
    rw [Bool.and_eq_true, beq_iff_eq] at hd'
    rw [Text.lowerChar_of_isAscii hd'.1, hd'.2]

/-- The expression of a normal form is read as what its characters stand for. -/
theorem read_expression (hp : normalize p = p) : read (expression p) = p.map Token.ofChar := by
  rw [read, expression_eq_rawExpression hp, inside_rawExpression, tokens_flatMap_expressionChar]

/-- The expression of a normal form is read as that pattern. -/
theorem map_char_read_expression (hp : normalize p = p) :
    (read (expression p)).map Token.char = p := by
  rw [read_expression hp, List.map_map]
  exact (List.map_congr_left fun c _ => Token.char_ofChar c).trans (List.map_id p)

/-- Different normal forms have different expressions. -/
theorem expression_inj (hp : normalize p = p) (hq : normalize q = q)
    (h : expression p = expression q) : p = q := by
  rw [← map_char_read_expression hp, h, map_char_read_expression hq]

/-! ### Languages -/

lemma matches_map_ofChar_iff {s : List Char} : Token.Matches (p.map Token.ofChar) s ↔ Matches p s := by
  constructor
  · intro h
    induction p generalizing s with
    | nil =>
      cases h
      exact .nil
    | cons c p ih =>
      rw [List.map_cons] at h
      by_cases hstar : c = '*'
      · subst hstar
        cases h with
        | run taken h => exact .run taken (ih h)
      · by_cases hany : c = '?'
        · subst hany
          cases h with
          | any d h => exact .any d (ih h)
        · rw [Token.ofChar_of_ne hstar hany] at h
          cases h with
          | same _ h => exact .same hstar hany (ih h)
  · intro h
    induction h with
    | nil => exact .nil
    | run taken _ ih => exact .run taken ih
    | any c _ ih => exact .any c ih
    | same hstar hany _ ih =>
      rw [List.map_cons, Token.ofChar_of_ne hstar hany]
      exact .same _ ih

/-- The expression of a normal form has the language of that pattern. -/
theorem matches_read_iff (hp : normalize p = p) {s : List Char} :
    Token.Matches (read (expression p)) s ↔ Matches p s := by
  rw [read_expression hp, matches_map_ofChar_iff]

end AgentCatalog.Pattern
