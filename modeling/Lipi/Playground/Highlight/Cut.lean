/-
Cutting a line into spans.

The playground colours text that may not be a program, so nothing here can fail: a
quote without a partner runs to the end of its line, and so does a comment. A line
is cut into spans from the left, each decided by its first character, and the only
thing one line tells the next is whether a block comment is still open. Each cut
takes at least one character and hands on what it did not take, so the spans of a
line put together are the line.

This says what the spans of a line are. They are found with an index that runs over the
line (`Highlight.Scan`), which comes to the same.
-/
import Lipi.Playground.Theme
import Lipi.Token.Lexeme

set_option autoImplicit false

namespace Lipi.Playground

/-- A stretch of a line that is drawn in one way. -/
structure Span where
  text : List Char
  role : Role
deriving DecidableEq, Repr

/-- What is cut off the front of a line, what is left, and whether a block comment
is open then. -/
structure Cut where
  text : List Char
  role : Role
  rest : List Char
  inComment : Bool
deriving DecidableEq, Repr

/-! ## Stretches -/

/-- Splits a line after the end of a block comment, or at its own end. -/
def splitComment : List Char → List Char × List Char × Bool
  | [] => ([], [], true)
  | '*' :: '/' :: rest => (['*', '/'], rest, false)
  | c :: rest =>
    let (text, rest, inComment) := splitComment rest
    (c :: text, rest, inComment)

/-- Splits a line after a quote that no backslash stands before, or at its own
end. -/
def splitQuoted (quote : Char) : List Char → List Char × List Char
  | [] => ([], [])
  | '\\' :: c :: rest =>
    let (text, rest) := splitQuoted quote rest
    ('\\' :: c :: text, rest)
  | c :: rest =>
    if c = quote then ([c], rest)
    else
      let (text, rest) := splitQuoted quote rest
      (c :: text, rest)

/-- The characters that continue a number. -/
def isNumberChar (c : Char) : Bool := c.isDigit || c == '.'

theorem isNumberChar_of_isDigit {c : Char} (h : c.isDigit = true) : isNumberChar c = true := by
  rw [isNumberChar, h, Bool.true_or]

/-- What a word is (`word_style`). -/
def wordRole (word : String) : Role :=
  match Keyword.ofWord? word with
  | some k => if k.isSkeleton then .skeleton else .keyword
  | none =>
    match Operator.lexicon.find? (·.spelling == word) with
    | some .wordTrue => .literal
    | some .wordFalse => .literal
    | some .wordNull => .literal
    | some _ => .wordOperator
    | none => .name

/-- What a character that stands by itself is. -/
def signRole (c : Char) : Role :=
  if c = '\x7b' ∨ c = '\x7d' ∨ c = '(' ∨ c = ')' then .bracket else .other

/-! ## Lines -/

/-- Cuts the front off a line outside comments, given its first character and the
others. -/
def cutOutside (c : Char) (rest : List Char) : Cut :=
  if c = '/' ∧ rest.head? = some '/' then ⟨c :: rest, .comment, [], false⟩
  else if c = '/' ∧ rest.head? = some '*' then ⟨['/', '*'], .comment, rest.tail, true⟩
  else if c = '"' ∨ c = '\'' then
    ⟨c :: (splitQuoted c rest).1, .text, (splitQuoted c rest).2, false⟩
  else if c.isDigit then
    ⟨c :: rest.takeWhile isNumberChar, .number, rest.dropWhile isNumberChar, false⟩
  else if c.isAlpha ∨ c = '_' then
    let word := c :: rest.takeWhile Lexeme.isWordChar
    ⟨word, wordRole (String.ofList word), rest.dropWhile Lexeme.isWordChar, false⟩
  else ⟨[c], signRole c, rest, false⟩

/-- Cuts the front off a line, given its first character and the others. -/
def cut (inComment : Bool) (c : Char) (rest : List Char) : Cut :=
  if inComment then
    let (text, rest, inComment) := splitComment (c :: rest)
    ⟨text, .comment, rest, inComment⟩
  else cutOutside c rest

/-! ## One character after the other -/

theorem splitComment_cons (c : Char) (rest : List Char) :
    splitComment (c :: rest)
      = if c = '*' ∧ rest.head? = some '/' then (['*', '/'], rest.tail, false)
        else (c :: (splitComment rest).1, (splitComment rest).2) := by
  split
  · next h =>
    obtain ⟨rfl, hnext⟩ := h
    obtain ⟨more, rfl⟩ := List.head?_eq_some_iff.mp hnext
    rfl
  · next h =>
    rw [splitComment]
    intro more hc hrest
    exact h ⟨hc, by rw [hrest, List.head?_cons]⟩

theorem splitQuoted_escaped (quote c : Char) (rest : List Char) :
    splitQuoted quote ('\\' :: c :: rest)
      = ('\\' :: c :: (splitQuoted quote rest).1, (splitQuoted quote rest).2) := by
  rw [splitQuoted]

/-- A backslash at the end takes nothing along. -/
theorem splitQuoted_backslash (quote : Char) : splitQuoted quote ['\\'] = (['\\'], []) := by
  rw [splitQuoted, splitQuoted, ite_self]
  intro _ _ _ he
  cases he

theorem splitQuoted_cons {quote c : Char} (hc : c ≠ '\\') (rest : List Char) :
    splitQuoted quote (c :: rest)
      = if c = quote then ([c], rest)
        else (c :: (splitQuoted quote rest).1, (splitQuoted quote rest).2) := by
  rw [splitQuoted]
  intro _ _ he
  exact absurd he hc

/-! ## Nothing is lost -/

theorem splitComment_append (line : List Char) :
    (splitComment line).1 ++ (splitComment line).2.1 = line := by
  fun_induction splitComment line <;> simp_all

theorem splitQuoted_append (quote : Char) (line : List Char) :
    (splitQuoted quote line).1 ++ (splitQuoted quote line).2 = line := by
  fun_induction splitQuoted quote line <;> simp_all

/-- What is cut off and what is left make up the line. -/
theorem cut_append (inComment : Bool) (c : Char) (rest : List Char) :
    (cut inComment c rest).text ++ (cut inComment c rest).rest = c :: rest := by
  cases inComment with
  | true => exact splitComment_append (c :: rest)
  | false =>
    unfold cut cutOutside
    rw [if_neg Bool.false_ne_true]
    split
    · simp
    · split
      · next h =>
        obtain ⟨rfl, h⟩ := h
        cases rest with
        | nil => simp at h
        | cons d rest => simp_all
      · split
        · simp [splitQuoted_append]
        · split
          · simp
          · split <;> simp

/-- Something is cut off. -/
theorem cut_text_ne_nil (inComment : Bool) (c : Char) (rest : List Char) :
    (cut inComment c rest).text ≠ [] := by
  cases inComment with
  | true =>
    show (splitComment (c :: rest)).1 ≠ []
    unfold splitComment
    split <;> simp_all
  | false =>
    unfold cut cutOutside
    rw [if_neg Bool.false_ne_true]
    repeat' split
    all_goals simp

/-- What is left is no longer than what followed the first character. -/
theorem cut_rest_length_le (inComment : Bool) (c : Char) (rest : List Char) :
    (cut inComment c rest).rest.length ≤ rest.length := by
  have whole := congrArg List.length (cut_append inComment c rest)
  have some := List.length_pos_iff.2 (cut_text_ne_nil inComment c rest)
  simp only [List.length_append, List.length_cons] at whole
  omega

/-- The spans that a line is cut into, and whether a block comment is open at its end. -/
def cutLine (inComment : Bool) : List Char → List Span × Bool
  | [] => ([], inComment)
  | c :: rest =>
    let front := cut inComment c rest
    let (spans, inComment) := cutLine front.inComment front.rest
    (⟨front.text, front.role⟩ :: spans, inComment)
termination_by line => line.length
decreasing_by exact Nat.lt_succ_of_le (cut_rest_length_le inComment c rest)

/-- The spans that a line is cut into are the line. -/
theorem text_cutLine (inComment : Bool) (line : List Char) :
    (cutLine inComment line).1.flatMap (·.text) = line := by
  fun_induction cutLine inComment line with
  | case1 => rfl
  | case2 inComment c rest front spans _ hrest ih =>
    have hcut := cut_append inComment c rest
    rw [hrest] at ih
    rw [List.flatMap_cons, ih]
    exact hcut

/-- Each of them has something of it. -/
theorem ne_nil_of_mem_cutLine (inComment : Bool) (line : List Char) :
    ∀ s ∈ (cutLine inComment line).1, s.text ≠ [] := by
  fun_induction cutLine inComment line with
  | case1 => exact fun _ h => absurd h List.not_mem_nil
  | case2 inComment c rest front spans _ hrest ih =>
    rw [hrest] at ih
    exact List.forall_mem_cons.mpr ⟨cut_text_ne_nil inComment c rest, ih⟩

end Lipi.Playground
