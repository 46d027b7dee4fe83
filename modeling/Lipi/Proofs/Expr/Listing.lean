/-
What a listing tells of an expression.

An expression is listed without the marks that would set its parts apart, save for the
parentheses around an operator with two operands; yet its listing can be taken apart in one
way. The first character tells what kind of expression it is (`Expr.front`), and where a part
ends is seen from what follows: nothing, a parenthesis, or a blank and an operator (`Stop`).
Names and numbers go on for as long as they can, a text up to its closing quote, and what an
assignment assigns up to the end of the part that the assignment is.

Two things are listed as something else. The truth values, null and an infinite number are
words, and a variable can be called by the same word. And a step written before its name looks
like two signs. What an expression looks like is the same expression with these replaced
(`Expr.apparent`), and that is what a listing tells, no less (`Expr.apparent_eq_of_listed_eq`).
-/
import Lipi.Expr.Listing
import Lipi.Proofs.Decimal.Numeral
import Lipi.Proofs.Expr.Leaves
import Lipi.Proofs.Text.Quoted

set_option autoImplicit false

namespace Lipi

open Text

/-! ## What an expression looks like -/

/-- Whether a value is listed as a word. -/
def Value.isWord : Value → Bool
  | .number x => x.isNaN || x.isInf
  | .text _ => false
  | .bool _ => true
  | .null => true

/-- The sign that a step repeats. -/
def UpdateOp.sign : UpdateOp → UnaryOp
  | increment => .plus
  | decrement => .negate

namespace Expr

/-- What an expression looks like in a listing: words are variables, and a step before its
name is two signs. -/
def apparent : Expr → Expr
  | literal v => if v.isWord then var v.listed else literal v
  | var name => var name
  | unary op operand => unary op operand.apparent
  | binary op left right => binary op left.apparent right.apparent
  | assign name op value => assign name op value.apparent
  | update name op true => unary op.sign (unary op.sign (var name))
  | update name op false => update name op false

/-- It is listed in the same way. -/
theorem listed_apparent (e : Expr) : e.apparent.listed = e.listed := by
  induction e with
  | literal v =>
    rw [apparent]
    split <;> rfl
  | var name => rfl
  | unary op operand ih => rw [apparent, listed, listed, ih]
  | binary op left right ihleft ihright => rw [apparent, listed, listed, ihleft, ihright]
  | assign name op value ih => rw [apparent, listed, listed, ih]
  | update name op leading =>
    cases leading with
    | false => rfl
    | true =>
      have hsign : op.symbol = op.sign.symbol ++ op.sign.symbol := by cases op <;> decide
      rw [apparent, listed, listed, listed, listed, hsign, String.append_assoc]

end Expr

/-! ## Signs -/

theorem BinaryOp.mem_all (op : BinaryOp) : op ∈ all := by
  cases op <;> decide

/-- Operators are told apart by their signs. -/
theorem BinaryOp.symbol_inj {a b : BinaryOp} (h : a.symbol = b.symbol) : a = b := by
  have hfind : ∀ op : BinaryOp, all.find? (·.symbol == op.symbol) = some op := by
    intro op
    cases op <;> decide
  have ha := hfind a
  rw [h, hfind b] at ha
  exact (Option.some.inj ha).symm

theorem BinaryOp.forall_ne_blank (op : BinaryOp) : ∀ c ∈ op.symbol.toList, (c != ' ') = true := by
  refine List.all_eq_true.mp ?_
  cases op <;> decide

theorem Expr.forall_assignSign_ne_blank (op : Option BinaryOp) :
    ∀ c ∈ (assignSign op).toList, (c != ' ') = true := by
  have hequals : ∀ c ∈ "=".toList, (c != ' ') = true := List.all_eq_true.mp (by decide)
  cases op with
  | none => exact hequals
  | some op =>
    rw [assignSign, String.toList_append, List.forall_mem_append]
    exact ⟨op.forall_ne_blank, hequals⟩

theorem Expr.assignSign_inj {a b : Option BinaryOp} (h : assignSign a = assignSign b) : a = b := by
  have hnone : ∀ op : BinaryOp, "=" ≠ op.symbol ++ "=" := by
    intro op
    cases op <;> decide
  cases a with
  | none =>
    cases b with
    | none => rfl
    | some op => exact absurd h (hnone op)
  | some op =>
    cases b with
    | none => exact absurd h.symm (hnone op)
    | some op' =>
      have hsymbol := congrArg String.toList h
      rw [assignSign, assignSign, String.toList_append, String.toList_append,
        List.append_left_inj, String.toList_inj] at hsymbol
      rw [BinaryOp.symbol_inj hsymbol]

/-- No assignment looks like an operator between operands. -/
theorem Expr.assignSign_ne_symbol {op : Option BinaryOp} (h : ∀ o ∈ op, o ∈ BinaryOp.arithmetic)
    (op' : BinaryOp) : assignSign op ≠ op'.symbol := by
  have hall : ∀ sign ∈ none :: BinaryOp.arithmetic.map some, ∀ o ∈ BinaryOp.all,
      assignSign sign ≠ o.symbol := by decide
  refine hall op ?_ op' op'.mem_all
  cases op with
  | none => exact List.mem_cons_self
  | some op => exact List.mem_cons_of_mem _ (List.mem_map_of_mem (h op rfl))

/-- A sign ends at the blank behind it. -/
theorem sign_unique {a a' : String} {b b' : List Char}
    (ha : ∀ c ∈ a.toList, (c != ' ') = true) (ha' : ∀ c ∈ a'.toList, (c != ' ') = true)
    (h : a.toList ++ ' ' :: b = a'.toList ++ ' ' :: b') : a = a' ∧ b = b' := by
  have hend : ∀ rest : List Char, ∀ c, (' ' :: rest).head? = some c → (c != ' ') = false := by
    rintro rest _ ⟨⟩
    rfl
  obtain ⟨hsign, hrest⟩ := stretch_unique ha ha' (hend b) (hend b') h
  exact ⟨String.toList_inj.mp hsign, (List.cons.inj hrest).2⟩

/-! ## Where a part ends -/

/-- What can follow a part of a listing. -/
inductive Stop : List Char → Prop where
  | nil : Stop []
  | closed (rest : List Char) : Stop (')' :: rest)
  | operator (op : BinaryOp) (rest : List Char) : Stop (' ' :: (op.symbol.toList ++ ' ' :: rest))

theorem Stop.head {s : List Char} (h : Stop s) {c : Char} (hc : s.head? = some c) :
    c = ')' ∨ c = ' ' := by
  cases h with
  | nil => cases hc
  | closed => exact .inl (Option.some.inj hc).symm
  | operator => exact .inr (Option.some.inj hc).symm

theorem Stop.isWordChar {s : List Char} (h : Stop s) :
    ∀ c, s.head? = some c → Lexeme.isWordChar c = false := by
  intro c hc
  rcases h.head hc with rfl | rfl <;> decide

theorem Stop.isNumeric {s : List Char} (h : Stop s) :
    ∀ c, s.head? = some c → isNumeric c = false := by
  intro c hc
  rcases h.head hc with rfl | rfl <;> decide

/-- The sign and the value of an assignment are no end. -/
theorem not_stop_assign {op : Option BinaryOp} (h : ∀ o ∈ op, o ∈ BinaryOp.arithmetic)
    (rest : List Char) : ¬ Stop (' ' :: ((Expr.assignSign op).toList ++ ' ' :: rest)) := by
  intro hstop
  generalize hs : ' ' :: ((Expr.assignSign op).toList ++ ' ' :: rest) = s at hstop
  cases hstop with
  | nil => cases hs
  | closed => exact absurd (List.cons.inj hs).1 (by decide)
  | operator op' rest' =>
    obtain ⟨hsign, -⟩ := sign_unique (Expr.forall_assignSign_ne_blank op) op'.forall_ne_blank
      (List.cons.inj hs).2
    exact Expr.assignSign_ne_symbol h op' hsign

/-- The sign of a step is no end. -/
theorem not_stop_update (op : UpdateOp) (rest : List Char) : ¬ Stop (op.symbol.toList ++ rest) := by
  intro hstop
  cases op <;> rcases hstop.head rfl with h | h <;> exact absurd h (by decide)

/-! ## Where a part begins -/

/-- What a part begins with. -/
inductive Front where
  | number
  | text
  | word
  | sign (op : UnaryOp)
  | group
deriving DecidableEq, Repr

/-- What a character begins. -/
def Front.ofChar (c : Char) : Front :=
  if c = '(' then group
  else if c = '"' then text
  else if c = '-' then sign .negate
  else if c = '+' then sign .plus
  else if c = '!' then sign .not
  else if c.isDigit then number
  else word

theorem Front.ofChar_of_isDigit {c : Char} (h : c.isDigit = true) : ofChar c = number := by
  have hne : ∀ d : Char, d.isDigit = false → c ≠ d := by
    rintro d hd rfl
    rw [h] at hd
    cases hd
  rw [ofChar, if_neg (hne _ rfl), if_neg (hne _ rfl), if_neg (hne _ rfl), if_neg (hne _ rfl),
    if_neg (hne _ rfl), if_pos h]

theorem Front.ofChar_of_isAlpha {c : Char} (h : c.isAlpha = true ∨ c = '_') : ofChar c = word := by
  have hdigit : ¬ c.isDigit = true := by
    rcases h with h | rfl
    · simp only [Char.isAlpha, Char.isUpper, Char.isLower, Char.isDigit, Bool.or_eq_true,
        Bool.and_eq_true, decide_eq_true_eq] at h ⊢
      grind
    · decide
  have hne : ∀ d : Char, d.isAlpha = false → d ≠ '_' → c ≠ d := by
    rintro d hd hd' rfl
    rcases h with h | h
    · rw [h] at hd
      cases hd
    · exact hd' h
  rw [ofChar, if_neg (hne _ rfl (by decide)), if_neg (hne _ rfl (by decide)),
    if_neg (hne _ rfl (by decide)), if_neg (hne _ rfl (by decide)),
    if_neg (hne _ rfl (by decide)), if_neg hdigit]

theorem Front.exists_word {word : String} (h : Lexeme.IsWord word) (rest : List Char) :
    ∃ c tail, word.toList ++ rest = c :: tail ∧ ofChar c = .word := by
  obtain ⟨c, tail, rfl, hc, -⟩ := h
  rw [String.toList_ofList]
  exact ⟨c, tail ++ rest, rfl, ofChar_of_isAlpha hc⟩

/-! ## Expressions that are what they look like -/

namespace Expr

/-- An expression that is what it looks like, and what its listing begins with. -/
inductive Legible : Front → Expr → Prop where
  | number {bits : ℕ} (h : bits < Binary64.infinity) :
      Legible .number (.literal (.number (Binary64.ofMagnitude false bits)))
  | text (t : String) : Legible .text (.literal (.text t))
  | var {name : String} (h : Lexeme.IsWord name) : Legible .word (.var name)
  | unary (op : UnaryOp) {front : Front} {operand : Expr} (h : Legible front operand) :
      Legible (.sign op) (.unary op operand)
  | binary (op : BinaryOp) {front front' : Front} {left right : Expr} (hleft : Legible front left)
      (hright : Legible front' right) : Legible .group (.binary op left right)
  | assign {name : String} (h : Lexeme.IsWord name) {op : Option BinaryOp}
      (hop : ∀ o ∈ op, o ∈ BinaryOp.arithmetic) {front : Front} {value : Expr}
      (hvalue : Legible front value) : Legible .word (.assign name op value)
  | update {name : String} (h : Lexeme.IsWord name) (op : UpdateOp) :
      Legible .word (.update name op false)

theorem toList_listed_unary (op : UnaryOp) (operand : Expr) (s : List Char) :
    (unary op operand).listed.toList ++ s = op.symbol.toList ++ (operand.listed.toList ++ s) := by
  simp [listed]

theorem toList_listed_binary (op : BinaryOp) (left right : Expr) (s : List Char) :
    (binary op left right).listed.toList ++ s
      = '(' :: (left.listed.toList ++ ' ' :: (op.symbol.toList
          ++ ' ' :: (right.listed.toList ++ ')' :: s))) := by
  simp [listed]

theorem toList_listed_assign (name : String) (op : Option BinaryOp) (value : Expr) (s : List Char) :
    (assign name op value).listed.toList ++ s
      = name.toList ++ ' ' :: ((assignSign op).toList ++ ' ' :: (value.listed.toList ++ s)) := by
  simp [listed]

theorem toList_listed_update (name : String) (op : UpdateOp) (s : List Char) :
    (update name op false).listed.toList ++ s = name.toList ++ (op.symbol.toList ++ s) := by
  simp [listed]

/-- **What a listing begins with tells what is listed.** -/
theorem Legible.exists_front {front : Front} {e : Expr} (h : Legible front e) (s : List Char) :
    ∃ c rest, e.listed.toList ++ s = c :: rest ∧ Front.ofChar c = front := by
  cases h with
  | number hbits =>
    obtain ⟨c, rest, htext, hc, -⟩ := Value.isNumberText_numberText hbits
    exact ⟨c, rest ++ s, congrArg (· ++ s) htext, Front.ofChar_of_isDigit hc⟩
  | text t =>
    refine ⟨'"', t.toList.flatMap escaped ++ ['"'] ++ s, ?_, rfl⟩
    rw [listed, Value.listed, quoted, String.toList_ofList]
    rfl
  | var hname => exact Front.exists_word hname s
  | unary op =>
    rw [toList_listed_unary]
    cases op <;> exact ⟨_, _, rfl, rfl⟩
  | binary op => exact ⟨'(', _, toList_listed_binary op _ _ s, rfl⟩
  | assign hname =>
    rw [toList_listed_assign]
    exact Front.exists_word hname _
  | update hname =>
    rw [toList_listed_update]
    exact Front.exists_word hname _

theorem Legible.front_eq {front front' : Front} {e e' : Expr} (h : Legible front e)
    (h' : Legible front' e') {s t : List Char}
    (heq : e.listed.toList ++ s = e'.listed.toList ++ t) : front = front' := by
  obtain ⟨c, rest, hc, rfl⟩ := h.exists_front s
  obtain ⟨c', rest', hc', rfl⟩ := h'.exists_front t
  rw [hc, hc'] at heq
  rw [(List.cons.inj heq).1]

/-! ## Taking a listing apart -/

/-- A name ends at the blank or the sign behind it. -/
theorem name_unique {name name' : String} (h : Lexeme.IsWord name) (h' : Lexeme.IsWord name')
    {s t : List Char} (hs : ∀ c, s.head? = some c → Lexeme.isWordChar c = false)
    (ht : ∀ c, t.head? = some c → Lexeme.isWordChar c = false)
    (heq : name.toList ++ s = name'.toList ++ t) : name = name' ∧ s = t := by
  obtain ⟨hname, hrest⟩ := stretch_unique h.forall_isWordChar h'.forall_isWordChar hs ht heq
  exact ⟨String.toList_inj.mp hname, hrest⟩

theorem isWordChar_of_head?_blank (s : List Char) :
    ∀ c, (' ' :: s).head? = some c → Lexeme.isWordChar c = false := by
  rintro _ ⟨⟩
  decide

theorem isWordChar_of_head?_update (op : UpdateOp) (s : List Char) :
    ∀ c, (op.symbol.toList ++ s).head? = some c → Lexeme.isWordChar c = false := by
  cases op <;> rintro _ ⟨⟩ <;> decide

theorem update_ne_blank (op : UpdateOp) (s t : List Char) : op.symbol.toList ++ s ≠ ' ' :: t := by
  intro h
  cases op <;> exact absurd (List.cons.inj h).1 (by decide)

theorem update_unique {op op' : UpdateOp} {s t : List Char}
    (h : op.symbol.toList ++ s = op'.symbol.toList ++ t) : op = op' ∧ s = t := by
  have hother : ∀ s t : List Char, "++".toList ++ s ≠ "--".toList ++ t := by
    intro s t h
    exact absurd (List.cons.inj h).1 (by decide)
  cases op with
  | increment =>
    cases op' with
    | increment => exact ⟨rfl, List.append_cancel_left h⟩
    | decrement => exact absurd h (hother s t)
  | decrement =>
    cases op' with
    | increment => exact absurd h.symm (hother t s)
    | decrement => exact ⟨rfl, List.append_cancel_left h⟩

/-- **A listing can be taken apart in one way**: an expression is known from any text that begins
with its listing and goes on as listings do. -/
theorem Legible.unique {front front' : Front} {e e' : Expr} (he : Legible front e)
    (he' : Legible front' e') {s t : List Char} (hs : Stop s) (ht : Stop t)
    (h : e.listed.toList ++ s = e'.listed.toList ++ t) : e = e' ∧ s = t := by
  -- The induction is on the first expression, for every text that can follow it: a part of an
  -- expression is followed by the rest of the whole. What begins alike is of one kind, unless it
  -- begins with a name; then what stands behind the name tells.
  induction he generalizing front' e' s t with
  | number hbits =>
    obtain rfl := (number hbits).front_eq he' h
    cases he' with
    | number hbits' =>
      obtain ⟨htext, hrest⟩ := stretch_unique
        (Value.isNumberText_numberText hbits).forall_isNumeric
        (Value.isNumberText_numberText hbits').forall_isNumeric hs.isNumeric ht.isNumeric h
      rw [Value.bits_eq_of_numberText_eq hbits hbits' (String.toList_inj.mp htext)]
      exact ⟨rfl, hrest⟩
  | text a =>
    obtain rfl := (text a).front_eq he' h
    cases he' with
    | text b =>
      obtain ⟨rfl, hrest⟩ := quoted_unique h
      exact ⟨rfl, hrest⟩
  | var hname =>
    obtain rfl := (var hname).front_eq he' h
    cases he' with
    | var hname' =>
      obtain ⟨rfl, hrest⟩ := name_unique hname hname' hs.isWordChar ht.isWordChar h
      exact ⟨rfl, hrest⟩
    | assign hname' hop =>
      rw [toList_listed_assign] at h
      obtain ⟨-, rfl⟩ := name_unique hname hname' hs.isWordChar (isWordChar_of_head?_blank _) h
      exact absurd hs (not_stop_assign hop _)
    | update hname' op =>
      rw [toList_listed_update] at h
      obtain ⟨-, rfl⟩ := name_unique hname hname' hs.isWordChar (isWordChar_of_head?_update op t) h
      exact absurd hs (not_stop_update op t)
  | unary op hoperand ih =>
    obtain rfl := (unary op hoperand).front_eq he' h
    cases he' with
    | unary _ hoperand' =>
      rw [toList_listed_unary, toList_listed_unary] at h
      obtain ⟨rfl, hrest⟩ := ih hoperand' hs ht (List.append_cancel_left h)
      exact ⟨rfl, hrest⟩
  | binary op hleft hright ihleft ihright =>
    obtain rfl := (binary op hleft hright).front_eq he' h
    cases he' with
    | binary op' hleft' hright' =>
      rw [toList_listed_binary, toList_listed_binary] at h
      -- The left side ends at a blank and an operator, the right side at a parenthesis.
      obtain ⟨rfl, hrest⟩ := ihleft hleft' (.operator op _) (.operator op' _) (List.cons.inj h).2
      obtain ⟨hsymbol, hrest⟩ := sign_unique op.forall_ne_blank op'.forall_ne_blank
        (List.cons.inj hrest).2
      obtain ⟨rfl, hafter⟩ := ihright hright' (.closed s) (.closed t) hrest
      rw [BinaryOp.symbol_inj hsymbol]
      exact ⟨rfl, (List.cons.inj hafter).2⟩
  | assign hname hop hvalue ih =>
    obtain rfl := (assign hname hop hvalue).front_eq he' h
    rw [toList_listed_assign] at h
    cases he' with
    | var hname' =>
      obtain ⟨-, rfl⟩ := name_unique hname hname' (isWordChar_of_head?_blank _) ht.isWordChar h
      exact absurd ht (not_stop_assign hop _)
    | assign hname' hop' hvalue' =>
      rw [toList_listed_assign] at h
      obtain ⟨rfl, hrest⟩ := name_unique hname hname' (isWordChar_of_head?_blank _)
        (isWordChar_of_head?_blank _) h
      obtain ⟨hsign, hrest⟩ := sign_unique (forall_assignSign_ne_blank _)
        (forall_assignSign_ne_blank _) (List.cons.inj hrest).2
      obtain ⟨rfl, hafter⟩ := ih hvalue' hs ht hrest
      rw [assignSign_inj hsign]
      exact ⟨rfl, hafter⟩
    | update hname' op =>
      rw [toList_listed_update] at h
      obtain ⟨-, hrest⟩ := name_unique hname hname' (isWordChar_of_head?_blank _)
        (isWordChar_of_head?_update op t) h
      exact absurd hrest.symm (update_ne_blank op _ _)
  | update hname op =>
    obtain rfl := (update hname op).front_eq he' h
    rw [toList_listed_update] at h
    cases he' with
    | var hname' =>
      obtain ⟨-, rfl⟩ := name_unique hname hname' (isWordChar_of_head?_update op s) ht.isWordChar h
      exact absurd ht (not_stop_update op s)
    | assign hname' hop =>
      rw [toList_listed_assign] at h
      obtain ⟨-, hrest⟩ := name_unique hname hname' (isWordChar_of_head?_update op s)
        (isWordChar_of_head?_blank _) h
      exact absurd hrest (update_ne_blank op _ _)
    | update hname' op' =>
      rw [toList_listed_update] at h
      obtain ⟨rfl, hrest⟩ := name_unique hname hname' (isWordChar_of_head?_update op s)
        (isWordChar_of_head?_update op' t) h
      obtain ⟨rfl, hafter⟩ := update_unique hrest
      exact ⟨rfl, hafter⟩

end Expr

/-! ## Expressions of a source -/

/-- A literal number of a source is not negative, and is a number. -/
theorem Lexeme.Spells.exists_bits {span : List Char} {k : Token.Kind} (h : Spells span k)
    {x : Float} (hvalue : Piece.ofKind k = .value (.number x)) :
    ∃ bits ≤ Binary64.infinity, x = Binary64.ofMagnitude false bits := by
  cases h with
  | text => cases hvalue
  | integer =>
    cases hvalue
    exact ⟨_, Decimal.nearest_le_infinity _, rfl⟩
  | decimal =>
    cases hvalue
    exact ⟨_, Decimal.nearest_le_infinity _, rfl⟩
  | operator o => cases o <;> cases hvalue
  | symbol s => cases s <;> cases hvalue
  | word =>
    unfold wordKind at hvalue
    split at hvalue <;> cases hvalue

/-- A token that the scanner reads from some source. -/
def Token.Readable (t : Token) : Prop := ∃ source tokens, tokenize source = .ok tokens ∧ t ∈ tokens

theorem Token.spelled_of_readable {slice : List Token} (h : ∀ t ∈ slice, t.Readable) :
    Token.Spelled slice := by
  intro k hk
  obtain ⟨t, ht, rfl⟩ := List.mem_map.mp hk
  obtain ⟨source, tokens, htokens, hmem⟩ := h t ht
  exact spelled_of_tokenize htokens _ (List.mem_map_of_mem hmem)

namespace Expr

/-- An expression that is read from tokens of sources. -/
def Readable (e : Expr) : Prop :=
  ∃ slice : List Token, (∀ t ∈ slice, t.Readable) ∧ parse slice = .ok e

/-- A literal of a source is a number, a text or a word. -/
theorem exists_legible_literal {v : Value} {source : List Token} (hsource : Token.Spelled source)
    (h : (literal v).Within source) : ∃ front, Legible front (literal v).apparent := by
  cases v with
  | number x =>
    obtain ⟨k, hk, hvalue⟩ := h
    obtain ⟨span, hspan⟩ := hsource k hk
    obtain ⟨bits, hbits, rfl⟩ := hspan.exists_bits hvalue
    have hword : (Value.number (Binary64.ofMagnitude false bits)).isWord
        = decide (bits = Binary64.infinity) := by
      rw [Value.isWord, Binary64.isNaN_ofMagnitude false hbits,
        Binary64.isInf_ofMagnitude false hbits, Bool.false_or]
    rw [apparent, hword]
    -- Digits enough come to infinity, which is listed as a word.
    rcases hbits.lt_or_eq with hlt | rfl
    · rw [decide_eq_false hlt.ne]
      exact ⟨_, .number hlt⟩
    · have hlisted : (Value.number (Binary64.ofMagnitude false Binary64.infinity)).listed
          = "Infinity" := Value.numberText_infinity
      rw [decide_eq_true rfl, if_pos rfl, hlisted]
      exact ⟨_, .var (Lexeme.isWord_of_all (by decide) (by decide))⟩
  | text t => exact ⟨_, .text t⟩
  | bool b => cases b <;> exact ⟨_, .var (Lexeme.isWord_of_all (by decide) (by decide))⟩
  | null => exact ⟨_, .var (Lexeme.isWord_of_all (by decide) (by decide))⟩

theorem exists_legible_apparent {source : List Token} (hsource : Token.Spelled source) {e : Expr}
    (h : e.Within source) (hops : e.Arithmetic) : ∃ front, Legible front e.apparent := by
  induction e with
  | literal v => exact exists_legible_literal hsource h
  | var name => exact ⟨_, .var (hsource.isWord h)⟩
  | unary op operand ih =>
    obtain ⟨front, hoperand⟩ := ih h fun name op value hmem =>
      hops name op value (List.mem_cons_of_mem _ hmem)
    exact ⟨_, .unary op hoperand⟩
  | binary op left right ihleft ihright =>
    obtain ⟨front, hleft⟩ := ihleft h.1 fun name op value hmem =>
      hops name op value (List.mem_cons_of_mem _ (List.mem_append_left _ hmem))
    obtain ⟨front', hright⟩ := ihright h.2 fun name op value hmem =>
      hops name op value (List.mem_cons_of_mem _ (List.mem_append_right _ hmem))
    exact ⟨_, .binary op hleft hright⟩
  | assign name op value ih =>
    obtain ⟨front, hvalue⟩ := ih h.2 fun name op value hmem =>
      hops name op value (List.mem_cons_of_mem _ hmem)
    refine ⟨_, .assign (hsource.isWord h.1) ?_ hvalue⟩
    rintro o rfl
    exact hops name o value List.mem_cons_self
  | update name op leading =>
    have hname := hsource.isWord h
    cases leading with
    | false => exact ⟨_, .update hname op⟩
    | true => exact ⟨_, .unary op.sign (.unary op.sign (.var hname))⟩

/-- **A listing tells what an expression looks like.** Expressions that are listed by the same
text are the same, once true, false, null and an infinite number are taken for variables of
that name and a step before its name for two signs. -/
theorem apparent_eq_of_listed_eq {e e' : Expr} (he : e.Readable) (he' : e'.Readable)
    (h : e.listed = e'.listed) : e.apparent = e'.apparent := by
  have hlegible : ∀ e : Expr, e.Readable → ∃ front, Legible front e.apparent := by
    rintro e ⟨slice, htokens, hparse⟩
    exact exists_legible_apparent (Token.spelled_of_readable htokens)
      (within_of_parse (fun _ => id) hparse) (arithmetic_of_parse hparse)
  obtain ⟨front, hlegible₁⟩ := hlegible e he
  obtain ⟨front', hlegible₂⟩ := hlegible e' he'
  refine (hlegible₁.unique hlegible₂ .nil .nil ?_).1
  rw [listed_apparent, listed_apparent, h]

/-! ## What is not told apart -/

/-- The expression that a whole source is, if it is one. -/
def ofSource? (source : String) : Option Expr :=
  (tokenize source).toOption.bind fun tokens => (parse tokens).toOption

theorem readable_of_source {source : String} {e : Expr} (h : ofSource? source = some e) :
    e.Readable := by
  unfold ofSource? at h
  cases htokens : tokenize source with
  | error error =>
    rw [htokens] at h
    cases h
  | ok tokens =>
    rw [htokens] at h
    cases hparse : parse tokens with
    | error error =>
      have hnone : (parse tokens).toOption = some e := h
      rw [hparse] at hnone
      cases hnone
    | ok e' =>
      have hsome : (parse tokens).toOption = some e := h
      rw [hparse] at hsome
      cases hsome
      exact ⟨tokens, fun t ht => ⟨source, tokens, htokens, ht⟩, hparse⟩

/-- Two signs and a step, a truth value and a variable. -/
theorem apparent_eq_of_listed_eq_signs :
    ∃ e e' : Expr, ofSource? "-(-x) + satya" = some e ∧ ofSource? "--x + true" = some e'
      ∧ e.listed = e'.listed ∧ e.apparent = e'.apparent := by
  have he : ofSource? "-(-x) + satya" = some (.binary .add
      (.unary .negate (.unary .negate (.var "x"))) (.literal (.bool true))) := by decide +kernel
  have he' : ofSource? "--x + true" = some (.binary .add
      (.update "x" .decrement true) (.var "true")) := by decide +kernel
  have hlisted : (Expr.binary .add (.unary .negate (.unary .negate (.var "x")))
      (.literal (.bool true))).listed
      = (Expr.binary .add (.update "x" .decrement true) (.var "true")).listed := by decide +kernel
  exact ⟨_, _, he, he', hlisted,
    apparent_eq_of_listed_eq (readable_of_source he) (readable_of_source he') hlisted⟩

/-- **Different expressions can be listed alike**: a truth value and a variable called by the
same word, two signs and a step before its name. Tokens that are from no source can have an
identifier that is no word, which is listed like what it looks like. -/
theorem listed_alike :
    (∃ e e' : Expr, ofSource? "satya" = some e ∧ ofSource? "true" = some e'
        ∧ e ≠ e' ∧ e.listed = "true" ∧ e'.listed = "true")
      ∧ (∃ e e' : Expr, ofSource? "-(-x)" = some e ∧ ofSource? "--x" = some e'
        ∧ e ≠ e' ∧ e.listed = "--x" ∧ e'.listed = "--x")
      ∧ ∃ e e' : Expr, (parse [⟨.identifier "x++", .start⟩]).toOption = some e
        ∧ ofSource? "x++" = some e' ∧ e ≠ e' ∧ e.listed = "x++" ∧ e'.listed = "x++" := by
  refine ⟨⟨.literal (.bool true), .var "true", ?_⟩,
    ⟨.unary .negate (.unary .negate (.var "x")), .update "x" .decrement true, ?_⟩,
    ⟨.var "x++", .update "x" .increment false, ?_⟩⟩ <;>
    decide +kernel

end Expr

end Lipi
