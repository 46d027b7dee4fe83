/-
The table of precedences.

The language orders its operators in ten rows, from assignments, which bind loosest, to
primaries. This is the table, with every sign spelled out, and the grammar that it stands for:
`Precedence.Derives` has one rule for each kind of row and knows nothing of how an expression is
read. A row takes in the one below it; operators between operands have their own row on their
left and the next one on their right, so they group to the left, and an assignment has its own
row on its right. A word for an operator is not in the table, because it has become a sign
before an expression is looked at (`Piece.fuse`).

The grammar that the readers were compared with (`Phrase.Derives`) is put together from the
readers' own tables, one level after the other. Both derive the same
(`Precedence.derives_iff`), and so a slice is read as what the table says (`parse_iff_derives`),
as long as neither the nesting nor a tree goes beyond its ceiling.
-/
import Lipi.Proofs.Expr.Parsing

set_option autoImplicit false

namespace Lipi

/-! ## The table -/

/-- The rows, the loosest first. -/
inductive Precedence where
  | assignment
  | or
  | and
  | equality
  | relational
  | additive
  | term
  | unary
  | stepped
  | primary
deriving DecidableEq, Repr

namespace Precedence

/-- The row below. -/
def tighter? : Precedence → Option Precedence
  | assignment => some or
  | or => some and
  | and => some equality
  | equality => some relational
  | relational => some additive
  | additive => some term
  | term => some unary
  | unary => some stepped
  | stepped => some primary
  | primary => none

/-- The operators between two operands, in their rows. -/
def operators : Precedence → List (String × BinaryOp)
  | or => [("||", .or)]
  | and => [("&&", .and)]
  | equality => [("==", .eq), ("!=", .ne), ("===", .strictEq), ("!==", .strictNe)]
  | relational => [("<", .lt), (">", .gt), ("<=", .le), (">=", .ge)]
  | additive => [("+", .add), ("-", .sub)]
  | term => [("*", .mul), ("/", .div), ("%", .rem)]
  | assignment | unary | stepped | primary => []

/-- The signs of the row of assignments, with the operator that each carries. -/
def assignments : List (String × Option BinaryOp) :=
  [("=", none), ("+=", some .add), ("-=", some .sub), ("*=", some .mul), ("/=", some .div),
   ("%=", some .rem)]

/-- The operators before an operand, in the row of unaries. -/
def unaries : List (String × UnaryOp) := [("!", .not), ("-", .negate), ("+", .plus)]

/-- The steps of a variable, before it in the row of unaries and behind it in the next. -/
def steps : List (String × UpdateOp) := [("++", .increment), ("--", .decrement)]

/-! ## The grammar -/

/-- `row.Derives pieces e nesting`: the pieces, all of them, are an expression of the row and
spell `e`, with at most `nesting` groups, operators before an operand and assignments around any
one of them. -/
inductive Derives : Precedence → List Piece → Expr → Nat → Prop where
  | ofTighter {row tighter : Precedence} {pieces : List Piece} {e : Expr} {n : Nat}
      (hrow : row.tighter? = some tighter) (h : tighter.Derives pieces e n) :
      row.Derives pieces e n
  /-- `IDENT = assignment`, and the same with an operator in the sign. -/
  | assign {s : Sign} {op : Option BinaryOp} {pieces : List Piece} {value : Expr} {n : Nat}
      (name : String) (l₁ l₂ : Location) (hop : (s.spelling, op) ∈ assignments)
      (hvalue : assignment.Derives pieces value n) :
      assignment.Derives (⟨.name name, l₁⟩ :: ⟨.sign s, l₂⟩ :: pieces) (.assign name op value)
        (n + 1)
  /-- An operator between its own row and the next. -/
  | join {row tighter : Precedence} {s : Sign} {op : BinaryOp} {before after : List Piece}
      {left right : Expr} {n m : Nat} (l : Location) (hop : (s.spelling, op) ∈ row.operators)
      (hrow : row.tighter? = some tighter) (hleft : row.Derives before left n)
      (hright : tighter.Derives after right m) :
      row.Derives (before ++ ⟨.sign s, l⟩ :: after) (.binary op left right) (max n m)
  | unary {s : Sign} {op : UnaryOp} {pieces : List Piece} {operand : Expr} {n : Nat}
      (l : Location) (hop : (s.spelling, op) ∈ unaries)
      (hoperand : unary.Derives pieces operand n) :
      unary.Derives (⟨.sign s, l⟩ :: pieces) (.unary op operand) (n + 1)
  /-- `++IDENT` and `--IDENT`. -/
  | leading {s : Sign} {op : UpdateOp} (name : String) (l₁ l₂ : Location)
      (hop : (s.spelling, op) ∈ steps) :
      unary.Derives [⟨.sign s, l₁⟩, ⟨.name name, l₂⟩] (.update name op true) 0
  /-- A step behind a primary that is a name, in parentheses or not. -/
  | trailing {s : Sign} {op : UpdateOp} {pieces : List Piece} {name : String} {n : Nat}
      (l : Location) (hop : (s.spelling, op) ∈ steps)
      (hname : primary.Derives pieces (.var name) n) :
      stepped.Derives (pieces ++ [⟨.sign s, l⟩]) (.update name op false) n
  | value (v : Value) (l : Location) : primary.Derives [⟨.value v, l⟩] (.literal v) 0
  | name (name : String) (l : Location) : primary.Derives [⟨.name name, l⟩] (.var name) 0
  | group {pieces : List Piece} {e : Expr} {n : Nat} (l₁ l₂ : Location)
      (h : assignment.Derives pieces e n) :
      primary.Derives (⟨.openParen, l₁⟩ :: (pieces ++ [⟨.closeParen, l₂⟩])) e (n + 1)

/-! ## The rows as phrases -/

/-- What the readers call a row. -/
def phrase : Precedence → Phrase
  | assignment => .expression
  | or => .joined [.disjunction, .conjunction, .equality, .relation, .sum, .product]
  | and => .joined [.conjunction, .equality, .relation, .sum, .product]
  | equality => .joined [.equality, .relation, .sum, .product]
  | relational => .joined [.relation, .sum, .product]
  | additive => .joined [.sum, .product]
  | term => .joined [.product]
  | unary => .joined []
  | stepped => .stepped
  | primary => .primary

/-- The level of operators that a row has. -/
def level? : Precedence → Option Level
  | or => some .disjunction
  | and => some .conjunction
  | equality => some .equality
  | relational => some .relation
  | additive => some .sum
  | term => some .product
  | _ => none

/-- A sign is an operator of a row exactly if its level says so. -/
theorem mem_operators_iff (row : Precedence) (s : Sign) (op : BinaryOp) :
    (s.spelling, op) ∈ row.operators ↔ ∃ level, row.level? = some level
      ∧ level.operator? s = some op := by
  -- Both sides are tables, and are compared entry by entry.
  cases row with
  | assignment | unary | stepped | primary => simp [operators, level?]
  | _ => cases s <;> simp [operators, level?, Level.operator?, Sign.spelling, eq_comm]

theorem mem_assignments_iff (s : Sign) (op : Option BinaryOp) :
    (s.spelling, op) ∈ assignments ↔ s.assignOp? = some op := by
  cases s <;> simp [assignments, Sign.assignOp?, Sign.spelling, eq_comm]

theorem mem_unaries_iff (s : Sign) (op : UnaryOp) :
    (s.spelling, op) ∈ unaries ↔ s.unaryOp? = some op := by
  cases s <;> simp [unaries, Sign.unaryOp?, Sign.spelling, eq_comm]

theorem mem_steps_iff (s : Sign) (op : UpdateOp) :
    (s.spelling, op) ∈ steps ↔ s.updateOp? = some op := by
  cases s <;> simp [steps, Sign.updateOp?, Sign.spelling, eq_comm]

/-- A row with operators is a phrase of its level, and the row below of the tighter levels. -/
theorem phrase_of_level? {row tighter : Precedence} {level : Level}
    (hlevel : row.level? = some level) (hrow : row.tighter? = some tighter) :
    ∃ levels, row.phrase = .joined (level :: levels) ∧ tighter.phrase = .joined levels := by
  cases row <;> cases hlevel <;> cases hrow <;> exact ⟨_, rfl, rfl⟩

theorem level?_of_phrase {row : Precedence} {level : Level} {levels : List Level}
    (h : row.phrase = .joined (level :: levels)) :
    row.level? = some level ∧ ∃ tighter, row.tighter? = some tighter
      ∧ tighter.phrase = .joined levels := by
  cases row <;> cases h <;> exact ⟨rfl, _, rfl, rfl⟩

theorem phrase_injective {row row' : Precedence} (h : row.phrase = row'.phrase) : row = row' := by
  cases row <;> cases row' <;> first | rfl | cases h

/-! ## Both grammars are one -/

/-- What the table derives, the readers' grammar derives. -/
theorem Derives.toPhrase {row : Precedence} {pieces : List Piece} {e : Expr} {n : Nat}
    (h : row.Derives pieces e n) : row.phrase.Derives pieces e n := by
  induction h with
  | @ofTighter row tighter _ _ _ hrow _ ih =>
    cases row with
    | assignment => cases hrow; exact .ofJoined ih
    | or | and | equality | relational | additive | term => cases hrow; exact .ofTighter ih
    | unary => cases hrow; exact .ofStepped ih
    | stepped => cases hrow; exact .ofPrimary ih
    | primary => cases hrow
  | assign name l₁ l₂ hop _ ih => exact .assign name l₁ l₂ ((mem_assignments_iff _ _).mp hop) ih
  | join l hop hrow _ _ ihl ihr =>
    obtain ⟨level, hlevel, hop⟩ := (mem_operators_iff _ _ _).mp hop
    obtain ⟨levels, hphrase, htighter⟩ := phrase_of_level? hlevel hrow
    rw [hphrase] at ihl ⊢
    rw [htighter] at ihr
    exact .join l hop ihl ihr
  | unary l hop _ ih => exact .unary l ((mem_unaries_iff _ _).mp hop) ih
  | leading name l₁ l₂ hop => exact .leading name l₁ l₂ ((mem_steps_iff _ _).mp hop)
  | trailing l hop _ ih => exact .trailing l ((mem_steps_iff _ _).mp hop) ih
  | value v l => exact .value v l
  | name name l => exact .name name l
  | group l₁ l₂ _ ih => exact .group l₁ l₂ ih

/-- And the other way round. -/
theorem derives_of_phrase {phrase : Phrase} {pieces : List Piece} {e : Expr} {n : Nat}
    (h : phrase.Derives pieces e n) {row : Precedence} (hrow : row.phrase = phrase) :
    row.Derives pieces e n := by
  -- In each case the phrase tells the row, and the parts of the phrase tell the row below.
  induction h generalizing row with
  | assign name l₁ l₂ hop _ ih =>
    obtain rfl : row = assignment := phrase_injective hrow
    exact .assign name l₁ l₂ ((mem_assignments_iff _ _).mpr hop) (ih rfl)
  | ofJoined _ ih =>
    obtain rfl : row = assignment := phrase_injective hrow
    exact .ofTighter rfl (@ih or rfl)
  | join l hop _ _ ihl ihr =>
    obtain ⟨hlevel, tighter, hnext, htighter⟩ := level?_of_phrase hrow
    exact .join l ((mem_operators_iff _ _ _).mpr ⟨_, hlevel, hop⟩) hnext (ihl hrow) (ihr htighter)
  | ofTighter _ ih =>
    obtain ⟨-, tighter, hnext, htighter⟩ := level?_of_phrase hrow
    exact .ofTighter hnext (ih htighter)
  | unary l hop _ ih =>
    obtain rfl : row = unary := phrase_injective hrow
    exact .unary l ((mem_unaries_iff _ _).mpr hop) (ih rfl)
  | leading name l₁ l₂ hop =>
    obtain rfl : row = unary := phrase_injective hrow
    exact .leading name l₁ l₂ ((mem_steps_iff _ _).mpr hop)
  | ofStepped _ ih =>
    obtain rfl : row = unary := phrase_injective hrow
    exact .ofTighter rfl (@ih stepped rfl)
  | trailing l hop _ ih =>
    obtain rfl : row = stepped := phrase_injective hrow
    exact .trailing l ((mem_steps_iff _ _).mpr hop) (ih rfl)
  | ofPrimary _ ih =>
    obtain rfl : row = stepped := phrase_injective hrow
    exact .ofTighter rfl (@ih primary rfl)
  | value v l =>
    obtain rfl : row = primary := phrase_injective hrow
    exact .value v l
  | name name l =>
    obtain rfl : row = primary := phrase_injective hrow
    exact .name name l
  | group l₁ l₂ _ ih =>
    obtain rfl : row = primary := phrase_injective hrow
    exact .group l₁ l₂ (@ih assignment rfl)

/-- **Both grammars derive the same.** -/
theorem derives_iff {row : Precedence} {pieces : List Piece} {e : Expr} {n : Nat} :
    row.Derives pieces e n ↔ row.phrase.Derives pieces e n :=
  ⟨Derives.toPhrase, fun h => derives_of_phrase h rfl⟩

end Precedence

/-! ## Whole slices -/

namespace Expr

open Precedence

/-- **Reading a slice is deriving it by the table.** The expression that a slice is read as is
the one that all of its pieces derive in the row of assignments, which has every other row below
it, with at most 64 groups, operators before an operand and assignments around any point of the
derivation and no subtree higher than 512. There is never a second: from whatever pieces, the
table derives at most one expression, with or without the ceilings. -/
theorem parse_iff_derives (tokens : List Token) :
    (∀ e, parse tokens = .ok e ↔ ∃ pieces nesting, Piece.fuse tokens = .ok pieces
      ∧ assignment.Derives pieces e nesting ∧ nesting ≤ 64
      ∧ ∀ t ∈ e.subtrees, t.height ≤ 512)
    ∧ ∀ pieces e₁ e₂ n₁ n₂, assignment.Derives pieces e₁ n₁ → assignment.Derives pieces e₂ n₂ →
      e₁ = e₂ := by
  refine ⟨fun e => ⟨?_, ?_⟩, fun pieces e₁ e₂ n₁ n₂ h₁ h₂ => h₁.toPhrase.unique h₂.toPhrase⟩
  · intro h
    obtain ⟨pieces, nesting, hfuse, hd, hnesting, hheight⟩ := derives_of_parse h
    exact ⟨pieces, nesting, hfuse, derives_iff.mpr hd, hnesting, (e.height_le_iff 512).mp hheight⟩
  · rintro ⟨pieces, nesting, hfuse, hd, hnesting, hheight⟩
    exact parse_of_derives hfuse hd.toPhrase hnesting ((e.height_le_iff 512).mpr hheight)

end Expr

end Lipi
