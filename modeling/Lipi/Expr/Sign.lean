/-
Signs: operators as an expression sees them.

The scanner reads the longest operator it knows at each place, but the language
has operators that it does not know: `===`, `++` and `+=` come out of it as two or
three tokens. An expression therefore glues operators that stand next to each
other back together, in signs, and cuts the result again by a lexicon of its own,
the longest spelling first. Blanks and comments between operators do not keep
them apart, and the words for and, or and not count as their signs.
-/
import Lipi.Expr
import Lipi.Token

set_option autoImplicit false

namespace Lipi

/-- The operators of expressions (`Punct`). -/
inductive Sign where
  | strictEq
  | strictNe
  | eqEq
  | notEq
  | le
  | ge
  | andAnd
  | orOr
  | plusPlus
  | minusMinus
  | plusEq
  | minusEq
  | starEq
  | slashEq
  | percentEq
  | assign
  | lt
  | gt
  | plus
  | minus
  | star
  | slash
  | percent
  | bang
deriving DecidableEq, Repr, Inhabited

namespace Sign

/-- How a sign is spelled. `spelling` finds it in `PUNCTS` and keeps a question mark for
one that is not listed; all are (`mem_lexicon`). -/
def spelling : Sign → String
  | strictEq => "==="
  | strictNe => "!=="
  | eqEq => "=="
  | notEq => "!="
  | le => "<="
  | ge => ">="
  | andAnd => "&&"
  | orOr => "||"
  | plusPlus => "++"
  | minusMinus => "--"
  | plusEq => "+="
  | minusEq => "-="
  | starEq => "*="
  | slashEq => "/="
  | percentEq => "%="
  | assign => "="
  | lt => "<"
  | gt => ">"
  | plus => "+"
  | minus => "-"
  | star => "*"
  | slash => "/"
  | percent => "%"
  | bang => "!"

/-- Every sign, in the order in which they are tried (`PUNCTS`). -/
def lexicon : List Sign :=
  [strictEq, strictNe, eqEq, notEq, le, ge, andAnd, orOr, plusPlus, minusMinus, plusEq, minusEq,
   starEq, slashEq, percentEq, assign, lt, gt, plus, minus, star, slash, percent, bang]

theorem spelling_length_pos (s : Sign) : 0 < s.spelling.toList.length := by
  cases s <;> decide

/-- The sign at the front of a row of operator characters. -/
def front? (run : List Char) : Option Sign :=
  lexicon.find? fun s => s.spelling.toList.isPrefixOf run

/-- Cuts a row of operator characters into signs, handing on those cut so far in
reverse (`flush_run`). The error is the part that no sign begins. -/
def cut (run : List Char) (read : List Sign) : Except (List Char) (List Sign) :=
  match run with
  | [] => .ok read.reverse
  | c :: rest =>
    match front? (c :: rest) with
    | some s => cut ((c :: rest).drop s.spelling.toList.length) (s :: read)
    | none => .error (c :: rest)
termination_by run.length
decreasing_by
  have := spelling_length_pos s
  simp only [List.length_drop, List.length_cons]
  omega

/-! ## What a sign can be -/

/-- The sign as an operator before an operand (`unary`). -/
def unaryOp? : Sign → Option UnaryOp
  | bang => some .not
  | minus => some .negate
  | plus => some .plus
  | _ => none

/-- The sign as a step of a variable (`update_op`). -/
def updateOp? : Sign → Option UpdateOp
  | plusPlus => some .increment
  | minusMinus => some .decrement
  | _ => none

/-- The sign as an assignment: the binary operator it carries, if any (`compound`). -/
def assignOp? : Sign → Option (Option BinaryOp)
  | assign => some none
  | plusEq => some (some .add)
  | minusEq => some (some .sub)
  | starEq => some (some .mul)
  | slashEq => some (some .div)
  | percentEq => some (some .rem)
  | _ => none

end Sign

/-- The levels of operators between operands, by how tightly they bind. -/
inductive Level where
  | disjunction
  | conjunction
  | equality
  | relation
  | sum
  | product
deriving DecidableEq, Repr, Inhabited

namespace Level

/-- Every level, the loosest first. -/
def all : List Level := [disjunction, conjunction, equality, relation, sum, product]

/-- The operator that a sign is on a level. -/
def operator? : Level → Sign → Option BinaryOp
  | disjunction, .orOr => some .or
  | conjunction, .andAnd => some .and
  | equality, .eqEq => some .eq
  | equality, .notEq => some .ne
  | equality, .strictEq => some .strictEq
  | equality, .strictNe => some .strictNe
  | relation, .lt => some .lt
  | relation, .le => some .le
  | relation, .gt => some .gt
  | relation, .ge => some .ge
  | sum, .plus => some .add
  | sum, .minus => some .sub
  | product, .star => some .mul
  | product, .slash => some .div
  | product, .percent => some .rem
  | _, _ => none

end Level

end Lipi
