/-
From tokens to a program.

    program   := arambha systummm statement* bihari_sramik
    statement := (ghoshit_kar | nishchit_kar) name = value | name = value
               | prakashit_kar ( tokens ) | viram | agla_ghaatak
               | yadi ( tokens ) block (anyatha_yadi ( tokens ) block)* (anyatha block)?
               | yatha ( tokens ) block | prati_ghatak ( tokens ; tokens ; tokens ) block
    block     := { statement* }

A value runs up to the next keyword, the next semicolon, or the next name that is
followed by `=`; tokens between parentheses run up to the one that closes them. A
token that cannot begin a statement is passed over without complaint, and so is a
name that no `=` follows; that is how semicolons end statements without belonging
to any.

Tokens are taken from the front and never looked at again, so each reader answers
with what is left and a proof that it is no longer than what it was given. A reader
of a statement is handed the token that begins it, so the places and names that would
stand in for a missing one (`unwrap_or`, `unwrap_or_default`) are never needed and do
not appear. The lists of statements are read by a loop on that length. Blocks lead
back to statements; at most `nestingLimit` of them may be open, and the grammar is
tied by recursion on the room left for them.
-/
import Lipi.Program
import Lipi.SyntaxError

set_option autoImplicit false

namespace Lipi

/-- The tokens ahead, and the place of the last one taken (`Parser`). -/
structure TokenCursor where
  ahead : List Token
  behind : Location
deriving Repr

namespace TokenCursor

/-- The front of a row of tokens. -/
def ofTokens (tokens : List Token) : TokenCursor := ⟨tokens, .nowhere⟩

/-- How many tokens are ahead. -/
def length (c : TokenCursor) : Nat := c.ahead.length

end TokenCursor

namespace Program

/-! ## Demands -/

/-- Something read from the front of the tokens, with no more left than a bound. -/
structure Read (α : Type) (bound : Nat) where
  item : α
  rest : TokenCursor
  within : rest.length ≤ bound

/-- The same reading under a weaker bound. -/
def Read.weaken {α : Type} {m n : Nat} (r : Read α m) (h : m ≤ n) : Read α n :=
  ⟨r.item, r.rest, Nat.le_trans r.within h⟩

/-- Takes a particular token, which must come next. `expect_with` has one error more,
without a place, for a token that was seen and cannot be taken; it is never given
(`expectWith_eq`) and left out here. -/
def expect (kind : Token.Kind) (purpose : SyntaxError.Purpose) (c : TokenCursor) :
    Except SyntaxError (Read Token (c.length - 1)) :=
  match h : c.ahead with
  | [] => .error ⟨.expected kind purpose none, c.behind⟩
  | t :: rest =>
    if t.kind = kind then
      .ok ⟨t, ⟨rest, t.location⟩, by simp [TokenCursor.length, h]⟩
    else .error ⟨.expected kind purpose (some t.kind), t.location⟩

/-- Takes a name, which must come next (`expect_identifier`). -/
def expectName (c : TokenCursor) : Except SyntaxError (Read String (c.length - 1)) :=
  match h : c.ahead with
  | [] => .error ⟨.expectedName none, c.behind⟩
  | t :: rest =>
    match t.name? with
    | some name => .ok ⟨name, ⟨rest, t.location⟩, by simp [TokenCursor.length, h]⟩
    | none => .error ⟨.expectedName (some t.kind), t.location⟩

/-! ## Slices -/

/-- Whether a value ends before a token, given what follows the token
(`expression_run`). -/
def endsValue (t : Token) (rest : List Token) : Bool :=
  t.isAnyKeyword || t.isSymbol .semicolon
    || (t.name?.isSome && rest.head?.any (·.isOperator .assign))

/-- Takes the tokens of a value; those before are handed on in reverse (the loop of
`expression_run`). -/
def valueFrom {bound : Nat} (c : TokenCursor) (h : c.length ≤ bound) (read : List Token) :
    Read (List Token) bound :=
  match hc : c.ahead with
  | [] => ⟨read.reverse, c, h⟩
  | t :: rest =>
    if endsValue t rest then ⟨read.reverse, c, h⟩
    else
      valueFrom ⟨rest, t.location⟩
        (by simp only [TokenCursor.length, hc, List.length_cons] at h ⊢; omega) (t :: read)
termination_by c.ahead.length
decreasing_by simp [hc]

/-- Takes the tokens of a value (`expression_run`). -/
def value (c : TokenCursor) : Read (List Token) c.length :=
  valueFrom c (Nat.le_refl _) []

/-- Takes the tokens up to the parenthesis that closes one already taken, with the
number of parentheses opened since and not closed yet (`parenthesized_content`).
Nothing is taken when there is no such parenthesis. -/
def closingFrom {bound : Nat} : (ahead : List Token) → ahead.length ≤ bound → (opened : Nat) →
    (read : List Token) → Option (Read (List Token) (bound - 1))
  | [], _, _, _ => none
  | t :: rest, h, opened, read =>
    have hr : rest.length ≤ bound := by simp only [List.length_cons] at h; omega
    if t.isSymbol .openParen then closingFrom rest hr (opened + 1) (t :: read)
    else if t.isSymbol .closeParen then
      match opened with
      | 0 => some ⟨read.reverse, ⟨rest, t.location⟩, by
          simp only [TokenCursor.length, List.length_cons] at h ⊢; omega⟩
      | opened + 1 => closingFrom rest hr opened (t :: read)
    else closingFrom rest hr opened (t :: read)

/-- Takes a parenthesis and the tokens up to the one that closes it, or fails with a
given error when none does. -/
def parenthesized (unclosed : SyntaxError) (c : TokenCursor) :
    Except SyntaxError (Read (List Token) (c.length - 1)) := do
  let opening ← expect (.symbol .openParen) .plain c
  match closingFrom opening.rest.ahead opening.within 0 [] with
  | some slice => .ok (slice.weaken (Nat.sub_le _ _))
  | none => .error unclosed

/-! ## Simple statements -/

/-- A declaration whose keyword has been taken (`parse_declaration`). -/
def declaration (mutability : Mutability) (place : Location) (c : TokenCursor) :
    Except SyntaxError (Read Statement c.length) := do
  let name ← expectName c
  let sign ← expect (.operator .assign) (.declaration name.item) name.rest
  let slice := value sign.rest
  if slice.item.isEmpty then
    .error ⟨.missingValue .declaration name.item, slice.rest.behind⟩
  else
    .ok ⟨.declare place mutability name.item slice.item, slice.rest, by
      have := name.within; have := sign.within; have := slice.within; omega⟩

/-- What a name begins: an assignment if `=` follows, otherwise nothing, and then only
the name has been taken (`parse_assignment`). -/
def assignment (name : String) (place : Location) (c : TokenCursor) :
    Except SyntaxError (Read (Option Statement) c.length) :=
  match h : c.ahead with
  | t :: rest =>
    if t.isOperator .assign then
      let slice := value ⟨rest, t.location⟩
      if slice.item.isEmpty then .error ⟨.missingValue .assignment name, slice.rest.behind⟩
      else
        .ok ⟨some (.assign place name slice.item), slice.rest, by
          have := slice.within
          simp only [TokenCursor.length, h, List.length_cons] at this ⊢
          omega⟩
    else .ok ⟨none, c, Nat.le_refl _⟩
  | [] => .ok ⟨none, c, Nat.le_refl _⟩

/-- A print whose keyword has been taken (`parse_print`). -/
def print (place : Location) (c : TokenCursor) :
    Except SyntaxError (Read Statement c.length) := do
  let slice ← parenthesized ⟨.unclosedPrint, place⟩ c
  if slice.item.isEmpty then .error ⟨.emptyPrint, place⟩
  else .ok ⟨.output place slice.item, slice.rest, Nat.le_trans slice.within (Nat.sub_le _ _)⟩

/-! ## Statements with blocks -/

/-- Reads one block. -/
abbrev BlockReader := (c : TokenCursor) → Except SyntaxError (Read (List Statement) c.length)

/-- Reads what one token begins, given the cursor after the token. Nothing need
come of it. -/
abbrev StatementReader :=
  (first : Token) → (c : TokenCursor) → Except SyntaxError (Read (Option Statement) c.length)

/-- A test in parentheses that must not be empty. -/
def test (k : Keyword) (unclosed : SyntaxError.Cause) (place : Location) (c : TokenCursor) :
    Except SyntaxError (Read (List Token) (c.length - 1)) := do
  let slice ← parenthesized ⟨unclosed, place⟩ c
  if slice.item.isEmpty then .error ⟨.emptyTest k, place⟩ else .ok slice

/-- A loop on a condition, its keyword taken (`parse_while`). -/
def whileLoop (block : BlockReader) (place : Location) (c : TokenCursor) :
    Except SyntaxError (Read Statement c.length) := do
  let condition ← test .whileLoop .unclosedLoopHeader place c
  let body ← block condition.rest
  .ok ⟨.whileLoop place condition.item body.item, body.rest, by
    have := condition.within; have := body.within; omega⟩

/-- Cuts a header at its semicolons, whatever parentheses they stand in (`parse_for`). -/
def headerParts (header : List Token) : List (List Token) :=
  header.splitOnP (·.isSymbol .semicolon)

/-- A counting loop, its keyword taken (`parse_for`). The semicolons of its header are
counted before its block is read. -/
def forLoop (block : BlockReader) (place : Location) (c : TokenCursor) :
    Except SyntaxError (Read Statement c.length) := do
  let header ← parenthesized ⟨.unclosedLoopHeader, place⟩ c
  match headerParts header.item with
  | [initial, condition, increment] =>
    let body ← block header.rest
    .ok ⟨.forLoop place initial condition increment body.item, body.rest, by
      have := header.within; have := body.within; omega⟩
  | parts => .error ⟨.headerSemicolons (parts.length - 1), place⟩

/-- One test and its block, the keyword taken (`parse_branch`). -/
def branch (block : BlockReader) (k : Keyword) (place : Location) (c : TokenCursor) :
    Except SyntaxError (Read (List Token × List Statement) c.length) := do
  let condition ← test k (.unclosedTest k) place c
  let body ← block condition.rest
  .ok ⟨(condition.item, body.item), body.rest, by
    have := condition.within; have := body.within; omega⟩

/-- What may follow a branch: more tests, a last block, or nothing of the kind (the loop
of `parse_if`). -/
def chainFrom (block : BlockReader) (c : TokenCursor) :
    Except SyntaxError (Read StatementChain c.length) :=
  match h : c.ahead with
  | [] => .ok ⟨.done, c, Nat.le_refl _⟩
  | t :: rest =>
    have hr : (TokenCursor.mk rest t.location).length ≤ c.length := by
      simp [TokenCursor.length, h]
    if t.isKeyword .elseIfTest then do
      let first ← branch block .elseIfTest t.location ⟨rest, t.location⟩
      let more ← chainFrom block first.rest
      .ok ⟨.test first.item.1 first.item.2 more.item, more.rest, by
        have := first.within; have := more.within; omega⟩
    else if t.isKeyword .otherwise then do
      let body ← block ⟨rest, t.location⟩
      .ok ⟨.otherwise body.item, body.rest, Nat.le_trans body.within hr⟩
    else .ok ⟨.done, c, Nat.le_refl _⟩
termination_by c.ahead.length
decreasing_by
  have := first.within
  simp only [TokenCursor.length, h, List.length_cons] at this ⊢
  omega

/-- A choice, its keyword taken (`parse_if`). -/
def choice (block : BlockReader) (place : Location) (c : TokenCursor) :
    Except SyntaxError (Read Statement c.length) := do
  let first ← branch block .ifTest place c
  let more ← chainFrom block first.rest
  .ok ⟨.choice place (.test first.item.1 first.item.2 more.item), more.rest, by
    have := first.within; have := more.within; omega⟩

/-- A reading of a statement as one of perhaps a statement. -/
def present {bound : Nat} (r : Read Statement bound) : Read (Option Statement) bound :=
  ⟨some r.item, r.rest, r.within⟩

/-- What one token begins (`parse_statement`). -/
def statement (block : BlockReader) : StatementReader := fun first c =>
  let place := first.location
  match first.kind with
  | .keyword .letDecl => (declaration .mutable place c).map present
  | .keyword .constDecl => (declaration .constant place c).map present
  | .keyword .print => (print place c).map present
  | .keyword .whileLoop => (whileLoop block place c).map present
  | .keyword .forLoop => (forLoop block place c).map present
  | .keyword .ifTest => (choice block place c).map present
  | .keyword .breakLoop => .ok ⟨some (.breakLoop place), c, Nat.le_refl _⟩
  | .keyword .continueLoop => .ok ⟨some (.continueLoop place), c, Nat.le_refl _⟩
  | .keyword .elseIfTest => .error ⟨.strayBranch .elseIfTest, place⟩
  | .keyword .otherwise => .error ⟨.strayBranch .otherwise, place⟩
  | .keyword k => .error ⟨.repeatedSkeleton k, place⟩
  | .identifier name => assignment name place c
  | _ => .ok ⟨none, c, Nat.le_refl _⟩

/-- Reads statements up to a token that stops them, or to the end; those before
are handed on in reverse (the loop of `parse_program` and of `parse_block`). -/
def statementsFrom (reader : StatementReader) (stop : Token → Bool) {bound : Nat} (c : TokenCursor)
    (h : c.length ≤ bound) (read : List Statement) :
    Except SyntaxError (Read (List Statement) bound) :=
  match hc : c.ahead with
  | [] => .ok ⟨read.reverse, c, h⟩
  | t :: rest =>
    if stop t then .ok ⟨read.reverse, c, h⟩
    else do
      let next ← reader t ⟨rest, t.location⟩
      have hn : next.rest.length ≤ (TokenCursor.mk rest t.location).length := next.within
      statementsFrom reader stop next.rest
        (by simp only [TokenCursor.length, hc, List.length_cons] at h hn ⊢; omega)
        (next.item.toList ++ read)
termination_by c.ahead.length
decreasing_by
  simp only [TokenCursor.length] at hn
  simp only [hc, List.length_cons]
  omega

/-- A block with a given room for blocks, itself included (`parse_block`). -/
def block : Nat → BlockReader
  | room, c => do
    let opening ← expect (.symbol .openBrace) .plain c
    match room with
    | 0 => .error ⟨.blocksTooDeep, opening.item.location⟩
    | room + 1 =>
      let body ← statementsFrom (statement (block room)) (·.isSymbol .closeBrace) opening.rest
        opening.within []
      match hb : body.rest.ahead with
      | [] => .error ⟨.unclosedBlock opening.item.location, body.rest.behind⟩
      | t :: rest =>
        .ok ⟨body.item, ⟨rest, t.location⟩, by
          have := body.within
          simp only [TokenCursor.length, hb, List.length_cons] at this ⊢
          omega⟩

/-! ## Programs -/

/-- Takes the closing word off the end of what follows the opening words, before any
statement is read (`parse_program`). -/
def unframed (c : TokenCursor) : Except SyntaxError TokenCursor :=
  match c.ahead.getLast? with
  | none => .error ⟨.missingFinish none, c.behind⟩
  | some last =>
    if last.isKeyword .finish then .ok ⟨c.ahead.dropLast, c.behind⟩
    else .error ⟨.missingFinish (some last.kind), last.location⟩

/-- Reads a row of tokens as a program (`parse_program`). -/
def parse (tokens : List Token) : Except SyntaxError Program := do
  let start ← expect (.keyword .start) .programStart (.ofTokens tokens)
  let main ← expect (.keyword .main) .programMain start.rest
  let inside ← unframed main.rest
  let body ← statementsFrom (statement (block nestingLimit)) (fun _ => false) inside
    (Nat.le_refl _) []
  return ⟨body.item⟩

end Program

end Lipi
