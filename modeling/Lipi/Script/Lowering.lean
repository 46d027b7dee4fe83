/-
From programs to scripts.

Each slice of a statement is read as an expression, a loop gets the next guard, and
everything else keeps its shape. The first error ends the work, so the order in
which the parts of a statement are read is part of the result: a loop takes its
guard before anything of it is read, then come its opening, its condition, its
increment and its body; in a chain, each condition comes before its block.

Guards are numbered by a counter that runs along, and the counter outlives an
error: how many guards had been made is known in either case. How many loops stand
around a statement is passed down, and only statements that leave a loop ask.
-/
import Lipi.Expr.Parser
import Lipi.Program
import Lipi.Script

set_option autoImplicit false

namespace Lipi

/-- Lowering counts the guards it has made, and may fail (`Translator`). -/
abbrev Lowering (α : Type) := ExceptT SyntaxError (StateM Nat) α

namespace Lowering

/-- The next guard (`next_guard`). -/
def newGuard : Lowering Guard := modifyGet fun made => (.numbered made, made + 1)

/-- Reads an expression that need not be there (`optional_expression`). -/
def exprOrNone (slice : List Token) : Except SyntaxError (Option Expr) :=
  if slice.isEmpty then .ok none else (Expr.parse slice).map some

/-- Reads the declaration that a counting loop opens with, its keyword given. -/
def openingDeclaration (loop : Location) (mutability : Mutability) (keyword : Token)
    (rest : List Token) : Except SyntaxError Command :=
  match rest with
  | [] => .error ⟨.initialName, keyword.location⟩
  | t :: rest =>
    match t.name? with
    | none => .error ⟨.initialName, keyword.location⟩
    | some name =>
      match rest with
      | sign :: value =>
        if sign.isOperator .assign && !value.isEmpty then
          (Expr.parse value).map (.declare keyword.location mutability name ·)
        else .error ⟨.initialValue name, loop⟩
      | [] => .error ⟨.initialValue name, loop⟩

/-- Reads what a counting loop opens with: a declaration, an expression, or nothing
(`lower_for_init`). -/
def opening (loop : Location) (slice : List Token) : Except SyntaxError (Option Command) :=
  match slice with
  | [] => .ok none
  | first :: rest =>
    if first.isKeyword .letDecl then
      (openingDeclaration loop .mutable first rest).map some
    else if first.isKeyword .constDecl then
      (openingDeclaration loop .constant first rest).map some
    else
      (Expr.parse slice).map fun e => some (.eval first.location e)

/-- A statement that leaves a loop, given how many loops stand around it
(`loop_control`). -/
def leaving (k : Keyword) (command : Command) (loops : Nat) (place : Location) :
    Except SyntaxError Command :=
  if loops = 0 then .error ⟨.outsideLoop k, place⟩ else .ok command

end Lowering

open Lowering

mutual

/-- Lowers a statement inside a number of loops (`lower_statement`). -/
def Statement.lower (loops : Nat) : Statement → Lowering Command
  | .declare place mutability name value => do
    return .declare place mutability name (← Expr.parse value)
  | .assign place name value => do
    return .assign place name (← Expr.parse value)
  | .output place value => do
    return .capture place (← Expr.parseList value)
  | .choice place chain => do
    return .choice place (← chain.lower loops)
  | .whileLoop place condition body => do
    let guard ← newGuard
    let condition ← Expr.parse condition
    let body ← Statement.lowerAll (loops + 1) body
    return .loop ⟨place, .onCondition, guard, some condition, none⟩ none body
  | .forLoop place initial condition increment body => do
    let guard ← newGuard
    let initial ← opening place initial
    let condition ← exprOrNone condition
    let increment ← exprOrNone increment
    let body ← Statement.lowerAll (loops + 1) body
    return .loop ⟨place, .counting, guard, condition, increment⟩ initial body
  | .breakLoop place => leaving .breakLoop .breakLoop loops place
  | .continueLoop place => leaving .continueLoop .continueLoop loops place
termination_by structural s => s

/-- Lowers a chain inside a number of loops. -/
def StatementChain.lower (loops : Nat) : StatementChain → Lowering CommandChain
  | .test condition body rest => do
    let condition ← Expr.parse condition
    let body ← Statement.lowerAll loops body
    return .test condition body (← rest.lower loops)
  | .otherwise body => do
    return .otherwise (← Statement.lowerAll loops body)
  | .done => return .done
termination_by structural c => c

/-- Lowers a row of statements inside a number of loops (`lower_block`). -/
def Statement.lowerAll (loops : Nat) : List Statement → Lowering (List Command)
  | [] => return []
  | s :: rest => do
    let command ← s.lower loops
    return command :: (← Statement.lowerAll loops rest)
termination_by structural ss => ss

end

/-- Lowers a program (`translate`). The number is that of the guards made, also when it
fails. -/
def Program.lower (p : Program) : Except SyntaxError Script × Nat :=
  let (body, made) := (Statement.lowerAll 0 p.body).run.run 0
  (body.map Script.mk, made)

/-- The script of a program. -/
def Program.script (p : Program) : Except SyntaxError Script := p.lower.1

end Lipi
