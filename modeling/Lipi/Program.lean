/-
Programs: statements whose values are still tokens.

The parser of statements decides where each value, condition and argument list
begins and ends, and keeps it as the slice of tokens it found there; reading
the slices as expressions is a later stage. A choice between branches is a chain
of tests, each with its block, that ends in a block for everything else or in
nothing. Blocks are lists of statements; a block opens a scope when it is run,
but the tree knows nothing of names.
-/
import Lipi.Mutability
import Lipi.Token

set_option autoImplicit false

namespace Lipi

mutual

/-- A statement and the place of its first token (`Statement`). -/
inductive Statement where
  | declare (place : Location) (mutability : Mutability) (name : String) (value : List Token)
  | assign (place : Location) (name : String) (value : List Token)
  | output (place : Location) (value : List Token)
  | choice (place : Location) (chain : StatementChain)
  | whileLoop (place : Location) (condition : List Token) (body : List Statement)
  | forLoop (place : Location) (initial condition increment : List Token) (body : List Statement)
  | breakLoop (place : Location)
  | continueLoop (place : Location)

/-- Tests with their blocks, and what is left when none holds (`Branch`). -/
inductive StatementChain where
  | test (condition : List Token) (body : List Statement) (rest : StatementChain)
  | otherwise (body : List Statement)
  | done

end

/-- What stands between the skeleton's words (`Program`). -/
structure Program where
  body : List Statement

/-- The place of a statement's first token (`location`). -/
def Statement.place : Statement → Location
  | declare place _ _ _ => place
  | assign place _ _ => place
  | output place _ => place
  | choice place _ => place
  | whileLoop place _ _ => place
  | forLoop place _ _ _ _ => place
  | breakLoop place => place
  | continueLoop place => place

end Lipi
