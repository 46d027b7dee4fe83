/-
Whether a name may be given another value.

A declaration says so once, and the answer stays with the name through the
program, the script and the environment.
-/

set_option autoImplicit false

namespace Lipi

/-- Whether a declared name may be assigned to. -/
inductive Mutability where
  | mutable
  | constant
deriving DecidableEq, Repr, Inhabited

/-- How a listing introduces a declaration. -/
def Mutability.keyword : Mutability → String
  | mutable => "let"
  | constant => "const"

end Lipi
