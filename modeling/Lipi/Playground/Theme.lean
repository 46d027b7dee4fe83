/-
How the playground looks.

Everything the playground shows plays a role, and the role alone decides how it is
drawn. Roles are finer than colours: two of them may look alike, and the functions
that hand out roles need not know.
-/

set_option autoImplicit false

namespace Lipi.Playground

/-- A colour by its three parts, each below 256. -/
structure Colour where
  red : Nat
  green : Nat
  blue : Nat
deriving DecidableEq, Repr

/-- What a style adds to a colour. -/
inductive Emphasis where
  | plain
  | bold
  | italic
deriving DecidableEq, Repr

/-- How something is drawn. -/
structure Style where
  colour : Colour
  emphasis : Emphasis
deriving DecidableEq, Repr

/-- What something on the screen is. -/
inductive Role where
  | comment
  | text
  | number
  /-- A keyword that frames a program. -/
  | skeleton
  | keyword
  /-- A word that stands for a value. -/
  | literal
  | wordOperator
  | name
  | bracket
  | other
  /-- A line of output that reports a failure. -/
  | complaint
  /-- Any other line of output. -/
  | output
deriving DecidableEq, Repr

namespace Colour

/-- Two hexadecimal digits. -/
def hexPair (n : Nat) : List Char := [Nat.digitChar (n / 16 % 16), Nat.digitChar (n % 16)]

/-- A colour as a hash sign and six hexadecimal digits. -/
def hex (c : Colour) : String :=
  String.ofList ('#' :: (hexPair c.red ++ hexPair c.green ++ hexPair c.blue))

/-! ## The palette -/

/-- The colour of what needs no colour. -/
def pale : Colour := ⟨205, 214, 244⟩

def sky : Colour := ⟨137, 180, 250⟩

def peach : Colour := ⟨250, 179, 135⟩

def slate : Colour := ⟨108, 112, 134⟩

def leaf : Colour := ⟨166, 227, 161⟩

def rose : Colour := ⟨243, 139, 168⟩

def mauve : Colour := ⟨203, 166, 247⟩

def teal : Colour := ⟨148, 226, 213⟩

end Colour

/-- The name of an emphasis, empty if there is none. -/
def Emphasis.name : Emphasis → String
  | plain => ""
  | bold => "bold"
  | italic => "italic"

/-- How a role is drawn. -/
def Role.style : Role → Style
  | comment => ⟨.slate, .plain⟩
  | text => ⟨.leaf, .plain⟩
  | number => ⟨.peach, .plain⟩
  | skeleton => ⟨.mauve, .bold⟩
  | keyword => ⟨.sky, .bold⟩
  | literal => ⟨.teal, .plain⟩
  | wordOperator => ⟨.peach, .italic⟩
  | name => ⟨.pale, .plain⟩
  | bracket => ⟨.sky, .plain⟩
  | other => ⟨.pale, .plain⟩
  | complaint => ⟨.rose, .plain⟩
  | output => ⟨.pale, .plain⟩

end Lipi.Playground
