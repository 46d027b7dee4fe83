/-
The gallery of sample programs.

Ten short programs, each showing one thing the language can do, from the bare
skeleton to a tour of everything. They are kept as lines, and a source text ends
each of its lines with a line feed. Samples are counted from one when someone asks
for a sample by its number, and their order is the order in which the playground
goes through them.
-/

set_option autoImplicit false

namespace Lipi

/-- A sample program (`Sample`). -/
structure Sample where
  title : String
  description : String
  lines : List String
deriving DecidableEq, Repr

namespace Sample

/-- The source text of a sample. -/
def source (s : Sample) : String := String.join (s.lines.map (· ++ "\n"))

/-- Nothing but the skeleton. -/
def skeleton : Sample where
  title := "Basic Structure"
  description := "Every program opens with arambha systummm and closes with bihari_sramik."
  lines := [
    "arambha systummm",
    "",
    "// statements go here",
    "",
    "bihari_sramik"]

/-- Declarations and an assignment. -/
def declarations : Sample where
  title := "Variables"
  description := "ghoshit_kar declares a variable, nishchit_kar a constant."
  lines := [
    "arambha systummm",
    "",
    "ghoshit_kar umra = 20;",
    "nishchit_kar naam = \"Ayush\";",
    "umra = umra + 1;",
    "prakashit_kar(naam, umra);",
    "",
    "bihari_sramik"]

/-- Both kinds of comment. -/
def comments : Sample where
  title := "Comments"
  description := "Line comments start with //, block comments sit between /* and */."
  lines := [
    "arambha systummm",
    "",
    "// a line comment",
    "",
    "/*",
    "  a block comment",
    "  spanning lines",
    "*/",
    "",
    "bihari_sramik"]

/-- Prints of one argument and of two. -/
def printing : Sample where
  title := "Print Statement"
  description := "prakashit_kar prints its arguments separated by spaces."
  lines := [
    "arambha systummm",
    "",
    "prakashit_kar(\"Namaste Duniya!\");",
    "ghoshit_kar naam = \"Ayush\";",
    "prakashit_kar(\"Naam:\", naam);",
    "",
    "bihari_sramik"]

/-- Every kind of value. -/
def kindsOfValues : Sample where
  title := "Data Types"
  description := "Numbers, strings, satya/asatya booleans and chintan (null)."
  lines := [
    "arambha systummm",
    "",
    "ghoshit_kar sankhya = 10;",
    "ghoshit_kar dashamlav = 2.5;",
    "ghoshit_kar naam = \"Bihari Dev\";",
    "ghoshit_kar satyaHai = satya;",
    "ghoshit_kar kuchNahi = chintan;",
    "",
    "prakashit_kar(naam);",
    "prakashit_kar(sankhya + dashamlav);",
    "prakashit_kar(satyaHai, kuchNahi);",
    "",
    "bihari_sramik"]

/-- A chain of branches. -/
def branches : Sample where
  title := "If-Else"
  description := "yadi, anyatha_yadi and anyatha pick exactly one branch."
  lines := [
    "arambha systummm",
    "",
    "ghoshit_kar aayu = 18;",
    "",
    "yadi (aayu > 60) \x7b",
    "  prakashit_kar(\"Senior\");",
    "\x7d anyatha_yadi (aayu >= 18) \x7b",
    "  prakashit_kar(\"Aap vote de sakte hain\");",
    "\x7d anyatha \x7b",
    "  prakashit_kar(\"Abhi nahi\");",
    "\x7d",
    "",
    "bihari_sramik"]

/-- A counting loop. -/
def countingLoop : Sample where
  title := "For Loop"
  description := "prati_ghatak takes an initializer, a condition and an increment."
  lines := [
    "arambha systummm",
    "",
    "prati_ghatak (ghoshit_kar i = 0; i < 5; i = i + 1) \x7b",
    "  prakashit_kar(\"Sankhya: \" + i);",
    "\x7d",
    "",
    "bihari_sramik"]

/-- A loop on a condition, left early and cut short. -/
def conditionLoop : Sample where
  title := "While Loop + Control"
  description := "yatha loops while its condition holds; viram breaks, agla_ghaatak skips ahead."
  lines := [
    "arambha systummm",
    "",
    "ghoshit_kar i = 0;",
    "",
    "yatha (i < 10) \x7b",
    "  i = i + 1;",
    "",
    "  yadi (i == 3) \x7b",
    "    agla_ghaatak;",
    "  \x7d",
    "",
    "  yadi (i == 8) \x7b",
    "    viram;",
    "  \x7d",
    "",
    "  prakashit_kar(i);",
    "\x7d",
    "",
    "bihari_sramik"]

/-- Arithmetic, comparison and the operators that are words. -/
def operators : Sample where
  title := "Operators"
  description := "Arithmetic, comparison and the word operators ca, va and na."
  lines := [
    "arambha systummm",
    "",
    "ghoshit_kar a = 10;",
    "ghoshit_kar b = 20;",
    "",
    "prakashit_kar(a + b, b - a, a * b, b / a, b % 3);",
    "prakashit_kar(a == b, a != b, a < b);",
    "prakashit_kar(satya ca asatya, satya va asatya, na satya);",
    "",
    "bihari_sramik"]

/-- Everything together. -/
def tour : Sample where
  title := "Tour"
  description := "Declarations, an if chain, both loop forms and loop control together."
  lines := [
    "arambha systummm",
    "",
    "ghoshit_kar a = 10;",
    "a = 20;",
    "nishchit_kar b = 20;",
    "",
    "yadi (a > b) \x7b",
    "  prakashit_kar(\"a is greater than b\");",
    "\x7d anyatha_yadi (a == b) \x7b",
    "  prakashit_kar(\"a is equal to b\");",
    "\x7d anyatha \x7b",
    "  prakashit_kar(\"a is less than b\");",
    "\x7d",
    "",
    "prati_ghatak (ghoshit_kar i = 0; i < 5; i++) \x7b",
    "  prakashit_kar(\"Loop count:\", i);",
    "  yadi (i == 2) \x7b",
    "    viram;",
    "  \x7d",
    "\x7d",
    "",
    "a = 12;",
    "yatha (a < b) \x7b",
    "  a = a + 1;",
    "  yadi (a == 15) \x7b",
    "    agla_ghaatak;",
    "  \x7d",
    "  yadi (a >= 18) \x7b",
    "    viram;",
    "  \x7d",
    "  prakashit_kar(\"Inside while loop, a =\", a);",
    "\x7d",
    "",
    "prakashit_kar(\"Final value of a:\", a);",
    "",
    "bihari_sramik"]

/-- Every sample, in order (`SAMPLES`). -/
def all : List Sample :=
  [skeleton, declarations, comments, printing, kindsOfValues, branches, countingLoop, conditionLoop,
    operators, tour]

/-- The sample at a place in the order, counted from zero. -/
def at? (index : Nat) : Option Sample := all[index]?

/-- The sample of a number, counted from one (`by_number`). -/
def numbered? : Nat → Option Sample
  | 0 => none
  | n + 1 => at? n

end Sample

end Lipi
