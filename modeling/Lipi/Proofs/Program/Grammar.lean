/-
The grammar of programs, said without a parser.

`Takes room tokens fragment rest` says that a fragment (a statement, a block, what
follows a branch, or a row of statements) is taken off the front of a row of tokens
and which tokens it leaves. What a fragment leaves is part of the relation because
it is part of the grammar: a value ends where something that cannot belong to it
begins, a choice ends where no other branch follows, and a row of statements goes on
until nothing or a closing brace is left. `room` is the number of blocks that may
still be opened.

Statements may be nothing: a token that begins none is passed over. Apart from that
each constructor is one form of statement, so an induction on the relation has one
case for each form and one for each way a row of statements ends.
-/
import Lipi.Program.Parser

set_option autoImplicit false

namespace Lipi

/-- The kinds of a row of tokens. -/
def Token.kinds (tokens : List Token) : List Token.Kind := tokens.map (·.kind)

theorem Token.kinds_cons (t : Token) (tokens : List Token) :
    kinds (t :: tokens) = t.kind :: kinds tokens := rfl

theorem Token.kinds_append (a b : List Token) : kinds (a ++ b) = kinds a ++ kinds b :=
  List.map_append

/-- The keyword of a declaration. -/
def Mutability.declares : Mutability → Keyword
  | mutable => .letDecl
  | constant => .constDecl

namespace Program

/-! ## Slices -/

/-- A value that is the slice ends where the rest begins. -/
def RunsTo : List Token → List Token → Prop
  | [], rest => ∀ t more, rest = t :: more → endsValue t more = true
  | t :: slice, rest => endsValue t (slice ++ rest) = false ∧ RunsTo slice rest

/-- A slice that closes every parenthesis it opens and `opened` more, in order. -/
def BalancedFrom : Nat → List Token.Kind → Prop
  | opened, [] => opened = 0
  | opened, k :: kinds =>
    if k = .symbol .openParen then BalancedFrom (opened + 1) kinds
    else if k = .symbol .closeParen then ∃ fewer, opened = fewer + 1 ∧ BalancedFrom fewer kinds
    else BalancedFrom opened kinds

/-- A slice in parentheses, with the tokens after it. -/
def group (l₁ l₂ : Location) (slice rest : List Token) : List Token :=
  ⟨.symbol .openParen, l₁⟩ :: (slice ++ ⟨.symbol .closeParen, l₂⟩ :: rest)

/-- The header of a counting loop. -/
def header (l₁ l₂ : Location) (initial condition increment : List Token) : List Token :=
  initial ++ ⟨.symbol .semicolon, l₁⟩ :: (condition ++ ⟨.symbol .semicolon, l₂⟩ :: increment)

/-- A part of the header of a counting loop, which holds no semicolon. -/
def Undivided (part : List Token) : Prop := .symbol .semicolon ∉ Token.kinds part

/-! ## Fragments -/

/-- What is taken off a row of tokens: what one token begins, a block, what follows
a branch, or a row of statements, which in a block ends at a brace. -/
inductive Fragment where
  | statement (s : Option Statement)
  | block (body : List Statement)
  | chain (chain : StatementChain)
  | sequence (inBlock : Bool) (body : List Statement)

/-- The tokens at which a row of statements ends. -/
def Closes (inBlock : Bool) (t : Token) : Prop := inBlock = true ∧ t.kind = .symbol .closeBrace

/-- A token that begins no statement, given what follows it. -/
def Idle (t : Token) (rest : List Token) : Prop :=
  (∀ k, t.kind ≠ .keyword k)
    ∧ ((∃ name, t.kind = .identifier name) → ∀ l more, rest ≠ ⟨.operator .assign, l⟩ :: more)

/-- No branch begins a row of tokens. -/
def NoBranch (tokens : List Token) : Prop :=
  ∀ t more, tokens = t :: more → t.kind ≠ .keyword .elseIfTest ∧ t.kind ≠ .keyword .otherwise

/-- With room for so many blocks, a fragment is taken off the front of a row of tokens, and
these are left. -/
inductive Takes : Nat → List Token → Fragment → List Token → Prop where
  | declare {room : Nat} {value rest : List Token} (l l₁ l₂ : Location) (mutability : Mutability)
      (name : String) (hne : value ≠ []) (hruns : RunsTo value rest) :
      Takes room (⟨.keyword mutability.declares, l⟩ :: ⟨.identifier name, l₁⟩
          :: ⟨.operator .assign, l₂⟩ :: (value ++ rest))
        (.statement (some (.declare l mutability name value))) rest
  | assign {room : Nat} {value rest : List Token} (l l₁ : Location) (name : String)
      (hne : value ≠ []) (hruns : RunsTo value rest) :
      Takes room (⟨.identifier name, l⟩ :: ⟨.operator .assign, l₁⟩ :: (value ++ rest))
        (.statement (some (.assign l name value))) rest
  | output {room : Nat} {value rest : List Token} (l l₁ l₂ : Location) (hne : value ≠ [])
      (hbalanced : BalancedFrom 0 (Token.kinds value)) :
      Takes room (⟨.keyword .print, l⟩ :: group l₁ l₂ value rest)
        (.statement (some (.output l value))) rest
  | choice {room : Nat} {condition ahead mid rest : List Token} {body : List Statement}
      {more : StatementChain} (l l₁ l₂ : Location) (hne : condition ≠ [])
      (hbalanced : BalancedFrom 0 (Token.kinds condition))
      (hbody : Takes room ahead (.block body) mid) (hmore : Takes room mid (.chain more) rest) :
      Takes room (⟨.keyword .ifTest, l⟩ :: group l₁ l₂ condition ahead)
        (.statement (some (.choice l (.test condition body more)))) rest
  | whileLoop {room : Nat} {condition ahead rest : List Token} {body : List Statement}
      (l l₁ l₂ : Location) (hne : condition ≠ [])
      (hbalanced : BalancedFrom 0 (Token.kinds condition))
      (hbody : Takes room ahead (.block body) rest) :
      Takes room (⟨.keyword .whileLoop, l⟩ :: group l₁ l₂ condition ahead)
        (.statement (some (.whileLoop l condition body))) rest
  | forLoop {room : Nat} {initial condition increment ahead rest : List Token}
      {body : List Statement} (l l₁ l₂ l₃ l₄ : Location)
      (hinitial : Undivided initial)
      (hcondition : Undivided condition)
      (hincrement : Undivided increment)
      (hbalanced : BalancedFrom 0 (Token.kinds (header l₃ l₄ initial condition increment)))
      (hbody : Takes room ahead (.block body) rest) :
      Takes room
        (⟨.keyword .forLoop, l⟩ :: group l₁ l₂ (header l₃ l₄ initial condition increment) ahead)
        (.statement (some (.forLoop l initial condition increment body))) rest
  | breakLoop {room : Nat} {rest : List Token} (l : Location) :
      Takes room (⟨.keyword .breakLoop, l⟩ :: rest) (.statement (some (.breakLoop l))) rest
  | continueLoop {room : Nat} {rest : List Token} (l : Location) :
      Takes room (⟨.keyword .continueLoop, l⟩ :: rest) (.statement (some (.continueLoop l))) rest
  | idle {room : Nat} {t : Token} {rest : List Token} (h : Idle t rest) :
      Takes room (t :: rest) (.statement none) rest
  | block {room : Nat} {ahead rest : List Token} {body : List Statement} (l₁ l₂ : Location)
      (hbody : Takes room ahead (.sequence true body) (⟨.symbol .closeBrace, l₂⟩ :: rest)) :
      Takes (room + 1) (⟨.symbol .openBrace, l₁⟩ :: ahead) (.block body) rest
  | elseIf {room : Nat} {condition ahead mid rest : List Token} {body : List Statement}
      {more : StatementChain} (l l₁ l₂ : Location) (hne : condition ≠ [])
      (hbalanced : BalancedFrom 0 (Token.kinds condition))
      (hbody : Takes room ahead (.block body) mid) (hmore : Takes room mid (.chain more) rest) :
      Takes room (⟨.keyword .elseIfTest, l⟩ :: group l₁ l₂ condition ahead)
        (.chain (.test condition body more)) rest
  | otherwise {room : Nat} {ahead rest : List Token} {body : List Statement} (l : Location)
      (hbody : Takes room ahead (.block body) rest) :
      Takes room (⟨.keyword .otherwise, l⟩ :: ahead) (.chain (.otherwise body)) rest
  | noBranch {room : Nat} {rest : List Token} (h : NoBranch rest) :
      Takes room rest (.chain .done) rest
  | nothing {room : Nat} (inBlock : Bool) : Takes room [] (.sequence inBlock []) []
  | brace {room : Nat} {rest : List Token} (l : Location) :
      Takes room (⟨.symbol .closeBrace, l⟩ :: rest) (.sequence true [])
        (⟨.symbol .closeBrace, l⟩ :: rest)
  | next {room : Nat} {t : Token} {ahead mid rest : List Token} {inBlock : Bool}
      {s : Option Statement} {more : List Statement} (hgoes : ¬ Closes inBlock t)
      (hfirst : Takes room (t :: ahead) (.statement s) mid)
      (hmore : Takes room mid (.sequence inBlock more) rest) :
      Takes room (t :: ahead) (.sequence inBlock (s.toList ++ more)) rest

theorem group_append (l₁ l₂ : Location) (slice rest rest' : List Token) :
    group l₁ l₂ slice rest ++ rest' = group l₁ l₂ slice (rest ++ rest') := by
  simp [group]

/-- A semicolon is passed over. -/
theorem Takes.terminated {room : Nat} {tokens rest : List Token} {inBlock : Bool}
    {body : List Statement} (h : Takes room tokens (.sequence inBlock body) rest) (l : Location) :
    Takes room (⟨.symbol .semicolon, l⟩ :: tokens) (.sequence inBlock body) rest := by
  refine .next (s := none) ?_ (.idle ⟨?_, ?_⟩) h
  · rintro ⟨-, he⟩
    cases he
  · rintro k ⟨⟩
  · rintro ⟨name, ⟨⟩⟩

end Program

end Lipi
