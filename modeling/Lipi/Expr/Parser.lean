/-
From pieces to expressions.

The grammar, loosest first, is

    expression := name (= | += | -= | *= | /= | %=) expression | level 1
    level i    := level (i+1) (sign of level i, level (i+1))*        for the six levels
    operand    := (! | - | +) operand | (++ | --) name | primary (++ | --)?
    primary    := value | name | ( expression )

and each nonterminal is a `Reader`, a function from a cursor over the pieces to a
node and the cursor after it. A reader always takes at least one piece, which its
answer carries as a proof; that alone makes the loop over a level's operands end.
Groups, operators before an operand and assignments lead back to the top of the
grammar, and only so many of them may be open at once. So the grammar is tied by
recursion on the room that is left for them (`descent`): with no room the way back
refuses, with room for one more it is the grammar built over one less.
Nothing is assumed about the input, and no reader can loop.

Along with its expression a node carries the height of its tree, counted as it is
built; a tree higher than a limit is refused at the last piece read. Both ceilings are
parameters of the readers. Only `Reader.top` sets them, to `nestingLimit` and
`heightLimit`, so what the readers accept can also be compared between ceilings.
-/
import Lipi.Expr.Fusion

set_option autoImplicit false

namespace Lipi

/-! ## Cursors and nodes -/

/-- A place among pieces: those ahead, the place of the last one behind, and the
place to report when nothing is ahead (`ExprParser`). -/
structure Cursor where
  ahead : List Piece
  behind : Location
  finish : Location
deriving Repr

namespace Cursor

/-- The front of the pieces of a slice. Until one has been read, the place behind
is that of the first. -/
def ofPieces (pieces : List Piece) (finish : Location) : Cursor :=
  ⟨pieces, (pieces.head?.map (·.location)).getD finish, finish⟩

/-- The place ahead: that of the next piece, or of the end of the slice (`error_here`). -/
def here (c : Cursor) : Location := (c.ahead.head?.map (·.location)).getD c.finish

/-- Past a piece, given what follows it. -/
def past (c : Cursor) (piece : Piece) (rest : List Piece) : Cursor :=
  ⟨rest, piece.location, c.finish⟩

end Cursor

/-- An expression and the height of its tree (`Node`). -/
structure Node where
  expr : Expr
  depth : Nat
deriving Repr

namespace Node

/-- A node without parts. -/
def leaf (e : Expr) : Node := ⟨e, 1⟩

/-- A node of a given height, refused at the last piece read when it is higher than a
limit (`checked_depth`). -/
def checked (limit : Nat) (e : Expr) (depth : Nat) (c : Cursor) : Except SyntaxError Node :=
  if limit < depth then .error ⟨.treeTooHigh, c.behind⟩ else .ok ⟨e, depth⟩

end Node

/-- A node read at a cursor, and the cursor after it, with less ahead. -/
structure Reading (c : Cursor) where
  node : Node
  rest : Cursor
  shorter : rest.ahead.length < c.ahead.length

/-- A nonterminal of the grammar. -/
abbrev Reader := (c : Cursor) → Except SyntaxError (Reading c)

namespace Reader

/-! ## Levels -/

/-- The operator of a level that stands ahead, and the cursor after it. -/
def levelOperator? (level : Level) (c : Cursor) :
    Option (BinaryOp × { c' : Cursor // c'.ahead.length < c.ahead.length }) :=
  match h : c.ahead with
  | ⟨.sign s, l⟩ :: rest =>
    (level.operator? s).map fun op => (op, ⟨c.past ⟨.sign s, l⟩ rest, by simp [Cursor.past]⟩)
  | _ => none

/-- Goes on after the first operand of a level: as long as one of its operators
stands ahead, another operand is read and joined to the left (`join`). -/
def chainFrom (limit : Nat) (level : Level) (tighter : Reader) (left : Node) (c : Cursor) :
    Except SyntaxError (Node × { c' : Cursor // c'.ahead.length ≤ c.ahead.length }) :=
  match levelOperator? level c with
  | none => .ok (left, ⟨c, Nat.le_refl _⟩)
  | some (op, ⟨c₁, h₁⟩) =>
    match tighter c₁ with
    | .error e => .error e
    | .ok ⟨right, c₂, h₂⟩ =>
      match Node.checked limit (.binary op left.expr right.expr)
          (max left.depth right.depth + 1) c₂ with
      | .error e => .error e
      | .ok joined =>
        match chainFrom limit level tighter joined c₂ with
        | .error e => .error e
        | .ok (node, ⟨c₃, h₃⟩) => .ok (node, ⟨c₃, by omega⟩)
termination_by c.ahead.length
decreasing_by omega

/-- Operands of one level, joined to the left by its operators (`logical_or`,
`logical_and`, `equality`, `relational`, `additive` and `term`, each for its own level). -/
def chain (limit : Nat) (level : Level) (tighter : Reader) : Reader := fun c =>
  match tighter c with
  | .error e => .error e
  | .ok ⟨first, c₁, h₁⟩ =>
    match chainFrom limit level tighter first c₁ with
    | .error e => .error e
    | .ok (node, ⟨c₂, h₂⟩) => .ok ⟨node, c₂, by omega⟩

/-- The levels from a list, the loosest first, over an operand. -/
def levels (limit : Nat) (operand : Reader) : List Level → Reader
  | [] => operand
  | level :: tighter => chain limit level (levels limit operand tighter)

/-! ## Operands -/

/-- A value, a name or a group (`primary`). -/
def primary (expression : Reader) : Reader := fun c =>
  match h : c.ahead with
  | [] => .error ⟨.missingOperand, c.finish⟩
  | p :: rest =>
    have shorter : (c.past p rest).ahead.length < c.ahead.length := by simp [Cursor.past, h]
    match p.kind with
    | .value v => .ok ⟨.leaf (.literal v), c.past p rest, shorter⟩
    | .name n => .ok ⟨.leaf (.var n), c.past p rest, shorter⟩
    | .openParen =>
      match expression (c.past p rest) with
      | .error e => .error e
      | .ok ⟨node, c₁, h₁⟩ =>
        match hc : c₁.ahead with
        | ⟨.closeParen, l⟩ :: after =>
          .ok ⟨node, c₁.past ⟨.closeParen, l⟩ after, by
            simp only [hc, List.length_cons] at h₁
            simp only [Cursor.past] at h₁ shorter ⊢
            omega⟩
        | _ => .error ⟨.unclosedGroup, c₁.here⟩
    | found => .error ⟨.noOperand found, p.location⟩

/-- A primary, and a step of it if it is a name and a step follows (`postfix`). -/
def stepped (expression : Reader) : Reader := fun c =>
  match primary expression c with
  | .error e => .error e
  | .ok ⟨node, c₁, h₁⟩ =>
    match hc : c₁.ahead with
    | ⟨.sign s, l⟩ :: rest =>
      match s.updateOp? with
      | none => .ok ⟨node, c₁, h₁⟩
      | some op =>
        match node.expr with
        | .var name =>
          .ok ⟨.leaf (.update name op false), c₁.past ⟨.sign s, l⟩ rest, by
            simp only [hc, List.length_cons] at h₁
            simp only [Cursor.past]
            omega⟩
        | _ => .error ⟨.noNameSteps s, l⟩
    | _ => .ok ⟨node, c₁, h₁⟩

/-- The name that a leading step demands (`update_target`). -/
def steppedName (s : Sign) (op : UpdateOp) : Reader := fun c =>
  match h : c.ahead with
  | ⟨.name n, l⟩ :: rest =>
    .ok ⟨.leaf (.update n op true), c.past ⟨.name n, l⟩ rest, by simp [Cursor.past, h]⟩
  | _ => .error ⟨.stepsNoName s, c.here⟩

/-- An operand with the operators before it (`unary`). -/
def operand (limit : Nat) (expression inner : Reader) : Reader := fun c =>
  match h : c.ahead with
  | ⟨.sign s, l⟩ :: rest =>
    have shorter : (c.past ⟨.sign s, l⟩ rest).ahead.length < c.ahead.length := by
      simp [Cursor.past, h]
    match s.unaryOp? with
    | some op =>
      match inner (c.past ⟨.sign s, l⟩ rest) with
      | .error e => .error e
      | .ok ⟨node, c₁, h₁⟩ =>
        match Node.checked limit (.unary op node.expr) (node.depth + 1) c₁ with
        | .error e => .error e
        | .ok whole => .ok ⟨whole, c₁, by omega⟩
    | none =>
      match s.updateOp? with
      | some op =>
        match steppedName s op (c.past ⟨.sign s, l⟩ rest) with
        | .error e => .error e
        | .ok ⟨node, c₁, h₁⟩ => .ok ⟨node, c₁, by omega⟩
      | none => stepped expression c
  | _ => stepped expression c

/-! ## Expressions -/

/-- An assignment, or the loosest level (`assignment`). -/
def expression (limit : Nat) (inner innerOperand : Reader) : Reader := fun c =>
  match h : c.ahead with
  | ⟨.name name, _⟩ :: ⟨.sign s, l⟩ :: rest =>
    match s.assignOp? with
    | some op =>
      match inner (c.past ⟨.sign s, l⟩ rest) with
      | .error e => .error e
      | .ok ⟨value, c₁, h₁⟩ =>
        match Node.checked limit (.assign name op value.expr) (value.depth + 1) c₁ with
        | .error e => .error e
        | .ok whole => .ok ⟨whole, c₁, by
            simp only [Cursor.past] at h₁
            simp only [h, List.length_cons]
            omega⟩
    | none => levels limit (operand limit inner innerOperand) Level.all c
  | _ => levels limit (operand limit inner innerOperand) Level.all c

/-- The way back into the grammar when nothing more may be opened (`enter`). -/
def refused : Reader := fun c => .error ⟨.nestedTooDeep, c.behind⟩

/-- The two ways back into the grammar. -/
structure Descent where
  expression : Reader
  operand : Reader

/-- The ways back with a given room for groups, unary operators and assignments. -/
def descent (limit : Nat) : Nat → Descent
  | 0 => ⟨refused, refused⟩
  | room + 1 =>
    let inner := descent limit room
    ⟨Reader.expression limit inner.expression inner.operand,
      Reader.operand limit inner.expression inner.operand⟩

/-- An expression with nothing open around it. -/
def top : Reader := (descent heightLimit (nestingLimit + 1)).expression

end Reader

/-! ## Whole slices -/

namespace Expr

/-- The place that stands for the end of a slice: that of its last token, and nowhere for
the empty slice (`ExprParser::new`). -/
def sliceEnd (tokens : List Token) : Location :=
  (tokens.getLast?.map (·.location)).getD .nowhere

/-- Refuses whatever follows a complete expression (`finish`). -/
def finished (c : Cursor) : Except SyntaxError Unit :=
  match c.ahead with
  | [] => .ok ()
  | p :: _ => .error ⟨.leftover p.kind, p.location⟩

/-- The cursor at the front of a slice. -/
def cursor (tokens : List Token) : Except SyntaxError Cursor :=
  (Piece.fuse tokens).map fun pieces => .ofPieces pieces (sliceEnd tokens)

/-- Reads a whole slice as one expression (`parse_expression`). -/
def parse (tokens : List Token) : Except SyntaxError Expr := do
  let c ← cursor tokens
  let r ← Reader.top c
  finished r.rest
  return r.node.expr

/-- Reads expressions separated by commas, those before handed on in reverse. One
comma may follow the last. -/
def itemsFrom (c : Cursor) (read : List Expr) : Except SyntaxError (List Expr) :=
  match Reader.top c with
  | .error e => .error e
  | .ok ⟨node, c₁, _h₁⟩ =>
    match _hc : c₁.ahead with
    | ⟨.comma, l⟩ :: rest =>
      if rest.isEmpty then .ok (node.expr :: read).reverse
      else itemsFrom (c₁.past ⟨.comma, l⟩ rest) (node.expr :: read)
    | _ => (finished c₁).map fun _ => (node.expr :: read).reverse
termination_by c.ahead.length
decreasing_by
  simp only [_hc, List.length_cons] at _h₁
  simp only [Cursor.past]
  omega

/-- Reads a whole slice as a list of expressions, at least one
(`parse_expression_list`). -/
def parseList (tokens : List Token) : Except SyntaxError (List Expr) := do
  itemsFrom (← cursor tokens) []

end Expr

end Lipi
