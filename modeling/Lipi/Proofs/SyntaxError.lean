/-
What a syntax error may point at and quote.

An error that is raised while tokens are read as a program, or a program is lowered, blames
one of these tokens: its place is that of a token, and what its message shows of the source
is the kind of a token, or a name that is one (`SyntaxError.Blames`). Operators that form no
sign are no such thing, and the condition says that none are ever reported.

Outcomes that are either such an error or a value of some kind are put together like the
readers that have them (`Blaming`). What blames tokens that are each shown on one line is
shown on one line itself (`oneLine_message`, `oneLine_context`).
-/
import Lipi.Proofs.Program.Grammar
import Lipi.Proofs.Token.OneLine

set_option autoImplicit false

namespace Lipi

open Text

/-! ## Quoting -/

/-- The places of a row of tokens. -/
def Token.places (tokens : List Token) : List Location := tokens.map (·.location)

theorem Token.mem_kinds {t : Token} {tokens : List Token} (h : t ∈ tokens) :
    t.kind ∈ kinds tokens := List.mem_map_of_mem h

theorem Token.mem_places {t : Token} {tokens : List Token} (h : t ∈ tokens) :
    t.location ∈ places tokens := List.mem_map_of_mem h

theorem Token.identifier_mem_kinds {t : Token} {tokens : List Token} {name : String}
    (ht : t ∈ tokens) (h : t.name? = some name) : .identifier name ∈ kinds tokens := by
  obtain ⟨kind, l⟩ := t
  cases kind with
  | identifier _ =>
    cases h
    exact mem_kinds ht
  | _ => cases h

/-- The kinds that hold no text of a source. -/
def Token.Kind.isFixed : Kind → Bool
  | keyword _ | operator _ | symbol _ => true
  | identifier _ | integer _ | decimal _ | text _ => false

/-- What a piece shows of the source is a token, or the name or the value that one is. -/
def Piece.Kind.Quotes (source : List Token) : Kind → Prop
  | value v => ∃ k ∈ Token.kinds source, ofKind k = .value v
  | name n => .identifier n ∈ Token.kinds source
  | stray text => ∃ k ∈ Token.kinds source, text = k.lexeme
  | sign _ | openParen | closeParen | comma => True

namespace SyntaxError

/-- The name that a demand was made for is that of a token. -/
def Purpose.Quotes (source : List Token) : Purpose → Prop
  | declaration name => .identifier name ∈ Token.kinds source
  | programStart | programMain | plain => True

/-- What a cause shows of the source are tokens and names of tokens. -/
def Cause.Quotes (source : List Token) : Cause → Prop
  | expected kind purpose found =>
    kind.isFixed = true ∧ purpose.Quotes source ∧ ∀ k, found = some k → k ∈ Token.kinds source
  | expectedName found => ∀ k, found = some k → k ∈ Token.kinds source
  | missingFinish last => ∀ k, last = some k → k ∈ Token.kinds source
  | missingValue _ name => .identifier name ∈ Token.kinds source
  | initialValue name => .identifier name ∈ Token.kinds source
  | noOperand found => found.Quotes source
  | leftover found => found.Quotes source
  | unknownSigns _ => False
  | repeatedSkeleton _ | strayBranch _ | unclosedPrint | emptyPrint | unclosedLoopHeader
  | unclosedTest _ | emptyTest _ | headerSemicolons _ | blocksTooDeep | unclosedBlock _
  | outsideLoop _ | initialName | missingOperand | unclosedGroup | stepsNoName _ | noNameSteps _
  | nestedTooDeep | treeTooHigh => True

/-- An error that points at one of some tokens and quotes nothing else. -/
structure Blames (source : List Token) (e : SyntaxError) : Prop where
  place : e.location ∈ Token.places source
  quotes : e.cause.Quotes source

/-! ## Outcomes -/

/-- An outcome that is a value of some kind, or an error that blames one of some tokens. -/
def Blaming {α : Type} (source : List Token) (p : α → Prop) : Except SyntaxError α → Prop
  | .ok a => p a
  | .error e => e.Blames source

section Blaming

variable {α β : Type} {source : List Token} {p q : α → Prop} {p' : β → Prop}

theorem Blaming.bind {x : Except SyntaxError α} {f : α → Except SyntaxError β}
    (hx : Blaming source p x) (hf : ∀ a, p a → Blaming source p' (f a)) :
    Blaming source p' (x >>= f) := by
  cases x with
  | error e => exact hx
  | ok a => exact hf a hx

theorem Blaming.map {x : Except SyntaxError α} {f : α → β} (hx : Blaming source p x)
    (hf : ∀ a, p a → p' (f a)) : Blaming source p' (x.map f) := by
  cases x with
  | error e => exact hx
  | ok a => exact hf a hx

end Blaming

end SyntaxError

/-! ## On one line -/

theorem Token.Kind.oneLine_of_isFixed {k : Kind} (h : k.isFixed = true) : OneLine k.lexeme := by
  cases k with
  | keyword k => exact k.oneLine_word
  | operator o => exact o.oneLine_spelling
  | symbol s => exact s.oneLine_char
  | _ => cases h

theorem Token.Kind.oneLine_described {k : Kind} (h : OneLine k.lexeme) : OneLine k.described := by
  unfold described
  cases k with
  | keyword _ | identifier _ | operator _ | symbol _ =>
    exact oneLine_between (by decide) h (by decide)
  | integer _ | decimal _ | text _ => exact oneLine_after (by decide) h

theorem Sign.oneLine_spelling (s : Sign) : OneLine s.spelling := by
  cases s <;> exact oneLine_ofList.mpr (by decide)

theorem SyntaxError.Cause.oneLine_constructName (c : Construct) : OneLine (constructName c) := by
  cases c <;> exact oneLine_ofList.mpr (by decide)

section

variable {source : List Token} (hsource : ∀ k ∈ Token.kinds source, OneLine k.lexeme)

include hsource

theorem Piece.Kind.oneLine_described {k : Kind} (h : k.Quotes source) : OneLine k.described := by
  cases k with
  | value v =>
    cases v with
    | number x => exact oneLine_between (by decide) (oneLine_positionalText x) (by decide)
    | text s => exact oneLine_after (by decide) (oneLine_quoted s)
    | bool b => cases b <;> exact oneLine_ofList.mpr (by decide)
    | null => exact oneLine_ofList.mpr (by decide)
  | name n => exact oneLine_between (by decide) (hsource _ h) (by decide)
  | sign s => exact oneLine_between (by decide) s.oneLine_spelling (by decide)
  | stray text =>
    obtain ⟨k, hk, rfl⟩ := h
    exact oneLine_between (by decide) (hsource k hk) (by decide)
  | openParen | closeParen | comma => exact oneLine_ofList.mpr (by decide)

namespace SyntaxError

theorem Cause.oneLine_message {c : Cause} (h : c.Quotes source) : OneLine c.message := by
  unfold message
  cases c with
  | expected kind purpose found =>
    obtain ⟨hkind, -, hfound⟩ := h
    have hdemanded := Token.Kind.oneLine_described (Token.Kind.oneLine_of_isFixed hkind)
    cases found with
    | none => exact oneLine_between (by decide) hdemanded (by decide)
    | some k =>
      have hk := Token.Kind.oneLine_described (hsource k (hfound k rfl))
      refine oneLine_append.mpr ⟨?_, hk⟩
      exact oneLine_between (by decide) hdemanded (by decide)
  | expectedName found =>
    cases found with
    | none => exact oneLine_ofList.mpr (by decide)
    | some k =>
      exact oneLine_after (by decide) (Token.Kind.oneLine_described (hsource k (h k rfl)))
  | missingValue construct name =>
    refine oneLine_append.mpr ⟨oneLine_append.mpr ⟨?_, hsource _ h⟩, ?_⟩
    · exact oneLine_between (by decide) (oneLine_constructName construct) (by decide)
    · exact oneLine_ofList.mpr (by decide)
  | initialValue name => exact oneLine_between (by decide) (hsource _ h) (by decide)
  | noOperand found | leftover found =>
    exact oneLine_between (by decide) (Piece.Kind.oneLine_described hsource h) (by decide)
  | unknownSigns run => cases h
  | repeatedSkeleton k | strayBranch k | unclosedTest k | outsideLoop k =>
    exact oneLine_between (by decide) k.oneLine_word (by decide)
  | stepsNoName s | noNameSteps s =>
    exact oneLine_between (by decide) s.oneLine_spelling (by decide)
  | _ => exact oneLine_ofList.mpr (by decide)

theorem Cause.oneLine_context {c : Cause} (h : c.Quotes source) : OneLine c.context := by
  unfold context
  cases c with
  | expected kind purpose found =>
    obtain ⟨hkind, hpurpose, hfound⟩ := h
    have hdemanded := Token.Kind.oneLine_described (Token.Kind.oneLine_of_isFixed hkind)
    cases purpose with
    | programStart | programMain => exact oneLine_ofList.mpr (by decide)
    | declaration name => exact oneLine_between (by decide) (hsource _ hpurpose) (by decide)
    | plain =>
      cases found with
      | none => exact oneLine_after (by decide) hdemanded
      | some k =>
        refine oneLine_append.mpr ⟨oneLine_append.mpr ⟨?_, hsource k (hfound k rfl)⟩, ?_⟩
        · exact oneLine_between (by decide) hdemanded (by decide)
        · exact oneLine_ofList.mpr (by decide)
  | missingFinish last =>
    cases last with
    | none => exact oneLine_ofList.mpr (by decide)
    | some k =>
      have hk := Token.Kind.oneLine_described (hsource k (h k rfl))
      exact oneLine_between (by decide) hk (by decide)
  | missingValue construct name =>
    exact oneLine_between (by decide) (oneLine_constructName construct) (by decide)
  | emptyTest k => exact oneLine_between (by decide) k.oneLine_word (by decide)
  | outsideLoop k => exact oneLine_between (by decide) k.oneLine_word (by decide)
  | headerSemicolons n => exact oneLine_after (by decide) (oneLine_toString n)
  | unclosedBlock opened =>
    simp only [oneLine_append]
    exact ⟨⟨⟨⟨oneLine_ofList.mpr (by decide), oneLine_toString _⟩, oneLine_ofList.mpr (by decide)⟩,
      oneLine_toString _⟩, oneLine_ofList.mpr (by decide)⟩
  | blocksTooDeep | nestedTooDeep | treeTooHigh =>
    exact oneLine_between (by decide) (oneLine_toString _) (by decide)
  | _ => exact oneLine_ofList.mpr (by decide)

end SyntaxError

end

/-- Every context begins with words that do not depend on what is quoted. -/
theorem SyntaxError.context_ne_empty (e : SyntaxError) : e.context ≠ "" := by
  unfold context Cause.context
  cases e.cause with
  | expected kind purpose found =>
    unfold Cause.demandContext
    cases purpose <;> cases found <;> simp
  | missingFinish last => cases last <;> simp
  | _ => simp

end Lipi
