/-
A program is cut out of its tokens.

Every statement keeps the place of its first token, and the tokens of its values, conditions
and headers as they are. Read in the order of the source these are slices of the row of tokens:
each is there verbatim, and each begins behind the one before. A slice of a header may be empty,
so that slices do not overlap says less than it seems; what keeps empty slices in order is that
a semicolon or a parenthesis follows each of them (`Laid.closed`).

What a fragment takes off a row of tokens is laid out in it (`Takes.laid`): one case a form of
statement, in which the tokens between the slices are passed one by one. Positions come in only
afterwards, by one induction on the layout (`Laid.exists_parts`).

That a statement takes at least its first token, and nothing from behind, is what makes the
readers of rows of statements stop. Their machine stops on every row of tokens.
-/
import Lipi.Proofs.Program.Machine
import Lipi.Proofs.Program.Parsing

set_option autoImplicit false

namespace Lipi

/-! ## Slices of a program -/

/-- The first token of a statement. -/
def Statement.leading : Statement → Token
  | .declare place mutability _ _ => ⟨.keyword mutability.declares, place⟩
  | .assign place name _ => ⟨.identifier name, place⟩
  | .output place _ => ⟨.keyword .print, place⟩
  | .choice place _ => ⟨.keyword .ifTest, place⟩
  | .whileLoop place _ _ => ⟨.keyword .whileLoop, place⟩
  | .forLoop place _ _ _ _ => ⟨.keyword .forLoop, place⟩
  | .breakLoop place => ⟨.keyword .breakLoop, place⟩
  | .continueLoop place => ⟨.keyword .continueLoop, place⟩

theorem Statement.leading_location (s : Statement) : s.leading.location = s.place := by
  cases s <;> rfl

mutual

/-- The slices of a statement in the order of the source, the first of them its first token. -/
def Statement.slices : Statement → List (List Token)
  | .declare place mutability name value =>
    [[(Statement.declare place mutability name value).leading], value]
  | .assign place name value => [[(Statement.assign place name value).leading], value]
  | .output place value => [[(Statement.output place value).leading], value]
  | .choice place chain => [(Statement.choice place chain).leading] :: chain.slices
  | .whileLoop place condition body =>
    [(Statement.whileLoop place condition body).leading] :: condition :: Statement.slicesAll body
  | .forLoop place initial condition increment body =>
    [(Statement.forLoop place initial condition increment body).leading]
      :: initial :: condition :: increment :: Statement.slicesAll body
  | .breakLoop place => [[(Statement.breakLoop place).leading]]
  | .continueLoop place => [[(Statement.continueLoop place).leading]]
termination_by structural s => s

/-- The same for a chain. -/
def StatementChain.slices : StatementChain → List (List Token)
  | .test condition body rest => condition :: (Statement.slicesAll body ++ rest.slices)
  | .otherwise body => Statement.slicesAll body
  | .done => []
termination_by structural c => c

/-- The same for a row of statements. -/
def Statement.slicesAll : List Statement → List (List Token)
  | [] => []
  | s :: rest => s.slices ++ Statement.slicesAll rest
termination_by structural ss => ss

end

theorem Statement.slicesAll_append (ss ts : List Statement) :
    slicesAll (ss ++ ts) = slicesAll ss ++ slicesAll ts := by
  induction ss with
  | nil => rfl
  | cons s ss ih => rw [List.cons_append, slicesAll, ih, slicesAll, List.append_assoc]

namespace Program

/-- The slices of a program in the order of the source. -/
def slices (p : Program) : List (List Token) := Statement.slicesAll p.body

/-- The slices of a fragment. -/
def Fragment.slices : Fragment → List (List Token)
  | statement item => Statement.slicesAll item.toList
  | block body => Statement.slicesAll body
  | chain branches => branches.slices
  | sequence _ body => Statement.slicesAll body

theorem Fragment.slices_some (s : Statement) : (statement (some s)).slices = s.slices :=
  List.append_nil s.slices

/-! ## Layout -/

/-- Slices stand in a row of tokens, one behind the other, with any tokens between them, and
these are left behind the last. Behind an empty slice there is a token before the next. -/
inductive Laid : List Token → List (List Token) → List Token → Prop where
  | done (rest : List Token) : Laid rest [] rest
  | pass (t : Token) {tokens rest : List Token} {slices : List (List Token)}
      (h : Laid tokens slices rest) : Laid (t :: tokens) slices rest
  | slice {slice tokens rest : List Token} {slices : List (List Token)} (hne : slice ≠ [])
      (h : Laid tokens slices rest) : Laid (slice ++ tokens) (slice :: slices) rest
  | closed (slice : List Token) (t : Token) {tokens rest : List Token}
      {slices : List (List Token)} (h : Laid tokens slices rest) :
      Laid (slice ++ t :: tokens) (slice :: slices) rest

namespace Laid

variable {tokens mid rest : List Token} {slices more : List (List Token)}

theorem trans (h : Laid tokens slices mid) (h' : Laid mid more rest) :
    Laid tokens (slices ++ more) rest := by
  induction h with
  | done => exact h'
  | pass t _ ih => exact .pass t (ih h')
  | slice hne _ ih => exact .slice hne (ih h')
  | closed s t _ ih => exact .closed s t (ih h')

/-- What stands behind the rest is left with it. -/
theorem append (h : Laid tokens slices rest) (behind : List Token) :
    Laid (tokens ++ behind) slices (rest ++ behind) := by
  induction h with
  | done => exact .done _
  | pass t _ ih => exact .pass t ih
  | slice hne _ ih =>
    rw [List.append_assoc]
    exact .slice hne ih
  | closed s t _ ih =>
    rw [List.append_assoc]
    exact .closed s t ih

/-- The first token that is left may be passed as well. -/
theorem drop {t : Token} (h : Laid tokens slices (t :: rest)) : Laid tokens slices rest := by
  rw [← List.append_nil slices]
  exact h.trans (.pass t (.done rest))

/-- A row of tokens is what is taken and the rest. -/
theorem suffix (h : Laid tokens slices rest) : rest <:+ tokens := by
  induction h with
  | done => exact List.suffix_refl _
  | pass t _ ih => exact ih.trans (List.suffix_cons t _)
  | slice _ _ ih => exact ih.trans (List.suffix_append _ _)
  | closed s t _ ih => exact ih.trans ((List.suffix_cons t _).trans (List.suffix_append _ _))

end Laid

/-- **What is taken off a row of tokens is laid out in it.** -/
theorem Takes.laid {room : Nat} {tokens rest : List Token} {fragment : Fragment}
    (h : Takes room tokens fragment rest) : Laid tokens fragment.slices rest := by
  -- The first token of a statement is a slice of it, so it is taken and not passed.
  have hfirst {tokens rest : List Token} {slices : List (List Token)} (t : Token)
      (h : Laid tokens slices rest) : Laid (t :: tokens) ([t] :: slices) rest :=
    .slice (List.cons_ne_nil t []) h
  induction h with
  | declare l l₁ l₂ mutability name hne =>
    rw [Fragment.slices_some]
    exact hfirst _ (.pass _ (.pass _ (.slice hne (.done _))))
  | assign l l₁ name hne =>
    rw [Fragment.slices_some]
    exact hfirst _ (.pass _ (.slice hne (.done _)))
  | output l l₁ l₂ =>
    rw [Fragment.slices_some]
    exact hfirst _ (.pass _ (.closed _ _ (.done _)))
  | choice l l₁ l₂ _ _ _ _ hbody hmore =>
    rw [Fragment.slices_some]
    exact hfirst _ (.pass _ (.closed _ _ (hbody.trans hmore)))
  | whileLoop l l₁ l₂ _ _ _ hbody =>
    rw [Fragment.slices_some]
    exact hfirst _ (.pass _ (.closed _ _ hbody))
  | forLoop l l₁ l₂ l₃ l₄ _ _ _ _ _ hbody =>
    rw [Fragment.slices_some]
    refine hfirst _ (.pass _ ?_)
    rw [header, List.append_assoc, List.cons_append, List.append_assoc, List.cons_append]
    exact .closed _ _ (.closed _ _ (.closed _ _ hbody))
  | breakLoop | continueLoop =>
    rw [Fragment.slices_some]
    exact hfirst _ (.done _)
  | idle => exact .pass _ (.done _)
  | block l₁ l₂ _ hbody => exact .pass _ hbody.drop
  | elseIf l l₁ l₂ _ _ _ _ hbody hmore =>
    exact .pass _ (.pass _ (.closed _ _ (hbody.trans hmore)))
  | otherwise l _ hbody => exact .pass _ hbody
  | noBranch | nothing | brace => exact .done _
  | next _ _ _ hfirst hmore =>
    rw [Fragment.slices, Statement.slicesAll_append]
    exact hfirst.trans hmore

/-! ## Positions -/

/-- A slice and the position where it begins. -/
structure Part where
  start : Nat
  slice : List Token

/-- The position behind a slice. -/
def Part.stop (part : Part) : Nat := part.start + part.slice.length

/-- A slice stands in a row of tokens, and the row goes on behind it. -/
structure Part.IsOf (tokens : List Token) (part : Part) : Prop where
  verbatim : (tokens.drop part.start).take part.slice.length = part.slice
  inside : part.stop < tokens.length

/-- One slice begins and ends before another begins. -/
structure Part.Before (a b : Part) : Prop where
  start_lt : a.start < b.start
  stop_le : a.stop ≤ b.start

/-- One slice in front of others that have positions. Either it is not empty or a token is
between it and what follows. -/
theorem parts_cons {before slice gap tokens : List Token} {parts : List Part}
    (hgap : slice ++ gap ≠ []) (htokens : gap ++ tokens ≠ [])
    (hparts : ∀ part ∈ parts, (before ++ (slice ++ gap)).length ≤ part.start
      ∧ part.IsOf (before ++ (slice ++ (gap ++ tokens))))
    (hordered : parts.Pairwise Part.Before) :
    (∀ part ∈ ⟨before.length, slice⟩ :: parts, before.length ≤ part.start
        ∧ part.IsOf (before ++ (slice ++ (gap ++ tokens))))
      ∧ (⟨before.length, slice⟩ :: parts).Pairwise Part.Before := by
  have hbetween := List.length_pos_iff.mpr hgap
  have hbehind := List.length_pos_iff.mpr htokens
  simp only [List.length_append] at hparts hbetween hbehind
  constructor
  · refine List.forall_mem_cons.mpr ⟨⟨Nat.le_refl _, ?_, ?_⟩, fun part hpart => ?_⟩
    · dsimp only
      rw [List.drop_left, List.take_left]
    · simp only [Part.stop, List.length_append]
      omega
    · obtain ⟨hstart, hpart⟩ := hparts part hpart
      exact ⟨by omega, hpart⟩
  · refine List.pairwise_cons.mpr ⟨fun part hpart => ?_, hordered⟩
    have hstart := (hparts part hpart).1
    constructor <;> simp only [Part.stop] <;> omega

/-- Slices that are laid out have positions, in order. -/
theorem Laid.exists_parts {tokens rest : List Token} {slices : List (List Token)}
    (h : Laid tokens slices rest) (hrest : rest ≠ []) (before : List Token) :
    ∃ parts : List Part, parts.map (·.slice) = slices
      ∧ (∀ part ∈ parts, before.length ≤ part.start ∧ part.IsOf (before ++ tokens))
      ∧ parts.Pairwise Part.Before := by
  -- By induction on the layout, with the tokens before it.
  induction h generalizing before with
  | done => exact ⟨[], rfl, nofun, .nil⟩
  | pass t _ ih =>
    obtain ⟨parts, hslices, hparts, hordered⟩ := ih hrest (before ++ [t])
    refine ⟨parts, hslices, fun part hpart => ?_, hordered⟩
    obtain ⟨hstart, hpart⟩ := hparts part hpart
    rw [List.length_append] at hstart
    rw [List.append_assoc] at hpart
    exact ⟨by omega, hpart⟩
  | @slice slice tokens _ _ hne h ih =>
    obtain ⟨parts, rfl, hparts, hordered⟩ := ih hrest (before ++ slice)
    have htokens : tokens ≠ [] := fun he => hrest (List.suffix_nil.mp (he ▸ h.suffix))
    have hgap : slice ++ [] ≠ [] := by rwa [List.append_nil]
    rw [List.append_assoc] at hparts
    exact ⟨_ :: parts, rfl, parts_cons hgap htokens (by rwa [List.append_nil]) hordered⟩
  | @closed slice t tokens _ _ _ ih =>
    obtain ⟨parts, rfl, hparts, hordered⟩ := ih hrest (before ++ (slice ++ [t]))
    have hgap : slice ++ [t] ≠ [] := List.append_ne_nil_of_right_ne_nil _ (List.cons_ne_nil t [])
    rw [List.append_assoc, List.append_assoc] at hparts
    exact ⟨_ :: parts, rfl, parts_cons hgap (List.cons_ne_nil t tokens) hparts hordered⟩

/-! ## Programs -/

theorem exists_parts_of_parse {tokens : List Token} {p : Program} (h : parse tokens = .ok p) :
    ∃ parts : List Part, parts.map (·.slice) = p.slices ∧ (∀ part ∈ parts, part.IsOf tokens)
      ∧ parts.Pairwise Part.Before := by
  obtain ⟨l₁, l₂, l₃, inside, rfl, htakes⟩ := parse_iff_takes.mp h
  have hlaid := (htakes.laid.append [⟨.keyword .finish, l₃⟩]).pass ⟨.keyword .main, l₂⟩
  obtain ⟨parts, hslices, hparts, hordered⟩ :=
    (hlaid.pass ⟨.keyword .start, l₁⟩).exists_parts (List.cons_ne_nil _ _) []
  exact ⟨parts, hslices, fun part hpart => (hparts part hpart).2, hordered⟩

/-- A statement takes tokens off the front, the first of them its own. -/
theorem exists_taken_of_statement {room : Nat} {t : Token} {c c' : TokenCursor}
    {item : Option Statement} (h : Returns (statement (block room) t c) item c') :
    (∃ taken, taken ≠ [] ∧ t :: c.ahead = taken ++ c'.ahead)
      ∧ ∀ s, item = some s → s.leading = t := by
  have htakes := takes_of_statement (sound_block room) h
  obtain ⟨taken, htaken⟩ := htakes.laid.suffix
  refine ⟨⟨taken, ?_, htaken.symm⟩, ?_⟩
  · rintro rfl
    have hwithin := h.within
    rw [List.nil_append] at htaken
    rw [TokenCursor.length, TokenCursor.length, htaken, List.length_cons] at hwithin
    omega
  · rintro s rfl
    generalize c.ahead = ahead at htakes
    cases htakes <;> rfl

/-- **A program is cut out of its tokens, and reading it ends.** The first tokens of its
statements and its slices, in the order of the source, stand verbatim among the tokens, each
behind the one before. Each time a statement is read, or a token that begins none is passed,
tokens are taken off the front, the first of them is that of the statement, and the others
are left as they are. And on every row of tokens reading comes to an end. -/
theorem slices_of_parse (tokens : List Token) :
    (∀ p, parse tokens = .ok p → ∃ parts : List Part, parts.map (·.slice) = p.slices
        ∧ (∀ part ∈ parts, part.IsOf tokens) ∧ parts.Pairwise Part.Before)
      ∧ (∀ room t c item c', Returns (statement (block room) t c) item c' →
        (∃ taken, taken ≠ [] ∧ t :: c.ahead = taken ++ c'.ahead)
          ∧ ∀ s, item = some s → s.leading = t ∧ s.place = t.location)
      ∧ ∃ m, ProgramMachine.stepping.Reaches (ProgramMachine.start tokens) m ∧ m.step = none := by
  refine ⟨fun p hp => exists_parts_of_parse hp, ?_, ?_⟩
  · intro room t c item c' h
    obtain ⟨htaken, hleading⟩ := exists_taken_of_statement h
    refine ⟨htaken, fun s hs => ?_⟩
    obtain rfl := hleading s hs
    exact ⟨rfl, s.leading_location.symm⟩
  · obtain ⟨m, hreach, hgives⟩ := ProgramMachine.exists_gives tokens
    exact ⟨m, hreach, hgives.step_eq_none⟩

end Program

end Lipi
