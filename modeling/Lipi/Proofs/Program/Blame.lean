/-
Errors in programs blame tokens of the program.

A reader of statements starts among some tokens: those ahead are from them, and the place
of the last one taken is one of theirs (`TokenCursor.Within`). What it reads is made
of the same tokens, slice by slice (`Statement.Within`), and it leaves a cursor among them;
or it fails, and blames one of them (`Taking`). One lemma for each reader says so, with the
blocks tied together by induction on the room for them, and the whole parser follows for
every row of tokens that is not empty (`Program.blaming_parse`).

The slices of what is read are also not empty where a value or a condition is demanded, so
that reading them as expressions has a token to blame.
-/
import Lipi.Proofs.Program.Reading
import Lipi.Proofs.SyntaxError

set_option autoImplicit false

namespace Lipi

open SyntaxError

/-! ## Statements made of given tokens -/

/-- A slice of some tokens that is not empty. -/
def Token.IsSlice (source slice : List Token) : Prop := slice ⊆ source ∧ slice ≠ []

mutual

/-- A statement that stands at one of some tokens, with slices of them and a name that is one. -/
def Statement.Within (source : List Token) : Statement → Prop
  | .declare place _ name value => place ∈ Token.places source
    ∧ .identifier name ∈ Token.kinds source ∧ Token.IsSlice source value
  | .assign place name value => place ∈ Token.places source
    ∧ .identifier name ∈ Token.kinds source ∧ Token.IsSlice source value
  | .output place value => place ∈ Token.places source ∧ Token.IsSlice source value
  | .choice place chain => place ∈ Token.places source ∧ chain.Within source
  | .whileLoop place condition body => place ∈ Token.places source
    ∧ Token.IsSlice source condition ∧ Statement.AllWithin source body
  | .forLoop place initial condition increment body => place ∈ Token.places source
    ∧ initial ⊆ source ∧ condition ⊆ source ∧ increment ⊆ source
    ∧ Statement.AllWithin source body
  | .breakLoop place => place ∈ Token.places source
  | .continueLoop place => place ∈ Token.places source
termination_by structural s => s

/-- The same for a chain. -/
def StatementChain.Within (source : List Token) : StatementChain → Prop
  | .test condition body rest => Token.IsSlice source condition
    ∧ Statement.AllWithin source body ∧ rest.Within source
  | .otherwise body => Statement.AllWithin source body
  | .done => True
termination_by structural c => c

/-- The same for a row of statements. -/
def Statement.AllWithin (source : List Token) : List Statement → Prop
  | [] => True
  | s :: rest => s.Within source ∧ Statement.AllWithin source rest
termination_by structural ss => ss

end

theorem Statement.allWithin_iff {source : List Token} {ss : List Statement} :
    AllWithin source ss ↔ ∀ s ∈ ss, s.Within source := by
  induction ss with
  | nil => simp [AllWithin]
  | cons s ss ih => rw [AllWithin, ih, List.forall_mem_cons]

/-! ## Cursors and answers -/

variable {source : List Token}

namespace TokenCursor

/-- The next token, which stays ahead (`peek`). -/
def peek? (c : TokenCursor) : Option Token := c.ahead.head?

/-- The next token and the cursor past it (`consume`). -/
def consume? (c : TokenCursor) : Option (Token × TokenCursor) :=
  match c.ahead with
  | [] => none
  | t :: rest => some (t, ⟨rest, t.location⟩)

/-- A token that was seen is the one that is taken, so a place or a name that stands ready
for want of one (`unwrap_or`, `unwrap_or_default`) is not used. -/
theorem consume?_eq_some_iff {c : TokenCursor} {t : Token} :
    (∃ after, c.consume? = some (t, after)) ↔ c.peek? = some t := by
  obtain ⟨ahead, behind⟩ := c
  cases ahead with
  | nil => simp [consume?, peek?]
  | cons u rest => simp [consume?, peek?]

end TokenCursor

/-- A cursor whose tokens and place are those of some tokens. -/
structure TokenCursor.Within (source : List Token) (c : TokenCursor) : Prop where
  ahead : c.ahead ⊆ source
  behind : c.behind ∈ Token.places source

/-- The token ahead is one of them, and so is all that follows it. -/
theorem TokenCursor.Within.past {c : TokenCursor} (h : c.Within source) {t : Token}
    {rest : List Token} (hahead : c.ahead = t :: rest) :
    t ∈ source ∧ (TokenCursor.mk rest t.location).Within source := by
  obtain ⟨ht, hrest⟩ := List.cons_subset.mp (hahead ▸ h.ahead)
  exact ⟨ht, hrest, Token.mem_places ht⟩

namespace Program

/-- An answer that is of some kind and leaves a cursor among some tokens, or blames one. -/
def Taking {α : Type} {bound : Nat} (source : List Token) (q : α → Prop) :
    Except SyntaxError (Read α bound) → Prop :=
  Blaming source fun r => q r.item ∧ r.rest.Within source

section Taking

variable {α β : Type} {m n : Nat} {q : α → Prop} {q' : β → Prop}

theorem Taking.bind {x : Except SyntaxError (Read α m)}
    {f : Read α m → Except SyntaxError (Read β n)} (hx : Taking source q x)
    (hf : ∀ r, q r.item → r.rest.Within source → Taking source q' (f r)) :
    Taking source q' (x >>= f) :=
  Blaming.bind hx fun r hr => hf r hr.1 hr.2

theorem Taking.present {x : Except SyntaxError (Read Statement n)}
    (hx : Taking source (Statement.Within source) x) :
    Taking source (fun s => ∀ t ∈ s, t.Within source) (x.map Program.present) :=
  Blaming.map hx fun _ hr => ⟨fun _ ht => Option.some.inj ht ▸ hr.1, hr.2⟩

end Taking

/-! ## Demands -/

variable {c : TokenCursor}

/-- A demand that looks at the next token and then takes it (`expect_with`). Two
refusals have a place; the last one, of a token that was seen and cannot be taken, has
none. -/
def expectWith (kind : Token.Kind) (purpose : Purpose) (c : TokenCursor) :
    Except (Cause × Option Location) (Token × TokenCursor) :=
  match c.peek? with
  | none => .error (.expected kind purpose none, some c.behind)
  | some t =>
    if t.kind = kind then
      match c.consume? with
      | some taken => .ok taken
      | none => .error (.expected kind purpose none, none)
    else .error (.expected kind purpose (some t.kind), some t.location)

/-- The refusal without a place is never given: what is left is `expect`. -/
theorem expectWith_eq (kind : Token.Kind) (purpose : Purpose) (c : TokenCursor) :
    expectWith kind purpose c
      = match expect kind purpose c with
        | .ok r => .ok (r.item, r.rest)
        | .error e => .error (e.cause, some e.location) := by
  obtain ⟨ahead, behind⟩ := c
  cases ahead with
  | nil => rfl
  | cons t rest =>
    by_cases hkind : t.kind = kind
    · simp [expectWith, expect, TokenCursor.peek?, TokenCursor.consume?, hkind]
    · simp [expectWith, expect, TokenCursor.peek?, hkind]

/-- What demands a token among some tokens fails at the last one taken, or at the next. -/
theorem taking_expect (hc : c.Within source) (kind : Token.Kind) (hkind : kind.isFixed = true)
    (purpose : Purpose) (hpurpose : purpose.Quotes source) :
    Taking source (fun t => t ∈ source) (expect kind purpose c) := by
  unfold expect
  split
  · refine ⟨hc.behind, hkind, hpurpose, ?_⟩
    intro k hk
    cases hk
  · next t rest hahead =>
    obtain ⟨ht, hpast⟩ := hc.past hahead
    split
    · exact ⟨ht, hpast⟩
    · refine ⟨Token.mem_places ht, hkind, hpurpose, ?_⟩
      rintro _ ⟨⟩
      exact Token.mem_kinds ht

theorem taking_expectName (hc : c.Within source) :
    Taking source (fun name => .identifier name ∈ Token.kinds source) (expectName c) := by
  unfold expectName
  split
  · refine ⟨hc.behind, ?_⟩
    intro k hk
    cases hk
  · next t rest hahead =>
    obtain ⟨ht, hpast⟩ := hc.past hahead
    split
    · next name hname => exact ⟨Token.identifier_mem_kinds ht hname, hpast⟩
    · refine ⟨Token.mem_places ht, ?_⟩
      rintro _ ⟨⟩
      exact Token.mem_kinds ht

/-! ## Slices -/

theorem within_valueFrom {bound : Nat} {c : TokenCursor} (hc : c.Within source)
    (h : c.length ≤ bound) {read : List Token} (hread : read ⊆ source) :
    (valueFrom c h read).item ⊆ source ∧ (valueFrom c h read).rest.Within source := by
  rw [valueFrom]
  split
  · exact ⟨List.reverse_subset.mpr hread, hc⟩
  · next t rest hahead =>
    obtain ⟨ht, hpast⟩ := hc.past hahead
    split
    · exact ⟨List.reverse_subset.mpr hread, hc⟩
    · have hshort : rest.length < c.ahead.length := by
        rw [hahead, List.length_cons]
        exact Nat.lt_succ_self _
      exact within_valueFrom hpast _ (List.cons_subset.mpr ⟨ht, hread⟩)
termination_by c.ahead.length

theorem within_value (hc : c.Within source) :
    (value c).item ⊆ source ∧ (value c).rest.Within source :=
  within_valueFrom hc (Nat.le_refl _) (List.nil_subset _)

theorem within_closingFrom {bound : Nat} {ahead : List Token} (hahead : ahead ⊆ source)
    (h : ahead.length ≤ bound) {opened : Nat} {read : List Token} (hread : read ⊆ source)
    {r : Read (List Token) (bound - 1)} (hr : closingFrom ahead h opened read = some r) :
    r.item ⊆ source ∧ r.rest.Within source := by
  induction ahead generalizing opened read with
  | nil => cases hr
  | cons t ahead ih =>
    obtain ⟨ht, hrest⟩ := List.cons_subset.mp hahead
    have hmore : t :: read ⊆ source := List.cons_subset.mpr ⟨ht, hread⟩
    unfold closingFrom at hr
    dsimp only at hr
    split at hr
    · exact ih hrest _ hmore hr
    · split at hr
      · split at hr
        · cases hr
          exact ⟨List.reverse_subset.mpr hread, hrest, Token.mem_places ht⟩
        · exact ih hrest _ hmore hr
      · exact ih hrest _ hmore hr

theorem taking_parenthesized (hc : c.Within source) (unclosed : SyntaxError)
    (hunclosed : unclosed.Blames source) :
    Taking source (fun slice => slice ⊆ source) (parenthesized unclosed c) := by
  unfold parenthesized
  refine (taking_expect hc (.symbol .openParen) rfl .plain trivial).bind
    fun opening _ hopening => ?_
  split
  · next slice hslice =>
    exact within_closingFrom hopening.ahead opening.within (List.nil_subset _) hslice
  · exact hunclosed

/-! ## Simple statements -/

variable {place : Location} (hplace : place ∈ Token.places source)

include hplace

theorem taking_declaration (hc : c.Within source) (mutability : Mutability) :
    Taking source (Statement.Within source) (declaration mutability place c) := by
  unfold declaration
  refine (taking_expectName hc).bind fun name hname hafter => ?_
  have hpurpose : (Purpose.declaration name.item).Quotes source := hname
  refine (taking_expect hafter (.operator .assign) rfl _ hpurpose).bind fun sign _ hsign => ?_
  obtain ⟨hslice, hrest⟩ := within_value hsign
  dsimp only
  split
  · exact ⟨hrest.behind, hname⟩
  · next hne => exact ⟨⟨hplace, hname, hslice, fun he => hne (List.isEmpty_iff.mpr he)⟩, hrest⟩

theorem taking_assignment (hc : c.Within source) {name : String}
    (hname : .identifier name ∈ Token.kinds source) :
    Taking source (fun s => ∀ t ∈ s, t.Within source) (assignment name place c) := by
  unfold assignment
  split
  · next t rest hahead =>
    obtain ⟨-, hpast⟩ := hc.past hahead
    split
    · obtain ⟨hslice, hrest⟩ := within_value hpast
      dsimp only
      split
      · exact ⟨hrest.behind, hname⟩
      · next hne =>
        refine ⟨?_, hrest⟩
        rintro _ ⟨⟩
        exact ⟨hplace, hname, hslice, fun he => hne (List.isEmpty_iff.mpr he)⟩
    · exact ⟨nofun, hc⟩
  · exact ⟨nofun, hc⟩

theorem taking_print (hc : c.Within source) :
    Taking source (Statement.Within source) (print place c) := by
  unfold print
  refine (taking_parenthesized hc ⟨.unclosedPrint, place⟩ ⟨hplace, trivial⟩).bind
    fun slice hslice hrest => ?_
  split
  · exact ⟨hplace, trivial⟩
  · next hne => exact ⟨⟨hplace, hslice, fun he => hne (List.isEmpty_iff.mpr he)⟩, hrest⟩

/-! ## Statements with blocks -/

theorem taking_test (hc : c.Within source) (k : Keyword) (unclosed : Cause)
    (hunclosed : unclosed.Quotes source) :
    Taking source (Token.IsSlice source) (test k unclosed place c) := by
  unfold test
  refine (taking_parenthesized hc ⟨unclosed, place⟩ ⟨hplace, hunclosed⟩).bind
    fun slice hslice hrest => ?_
  split
  · exact ⟨hplace, trivial⟩
  · next hne => exact ⟨⟨hslice, fun he => hne (List.isEmpty_iff.mpr he)⟩, hrest⟩

omit hplace

/-- A reader of blocks that among some tokens reads blocks of them, or blames one. -/
def BlockReader.Within (source : List Token) (block : BlockReader) : Prop :=
  ∀ c : TokenCursor, c.Within source → Taking source (Statement.AllWithin source) (block c)

variable {block : BlockReader} (hblock : block.Within source)

include hplace hblock

theorem taking_whileLoop (hc : c.Within source) :
    Taking source (Statement.Within source) (whileLoop block place c) := by
  unfold whileLoop
  refine (taking_test hplace hc .whileLoop .unclosedLoopHeader trivial).bind
    fun condition hcondition hafter => ?_
  exact (hblock _ hafter).bind fun body hbody hrest => ⟨⟨hplace, hcondition, hbody⟩, hrest⟩

theorem taking_forLoop (hc : c.Within source) :
    Taking source (Statement.Within source) (forLoop block place c) := by
  unfold forLoop
  refine (taking_parenthesized hc ⟨.unclosedLoopHeader, place⟩ ⟨hplace, trivial⟩).bind
    fun header hheader hafter => ?_
  split
  · next initial condition increment hparts =>
    -- The parts of the header are what stands around two of its tokens.
    obtain ⟨⟨l₁, l₂, hwhole⟩, -⟩ := headerParts_eq_three_iff.mp hparts
    rw [hwhole, Program.header, List.append_subset, List.cons_subset, List.append_subset,
      List.cons_subset] at hheader
    obtain ⟨hinitial, -, hcondition, -, hincrement⟩ := hheader
    exact (hblock _ hafter).bind fun body hbody hrest =>
      ⟨⟨hplace, hinitial, hcondition, hincrement, hbody⟩, hrest⟩
  · exact ⟨hplace, trivial⟩

theorem taking_branch (hc : c.Within source) (k : Keyword) :
    Taking source (fun b => Token.IsSlice source b.1 ∧ Statement.AllWithin source b.2)
      (branch block k place c) := by
  unfold branch
  refine (taking_test hplace hc k (.unclosedTest k) trivial).bind
    fun condition hcondition hafter => ?_
  exact (hblock _ hafter).bind fun body hbody hrest => ⟨⟨hcondition, hbody⟩, hrest⟩

omit hplace

/-- Each branch leaves fewer tokens. -/
theorem taking_chainFrom {c : TokenCursor} (hc : c.Within source) :
    Taking source (StatementChain.Within source) (chainFrom block c) := by
  rw [chainFrom]
  split
  · exact ⟨trivial, hc⟩
  · next t rest hahead =>
    obtain ⟨ht, hpast⟩ := hc.past hahead
    have hplace := Token.mem_places ht
    dsimp only
    split
    · refine (taking_branch hplace hblock hpast .elseIfTest).bind fun first hfirst hafter => ?_
      have hshort : first.rest.length < c.length := by
        have hwithin := first.within
        simp only [TokenCursor.length, hahead, List.length_cons] at hwithin ⊢
        omega
      exact (taking_chainFrom hafter).bind fun more hmore hrest =>
        ⟨⟨hfirst.1, hfirst.2, hmore⟩, hrest⟩
    · split
      · exact (hblock _ hpast).bind fun body hbody hrest => ⟨hbody, hrest⟩
      · exact ⟨trivial, hc⟩
termination_by c.length

theorem taking_choice (hplace : place ∈ Token.places source) (hc : c.Within source) :
    Taking source (Statement.Within source) (choice block place c) := by
  unfold choice
  refine (taking_branch hplace hblock hc .ifTest).bind fun first hfirst hafter => ?_
  exact (taking_chainFrom hblock hafter).bind fun more hmore hrest =>
    ⟨⟨hplace, hfirst.1, hfirst.2, hmore⟩, hrest⟩

theorem taking_statement {t : Token} (ht : t ∈ source) (hc : c.Within source) :
    Taking source (fun s => ∀ t ∈ s, t.Within source) (statement block t c) := by
  have hplace := Token.mem_places ht
  have hkind := Token.mem_kinds ht
  obtain ⟨kind, l⟩ := t
  cases kind with
  | keyword k =>
    cases k with
    | letDecl => exact (taking_declaration hplace hc .mutable).present
    | constDecl => exact (taking_declaration hplace hc .constant).present
    | print => exact (taking_print hplace hc).present
    | whileLoop => exact (taking_whileLoop hplace hblock hc).present
    | forLoop => exact (taking_forLoop hplace hblock hc).present
    | ifTest => exact (taking_choice hblock hplace hc).present
    | breakLoop | continueLoop =>
      refine ⟨?_, hc⟩
      rintro _ ⟨⟩
      exact hplace
    | elseIfTest | otherwise | start | main | finish => exact ⟨hplace, trivial⟩
  | identifier name => exact taking_assignment hplace hc hkind
  | integer _ | decimal _ | text _ | operator _ | symbol _ => exact ⟨nofun, hc⟩

/-- Each statement, and each token that is passed over, leaves fewer tokens. -/
theorem taking_statementsFrom {stop : Token → Bool} {bound : Nat} {c : TokenCursor}
    (hc : c.Within source) (h : c.length ≤ bound) (read : List Statement)
    (hread : Statement.AllWithin source read) :
    Taking source (Statement.AllWithin source)
      (statementsFrom (statement block) stop c h read) := by
  have hreverse : Statement.AllWithin source read.reverse := by
    rw [Statement.allWithin_iff] at hread ⊢
    exact fun s hs => hread s (List.mem_reverse.mp hs)
  rw [statementsFrom]
  split
  · exact ⟨hreverse, hc⟩
  · next t rest hahead =>
    obtain ⟨ht, hpast⟩ := hc.past hahead
    split
    · exact ⟨hreverse, hc⟩
    · refine (taking_statement hblock ht hpast).bind fun next hnext hafter => ?_
      have hshort : next.rest.length < c.length := by
        have hwithin := next.within
        simp only [TokenCursor.length, hahead, List.length_cons] at hwithin ⊢
        omega
      refine taking_statementsFrom hafter _ _ ?_
      rw [Statement.allWithin_iff] at hread ⊢
      intro s hs
      rcases List.mem_append.mp hs with hs | hs
      · exact hnext s (Option.mem_toList.mp hs)
      · exact hread s hs
termination_by c.length

omit hblock

theorem within_block (room : Nat) : (Program.block room).Within source := by
  -- By induction on the room: the blocks inside a block have one less.
  induction room with
  | zero =>
    intro c hc
    rw [Program.block]
    exact (taking_expect hc (.symbol .openBrace) rfl .plain trivial).bind fun opening hopening _ =>
      ⟨Token.mem_places hopening, trivial⟩
  | succ room ih =>
    intro c hc
    rw [Program.block]
    refine (taking_expect hc (.symbol .openBrace) rfl .plain trivial).bind
      fun opening hopening hafter => ?_
    refine (taking_statementsFrom ih hafter opening.within [] trivial).bind
      fun body hbody hrest => ?_
    split
    · exact ⟨hrest.behind, trivial⟩
    · next t rest hahead => exact ⟨hbody, (hrest.past hahead).2⟩

/-! ## Programs -/

theorem blaming_unframed (hc : c.Within source) :
    Blaming source (fun c => c.Within source) (unframed c) := by
  unfold unframed
  split
  · exact ⟨hc.behind, nofun⟩
  · next last hlast =>
    have hmem : last ∈ source := hc.ahead (List.mem_of_getLast? hlast)
    split
    · exact ⟨List.Subset.trans (List.dropLast_subset _) hc.ahead, hc.behind⟩
    · refine ⟨Token.mem_places hmem, ?_⟩
      rintro _ ⟨⟩
      exact Token.mem_kinds hmem

/-- **What cannot be read as a program blames one of its tokens**, if it has any; what can
is made of them. -/
theorem blaming_parse {tokens : List Token} (hne : tokens ≠ []) :
    Blaming tokens (fun p => Statement.AllWithin tokens p.body) (parse tokens) := by
  -- Nothing has been taken before the first token, which is there to be looked at.
  have hstart : Taking tokens (fun t => t ∈ tokens)
      (expect (.keyword .start) .programStart (.ofTokens tokens)) := by
    obtain ⟨t, rest, rfl⟩ := List.exists_cons_of_ne_nil hne
    have ht : t ∈ t :: rest := List.mem_cons_self
    unfold expect
    dsimp only [TokenCursor.ofTokens]
    split
    · exact ⟨ht, List.subset_cons_self _ _, Token.mem_places ht⟩
    · refine ⟨Token.mem_places ht, rfl, trivial, ?_⟩
      rintro _ ⟨⟩
      exact Token.mem_kinds ht
  unfold parse
  refine Blaming.bind hstart fun start hs => ?_
  refine Blaming.bind (taking_expect hs.2 (.keyword .main) rfl .programMain trivial)
    fun main hm => ?_
  refine (blaming_unframed hm.2).bind fun inside hinside => ?_
  refine Blaming.bind (taking_statementsFrom (within_block _) hinside (Nat.le_refl _) [] trivial)
    fun body hbody => ?_
  exact hbody.1

end Program

end Lipi
