/-
Programs joined into one.

Two bodies that compile within a skeleton of their own also compile within one skeleton,
a line with a semicolon between them, and running that program is running the two in one
sandbox. Every stage has its part in this.

 1. *Tokens.* A line feed ends every line comment and breaks every number, name and sign,
    and a body that can be read before the closing word leaves no comment and no string
    open. So the tokens of the joined text are those of its parts (`tokenize_joined`), at
    other places.
 2. *Statements.* No statement goes on over a semicolon, so those of the first body are
    followed by those of the second (`Program.Takes.append_sequence`).
 3. *Commands.* Places and the number of guards made before decide nothing, so the joined
    program is lowered to what its parts are, but for places and the names of guards
    (`Statement.lowered_of_unlocated`).
 4. *Runs.* None of these is seen when a script runs, and no command at the top of a script
    leaves a loop (`Sandbox.agrees_run`, `Sandbox.run_append`).
-/
import Lipi.Proofs.Compilation
import Lipi.Proofs.Program.Concatenation
import Lipi.Proofs.Sandbox.Sequence
import Lipi.Proofs.Token.LineFeed

set_option autoImplicit false

namespace Lipi

/-- A body within the words of the skeleton, each on a line of its own. -/
def framed (body : String) : String := "arambha systummm\n" ++ body ++ "\nbihari_sramik"

/-- Two bodies with a semicolon on a line between them. -/
def joined (b b' : String) : String := b ++ "\n;\n" ++ b'

/-! ## Tokens -/

theorem Token.kinds_map_relocate (f : Location → Location) (tokens : List Token) :
    kinds (tokens.map (relocate f)) = kinds tokens := by
  rw [kinds, List.map_map]
  rfl

/-- Texts with a line feed between them have the tokens of the one and then of the other. -/
theorem exists_tokenize_lineFeed {a b : String} {tokens more : List Token}
    (ha : tokenize a = .ok tokens) (hb : tokenize b = .ok more) :
    ∃ all, tokenize (a ++ "\n" ++ b) = .ok all
      ∧ Token.kinds all = Token.kinds tokens ++ Token.kinds more := by
  have hboth := tokenize_lineFeed (b := b) ha
  rw [hb] at hboth
  refine ⟨_, hboth, ?_⟩
  rw [Token.kinds_append, Token.kinds_map_relocate]

theorem tokenize_opening : tokenize "arambha systummm"
    = .ok [⟨.keyword .start, ⟨0, 1, 1⟩⟩, ⟨.keyword .main, ⟨8, 1, 9⟩⟩] :=
  eq_ok_of_toOption (by decide +kernel)

theorem tokenize_closing :
    tokenize "bihari_sramik" = .ok [⟨.keyword .finish, ⟨0, 1, 1⟩⟩] :=
  eq_ok_of_toOption (by decide +kernel)

theorem tokenize_semicolon : tokenize ";" = .ok [⟨.symbol .semicolon, ⟨0, 1, 1⟩⟩] :=
  eq_ok_of_toOption (by decide +kernel)

theorem framed_eq (body : String) :
    framed body = "arambha systummm" ++ "\n" ++ body ++ "\n" ++ "bihari_sramik" := by
  have hopening : "arambha systummm\n" = "arambha systummm" ++ "\n" := by
    decide +kernel
  have hclosing : "\nbihari_sramik" = "\n" ++ "bihari_sramik" := by decide +kernel
  have hassoc : ∀ a b c d e : String, a ++ b ++ c ++ (d ++ e) = a ++ b ++ c ++ d ++ e :=
    fun _ _ _ _ _ => String.append_assoc.symm
  show "arambha systummm\n" ++ body ++ "\nbihari_sramik" = _
  rw [hopening, hclosing, hassoc]

theorem joined_eq (b b' : String) : joined b b' = b ++ "\n" ++ ";" ++ "\n" ++ b' := by
  have hmiddle : "\n;\n" = "\n" ++ (";" ++ "\n") := by decide +kernel
  have hinner : b ++ "\n" ++ (";" ++ "\n") = b ++ "\n" ++ ";" ++ "\n" := String.append_assoc.symm
  have houter : b ++ ("\n" ++ (";" ++ "\n")) = b ++ "\n" ++ (";" ++ "\n") :=
    String.append_assoc.symm
  rw [joined, hmiddle, houter, hinner]

/-- The kinds of the tokens of a framed body. -/
def framedKinds (kinds : List Token.Kind) : List Token.Kind :=
  .keyword .start :: .keyword .main :: (kinds ++ [.keyword .finish])

theorem exists_tokenize_framed {body : String} {inside : List Token}
    (h : tokenize body = .ok inside) :
    ∃ tokens, tokenize (framed body) = .ok tokens
      ∧ Token.kinds tokens = framedKinds (Token.kinds inside) := by
  obtain ⟨before, hbefore, hkinds⟩ := exists_tokenize_lineFeed tokenize_opening h
  obtain ⟨tokens, htokens, hall⟩ := exists_tokenize_lineFeed hbefore tokenize_closing
  refine ⟨tokens, ?_, ?_⟩
  · rw [framed_eq]
    exact htokens
  · rw [hall, hkinds]
    rfl

/-- A body that can be read within the skeleton can be read by itself. -/
theorem tokenize_of_framed {body : String} {tokens : List Token}
    (h : tokenize (framed body) = .ok tokens) :
    ∃ inside, tokenize body = .ok inside
      ∧ Token.kinds tokens = framedKinds (Token.kinds inside) := by
  have hframed := h
  rw [framed_eq] at h
  -- The closing word has no quote and no star, so it closes nothing that was open.
  obtain ⟨before, hbefore⟩ := tokenize_of_lineFeed h (by decide) (by decide) (by decide)
  have hbody := tokenize_lineFeed (b := body) tokenize_opening
  rw [hbefore] at hbody
  cases hinside : tokenize body with
  | error e =>
    rw [hinside] at hbody
    cases hbody
  | ok inside =>
    obtain ⟨tokens', htokens', hkinds⟩ := exists_tokenize_framed hinside
    rw [hframed] at htokens'
    cases htokens'
    exact ⟨inside, rfl, hkinds⟩

theorem tokenize_joined {b b' : String} {inside inside' : List Token}
    (h : tokenize b = .ok inside) (h' : tokenize b' = .ok inside') :
    ∃ all, tokenize (joined b b') = .ok all
      ∧ Token.kinds all = Token.kinds inside ++ .symbol .semicolon :: Token.kinds inside' := by
  obtain ⟨before, hbefore, hkinds⟩ := exists_tokenize_lineFeed h tokenize_semicolon
  obtain ⟨all, hall, hkinds'⟩ := exists_tokenize_lineFeed hbefore h'
  refine ⟨all, ?_, ?_⟩
  · rw [joined_eq]
    exact hall
  · rw [hkinds', hkinds, List.append_assoc]
    rfl

/-! ## Statements -/

namespace Program

/-- What is read of the tokens of a framed body are the statements of the body. -/
theorem takes_of_framed {tokens inside : List Token} {p : Program} (h : parse tokens = .ok p)
    (hk : Token.kinds tokens = framedKinds (Token.kinds inside)) :
    ∃ taken, Token.kinds taken = Token.kinds inside
      ∧ Takes nestingLimit taken (.sequence false p.body) [] := by
  obtain ⟨l₁, l₂, l₃, taken, rfl, htakes⟩ := parse_iff_takes.mp h
  refine ⟨taken, ?_, htakes⟩
  have hinside : Token.kinds (taken ++ [⟨.keyword .finish, l₃⟩])
      = Token.kinds inside ++ [.keyword .finish] := (List.cons.inj (List.cons.inj hk).2).2
  rw [Token.kinds_append] at hinside
  exact (List.append_inj' hinside rfl).1

/-- Tokens of a framed row of statements can be read as a program of these. -/
theorem parse_framed {tokens taken : List Token} {body : List Statement}
    (h : Takes nestingLimit taken (.sequence false body) [])
    (hk : Token.kinds tokens = framedKinds (Token.kinds taken)) :
    ∃ p, parse tokens = .ok p ∧ Statement.unlocatedAll p.body = Statement.unlocatedAll body := by
  have hparse : parse (⟨.keyword .start, .nowhere⟩ :: ⟨.keyword .main, .nowhere⟩
      :: (taken ++ [⟨.keyword .finish, .nowhere⟩])) = .ok ⟨body⟩ :=
    parse_iff_takes.mpr ⟨_, _, _, taken, rfl, h⟩
  have hkinds : Token.kinds (taken ++ [⟨.keyword .finish, .nowhere⟩])
      = Token.kinds taken ++ [.keyword .finish] := Token.kinds_append _ _
  have hall : Token.kinds tokens = .keyword .start :: .keyword .main
      :: Token.kinds (taken ++ [⟨.keyword .finish, .nowhere⟩]) := by
    rw [hk, hkinds, framedKinds]
  obtain ⟨p, hp, hsame⟩ := parse_of_kinds hparse hall
  exact ⟨p, hp, congrArg Program.body hsame⟩

end Program

/-! ## Commands -/

/-- Statements that are those of one program and then those of another, but for places, are
lowered to the commands of the one and then of the other, but for what a bare form lacks. -/
theorem Program.script_joined {p p' q : Program} {a a' : Script} (h : p.script = .ok a)
    (h' : p'.script = .ok a')
    (hq : Statement.unlocatedAll q.body = Statement.unlocatedAll (p.body ++ p'.body)) :
    ∃ script, q.script = .ok script
      ∧ Command.bareAll script.body = Command.bareAll (a.body ++ a'.body) := by
  rw [script_eq_ok_iff] at h h'
  -- The second program is lowered after the guards of the first.
  obtain ⟨ds, hds, hbare⟩ :=
    Statement.lowered_of_unlocated h' rfl (Statement.lowerAll 0 p.body 0).2
  have hboth : (Statement.lowerAll 0 (p.body ++ p'.body) 0).1 = .ok (a.body ++ ds) := by
    rw [Statement.lowerAll_append, Procedure.bind_apply]
    generalize Statement.lowerAll 0 p.body 0 = x at h hds ⊢
    obtain ⟨outcome, made⟩ := x
    cases h
    show ((Statement.lowerAll 0 p'.body >>= fun ds => pure (a.body ++ ds)) made).1 = _
    rw [Procedure.bind_apply]
    generalize Statement.lowerAll 0 p'.body made = y at hds ⊢
    obtain ⟨outcome', made'⟩ := y
    cases hds
    rfl
  obtain ⟨body, hbody, hsame⟩ := Statement.lowered_of_unlocated hboth hq 0
  refine ⟨⟨body⟩, script_eq_ok_iff.mpr hbody, ?_⟩
  rw [hsame, Command.bareAll_append, Command.bareAll_append, hbare]

/-- The commands of a compiled script leave no loop at the top. -/
theorem not_escapes_of_script {p : Program} {script : Script} (h : p.script = .ok script) :
    Command.escapesInAll script.body = false :=
  Command.not_escapes_of_allWellFormed script.body (Program.allWellFormed_script h)

/-! ## Runs -/

/-- **Joined bodies compile** if each of them does, to the commands of the one and then of
the other, but for places, forms of loops and names of guards. -/
theorem compile_joined {b b' : String} {a a' : Script} (h : compile (framed b) = .ok a)
    (h' : compile (framed b') = .ok a') :
    ∃ script, compile (framed (joined b b')) = .ok script
      ∧ Command.bareAll script.body = Command.bareAll (a.body ++ a'.body) := by
  obtain ⟨tokens, p, htokens, hparse, hscript⟩ := compile_eq_ok_iff.mp h
  obtain ⟨tokens', p', htokens', hparse', hscript'⟩ := compile_eq_ok_iff.mp h'
  obtain ⟨inside, hinside, hkinds⟩ := tokenize_of_framed htokens
  obtain ⟨inside', hinside', hkinds'⟩ := tokenize_of_framed htokens'
  -- Both rows of statements, taken off their own tokens.
  obtain ⟨taken, htaken, htakes⟩ := Program.takes_of_framed hparse hkinds
  obtain ⟨taken', htaken', htakes'⟩ := Program.takes_of_framed hparse' hkinds'
  have hboth := htakes.append_sequence htakes' .nowhere
  -- The tokens of the joined text are of the kinds of these.
  obtain ⟨middle, hmiddle, hkindsMiddle⟩ := tokenize_joined hinside hinside'
  obtain ⟨all, hall, hkindsAll⟩ := exists_tokenize_framed hmiddle
  have hsame : Token.kinds middle = Token.kinds (taken ++ Program.separated .nowhere taken') := by
    rw [hkindsMiddle, Token.kinds_append, htaken, ← htaken']
    rfl
  rw [hsame] at hkindsAll
  obtain ⟨q, hq, hbody⟩ := Program.parse_framed hboth hkindsAll
  obtain ⟨script, hs, hbare⟩ := Program.script_joined hscript hscript' hbody
  exact ⟨script, compile_eq_ok_iff.mpr ⟨all, q, hall, hq, hs⟩, hbare⟩

/-- What running a script does, if it is running one script and then another in one sandbox.
If no fault ends the first, the log and what every name stands for in the end are those of
running the two one after the other; a fault that ends the first ends the script with the
log of the first. -/
structure Script.IsSession (script a a' : Script) : Prop where
  completed : Sandbox.fresh.fatalFault? a = none →
    script.run.log = ((Sandbox.fresh.run a).run a').log
      ∧ ∀ name, script.run.environment.column name
          = ((Sandbox.fresh.run a).run a').environment.column name
  stopped : ∀ fault, Sandbox.fresh.fatalFault? a = some fault →
    script.run.log = (Sandbox.fresh.run a).log

/-- **A program that is joined from two bodies is a session with both.** Whenever each body
compiles, the joined one does, and running it is running the first and then the second. -/
theorem isSession_joined {b b' : String} {a a' : Script} (h : compile (framed b) = .ok a)
    (h' : compile (framed b') = .ok a') :
    ∃ script, compile (framed (joined b b')) = .ok script ∧ script.IsSession a a' := by
  obtain ⟨script, hscript, hbare⟩ := compile_joined h h'
  obtain ⟨tokens, p, -, -, hp⟩ := compile_eq_ok_iff.mp h
  have hstays := not_escapes_of_script hp
  have hjoined : Sandbox.Agrees (fun _ => True) #[] #[] script.run
      (Sandbox.fresh.run ⟨a.body ++ a'.body⟩) :=
    Sandbox.agrees_run hbare (fun _ _ => trivial) (fun _ _ => trivial) (.refl _ _)
  refine ⟨script, hscript, ?_, ?_⟩
  · intro hfault
    have hsession := hjoined.through (Sandbox.run_append (b := a') hstays hfault).symm
    exact ⟨hsession.log_eq, fun name => hsession.environment.column name trivial⟩
  · intro fault hfault
    have hfirst := hjoined.through (Sandbox.run_append_of_fault (b := a') hstays hfault).symm
    exact hfirst.log_eq

/-- A body with a loop, followed by one that declares a name and goes on with the first. -/
theorem isSession_joined_loops : ∃ a a' script,
    compile (framed "ghoshit_kar n = 0; yatha (n < 3) { n = n + 1; }") = .ok a
      ∧ compile (framed "prati_ghatak (; n < 5; n++) { prakashit_kar(n) }") = .ok a'
      ∧ compile (framed (joined "ghoshit_kar n = 0; yatha (n < 3) { n = n + 1; }"
          "prati_ghatak (; n < 5; n++) { prakashit_kar(n) }")) = .ok script
      ∧ script.IsSession a a' := by
  obtain ⟨a, ha⟩ := exists_eq_ok_of_isSome
    (x := compile (framed "ghoshit_kar n = 0; yatha (n < 3) { n = n + 1; }")) (by decide +kernel)
  obtain ⟨a', ha'⟩ := exists_eq_ok_of_isSome
    (x := compile (framed "prati_ghatak (; n < 5; n++) { prakashit_kar(n) }")) (by decide +kernel)
  obtain ⟨script, hscript, hsession⟩ := isSession_joined ha ha'
  exact ⟨a, a', script, ha, ha', hscript, hsession⟩

end Lipi
