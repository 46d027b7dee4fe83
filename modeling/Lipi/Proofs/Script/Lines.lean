/-
The lines of a listing.

A listing shows the names of the source as they stand and everything else in a form that
cannot break a line: texts are quoted, numbers and signs are spelled anew. So every command is
listed on lines that stay lines (`Command.quiet_listing`), and none of them looks like the
report of a failure. In a block a line begins with a blank. Outside all blocks it begins with
a word of the listing's own or a brace, none of which opens a report, or with a name that is
assigned to; the name may well be `Error`, but what follows it is a blank and not a colon.
An expression by itself could begin with anything, and is never a line of its own.

The lines of the text are those lines again (`isComplaint_of_mem_lines`), for a line feed ends
each and there is no other.
-/
import Lipi.Playground.OutputLine
import Lipi.Proofs.Script.Words
import Lipi.Proofs.Token.OneLine
import Lipi.Script.Listing

set_option autoImplicit false

namespace Lipi

open Text

/-! ## Reports -/

namespace Playground

/-- Whether a line is a report is seen at its beginning. -/
theorem isComplaint_of_prefix {front line : List Char} (h : front <+: line)
    (hfront : isComplaint front = true) : isComplaint line = true := by
  obtain ⟨words, hmem, hbegins⟩ := List.any_eq_true.mp hfront
  refine List.any_eq_true.mpr ⟨words, hmem, ?_⟩
  exact List.isPrefixOf_iff_prefix.mpr ((List.isPrefixOf_iff_prefix.mp hbegins).trans h)

/-- The first characters of reports. -/
def complaintInitials : List Char := ['E', 'T', 'P']

theorem isComplaint_cons {c : Char} (hc : c ∉ complaintInitials) (rest : List Char) :
    isComplaint (c :: rest) = false := by
  have hinitials : ∀ words ∈ complaintOpenings,
      words.toList.head?.any (complaintInitials.contains ·) = true := by decide
  rw [Bool.eq_false_iff]
  intro h
  obtain ⟨words, hmem, hbegins⟩ := List.any_eq_true.mp h
  obtain ⟨d, hhead, hd⟩ := (Option.any_eq_true ..).mp (hinitials words hmem)
  obtain ⟨tail, htail⟩ := List.head?_eq_some_iff.mp hhead
  have hfront : words.toList <+: c :: rest := List.isPrefixOf_iff_prefix.mp hbegins
  rw [htail, List.cons_prefix_cons] at hfront
  exact hc (hfront.1 ▸ List.contains_iff_mem.mp hd)

/-- A word that is assigned to opens no report. -/
theorem isComplaint_assignment {word : List Char}
    (hword : ∀ c ∈ word, Lexeme.isWordChar c = true) (rest : List Char) :
    isComplaint (word ++ ' ' :: '=' :: rest) = false := by
  -- What follows the first word of a report.
  have hends : ∀ words ∈ complaintOpenings,
      words.toList.dropWhile Lexeme.isWordChar = ":".toList
        ∨ words.toList.dropWhile Lexeme.isWordChar = " Error:".toList := by decide
  rw [Bool.eq_false_iff]
  intro h
  obtain ⟨words, hmem, hbegins⟩ := List.any_eq_true.mp h
  obtain ⟨tail, htail⟩ := List.isPrefixOf_iff_prefix.mp hbegins
  have hdrop := congrArg (List.dropWhile Lexeme.isWordChar) htail
  rw [List.dropWhile_append, List.dropWhile_append_of_pos hword] at hdrop
  rcases hends words hmem with hend | hend <;> rw [hend] at hdrop
  · exact absurd (List.cons.inj hdrop).1 (by decide)
  · exact absurd (List.cons.inj (List.cons.inj hdrop).2).1 (by decide)

end Playground

/-- A text that stays on one line, which is not taken for a report. -/
structure Quiet (line : String) : Prop where
  oneLine : OneLine line
  silent : Playground.isComplaint line.toList = false

/-- A line of a listing is quiet if its text is. -/
theorem Quiet.listingLine {text : String} (h : Quiet text) (depth : Nat) :
    Quiet (listingLine depth text) := by
  have hblanks : '\n' ∉ List.replicate (2 * depth) ' ' := by
    intro hmem
    exact absurd (List.eq_of_mem_replicate hmem) (by decide)
  refine ⟨oneLine_after hblanks h.oneLine, ?_⟩
  rw [Lipi.listingLine, String.toList_append, String.toList_ofList]
  cases depth with
  | zero => exact h.silent
  | succ depth => exact Playground.isComplaint_cons (by decide) _

/-- Whether a text begins as no report does. -/
def Innocent (text : String) : Prop :=
  text.toList.head?.any (fun c => c ∉ Playground.complaintInitials) = true

instance (text : String) : Decidable (Innocent text) := inferInstanceAs (Decidable (_ = true))

theorem Innocent.append {text : String} (h : Innocent text) (rest : String) :
    Innocent (text ++ rest) := by
  unfold Innocent at h ⊢
  rw [String.toList_append]
  cases htext : text.toList with
  | nil =>
    rw [htext] at h
    cases h
  | cons c tail =>
    rw [htext] at h
    exact h

theorem Innocent.quiet {text : String} (h : Innocent text) (hline : OneLine text) :
    Quiet text := by
  refine ⟨hline, ?_⟩
  unfold Innocent at h
  cases htext : text.toList with
  | nil => rfl
  | cons c tail =>
    rw [htext] at h
    exact Playground.isComplaint_cons (of_decide_eq_true h) tail

/-! ## Names and expressions -/

theorem Lexeme.IsWord.oneLine {word : String} (h : Lexeme.IsWord word) : OneLine word :=
  fun hmem => ne_lineFeed_of_isWordChar (h.forall_isWordChar _ hmem) rfl

theorem Value.oneLine_listed (v : Value) : OneLine v.listed := by
  cases v with
  | number x => exact oneLine_numberText x
  | text s => exact oneLine_quoted s
  | bool b => cases b <;> decide
  | null => decide

theorem UnaryOp.oneLine_symbol (op : UnaryOp) : OneLine op.symbol := by
  cases op <;> decide

theorem BinaryOp.oneLine_symbol (op : BinaryOp) : OneLine op.symbol := by
  cases op <;> decide

theorem UpdateOp.oneLine_symbol (op : UpdateOp) : OneLine op.symbol := by
  cases op <;> decide

theorem Expr.oneLine_assignSign (op : Option BinaryOp) : OneLine (assignSign op) := by
  cases op with
  | none => decide
  | some op => exact oneLine_append.mpr ⟨op.oneLine_symbol, by decide⟩

variable {source : List Token}

theorem Expr.oneLine_listed (hsource : Token.Spelled source) {e : Expr} (h : e.Within source) :
    OneLine e.listed := by
  induction e with
  | literal v => exact v.oneLine_listed
  | var name => exact (hsource.isWord h).oneLine
  | unary op operand ih => exact oneLine_append.mpr ⟨op.oneLine_symbol, ih h⟩
  | binary op left right ihleft ihright =>
    simp only [listed, oneLine_append]
    exact ⟨⟨⟨⟨⟨⟨by decide, ihleft h.1⟩, by decide⟩, op.oneLine_symbol⟩, by decide⟩, ihright h.2⟩,
      by decide⟩
  | assign name op value ih =>
    simp only [listed, oneLine_append]
    exact ⟨⟨⟨⟨(hsource.isWord h.1).oneLine, by decide⟩, oneLine_assignSign op⟩, by decide⟩, ih h.2⟩
  | update name op leading =>
    have hname := (hsource.isWord h).oneLine
    cases leading with
    | false => exact oneLine_append.mpr ⟨hname, op.oneLine_symbol⟩
    | true => exact oneLine_append.mpr ⟨op.oneLine_symbol, hname⟩

theorem oneLine_listedOrNothing (hsource : Token.Spelled source) {e : Option Expr}
    (h : ∀ x, e = some x → x.Within source) : OneLine (listedOrNothing e) := by
  cases e with
  | none => exact List.not_mem_nil
  | some e => exact Expr.oneLine_listed hsource (h e rfl)

theorem oneLine_intercalate {separator : String} (hseparator : OneLine separator)
    {texts : List String} (h : ∀ text ∈ texts, OneLine text) :
    OneLine (separator.intercalate texts) := by
  induction texts with
  | nil =>
    rw [String.intercalate_nil]
    exact List.not_mem_nil
  | cons text texts ih =>
    obtain ⟨hfirst, hrest⟩ := List.forall_mem_cons.mp h
    cases texts with
    | nil =>
      rw [String.intercalate_singleton]
      exact hfirst
    | cons next texts =>
      rw [String.intercalate_cons_cons, oneLine_append, oneLine_append]
      exact ⟨⟨hfirst, hseparator⟩, ih hrest⟩

/-! ## Commands -/

theorem innocent_listedDeclaration (mutability : Mutability) (name : String) (value : Expr) :
    Innocent (listedDeclaration mutability name value) := by
  have hkeyword : Innocent mutability.keyword := by cases mutability <;> decide
  exact ((hkeyword.append _).append _).append _ |>.append _

theorem oneLine_listedDeclaration (hsource : Token.Spelled source) (mutability : Mutability)
    {name : String} {value : Expr} (hname : .identifier name ∈ Token.kinds source)
    (hvalue : value.Within source) : OneLine (listedDeclaration mutability name value) := by
  have hkeyword : OneLine mutability.keyword := by cases mutability <;> decide
  simp only [listedDeclaration, oneLine_append]
  exact ⟨⟨⟨⟨hkeyword, by decide⟩, (hsource.isWord hname).oneLine⟩, by decide⟩,
    Expr.oneLine_listed hsource hvalue⟩

namespace LoopControl

variable {control : LoopControl} {initial : Option Command}

theorem oneLine_opening (hsource : Token.Spelled source) (h : control.Within source initial) :
    OneLine (listedOpening initial) := by
  cases initial with
  | none => exact List.not_mem_nil
  | some c =>
    have hc := h.opens c rfl
    cases c with
    | declare _ mutability _ _ => exact oneLine_listedDeclaration hsource mutability hc.1 hc.2
    | eval _ _ => exact Expr.oneLine_listed hsource hc
    | _ => exact hc.elim

theorem quiet_header (hsource : Token.Spelled source) (h : control.Within source initial) :
    Quiet (control.header initial) := by
  have hcondition := oneLine_listedOrNothing hsource h.condition
  unfold header
  cases control.form with
  | onCondition =>
    refine Innocent.quiet (Innocent.append (Innocent.append (by decide) _) _) ?_
    simp only [oneLine_append]
    exact ⟨⟨by decide, hcondition⟩, by decide⟩
  | counting =>
    refine Innocent.quiet ?_ ?_
    · exact Innocent.append (by decide) _ |>.append _ |>.append _ |>.append _ |>.append _
        |>.append _
    · simp only [oneLine_append]
      exact ⟨⟨⟨⟨⟨⟨by decide, oneLine_opening hsource h⟩, by decide⟩, hcondition⟩, by decide⟩,
        oneLine_listedOrNothing hsource h.increment⟩, by decide⟩

theorem oneLine_guardName (h : control.Within source initial) : OneLine control.guard.name := by
  obtain ⟨n, hn⟩ := h.guard
  rw [hn]
  exact oneLine_append.mpr ⟨by decide, oneLine_toString n⟩

theorem quiet_counter (h : control.Within source initial) :
    Quiet ("let " ++ control.guard.name ++ " = 0;") := by
  refine Innocent.quiet (Innocent.append (Innocent.append (by decide) _) _) ?_
  simp only [oneLine_append]
  exact ⟨⟨by decide, oneLine_guardName h⟩, by decide⟩

theorem quiet_limitTest (h : control.Within source initial) : Quiet (limitTest control.guard) := by
  refine Innocent.quiet ?_ ?_
  · exact Innocent.append (by decide) _ |>.append _ |>.append _ |>.append _ |>.append _
      |>.append _
  · simp only [limitTest, oneLine_append]
    exact ⟨⟨⟨⟨⟨⟨by decide, oneLine_guardName h⟩, by decide⟩, oneLine_toString _⟩, by decide⟩,
      oneLine_toString _⟩, by decide⟩

end LoopControl

theorem quiet_assignment (hsource : Token.Spelled source) {name : String} {value : Expr}
    (hname : .identifier name ∈ Token.kinds source) (hvalue : value.Within source) :
    Quiet (name ++ " = " ++ value.listed ++ ";") := by
  have hword := hsource.isWord hname
  constructor
  · simp only [oneLine_append]
    exact ⟨⟨⟨hword.oneLine, by decide⟩, Expr.oneLine_listed hsource hvalue⟩, by decide⟩
  · simp only [String.toList_append, List.append_assoc]
    exact Playground.isComplaint_assignment hword.forall_isWordChar _

theorem quiet_capture (hsource : Token.Spelled source) {arguments : List Expr}
    (h : ∀ e ∈ arguments, e.Within source) :
    Quiet ("__capture(() => [" ++ ", ".intercalate (arguments.map Expr.listed) ++ "]);") := by
  refine Innocent.quiet (Innocent.append (Innocent.append (by decide) _) _) ?_
  simp only [oneLine_append]
  refine ⟨⟨by decide, oneLine_intercalate (by decide) ?_⟩, by decide⟩
  exact List.forall_mem_map.mpr fun e he => Expr.oneLine_listed hsource (h e he)

mutual

/-- **A command is listed on lines that report nothing.** -/
theorem Command.quiet_listing (hsource : Token.Spelled source) (c : Command) (depth : Nat)
    (h : c.Within source) : ∀ line ∈ c.listing depth, Quiet line := by
  match c with
  | .declare _ mutability name value =>
    -- The keyword comes first, so the name makes no difference.
    refine List.forall_mem_singleton.mpr (Quiet.listingLine ?_ depth)
    refine ((innocent_listedDeclaration mutability name value).append _).quiet ?_
    exact oneLine_append.mpr ⟨oneLine_listedDeclaration hsource mutability h.1 h.2, by decide⟩
  | .assign _ _ _ =>
    exact List.forall_mem_singleton.mpr ((quiet_assignment hsource h.1 h.2).listingLine depth)
  | .capture _ _ =>
    exact List.forall_mem_singleton.mpr ((quiet_capture hsource h).listingLine depth)
  | .choice _ chain => exact chain.quiet_listing hsource depth h "if" (by decide) (by decide)
  | .loop control initial body =>
    obtain ⟨hcontrol, hbody⟩ := h
    rw [Command.listing, List.forall_mem_cons, List.forall_mem_cons, List.forall_mem_cons,
      List.forall_mem_append, List.forall_mem_singleton]
    exact ⟨(LoopControl.quiet_counter hcontrol).listingLine depth,
      (LoopControl.quiet_header hsource hcontrol).listingLine depth,
      (LoopControl.quiet_limitTest hcontrol).listingLine (depth + 1),
      Command.quiet_listingAll hsource body (depth + 1) hbody,
      Quiet.listingLine (Innocent.quiet (by decide) (by decide)) depth⟩
  | .breakLoop =>
    exact List.forall_mem_singleton.mpr
      (Quiet.listingLine (Innocent.quiet (by decide) (by decide)) depth)
  | .continueLoop =>
    exact List.forall_mem_singleton.mpr
      (Quiet.listingLine (Innocent.quiet (by decide) (by decide)) depth)
termination_by structural c

/-- The same for a chain. -/
theorem CommandChain.quiet_listing (hsource : Token.Spelled source) (c : CommandChain) (depth : Nat)
    (h : c.Within source) (word : String) (hword : Innocent word) (hline : OneLine word) :
    ∀ line ∈ c.listing depth word, Quiet line := by
  match c with
  | .test condition body rest =>
    obtain ⟨hcondition, hbody, hrest⟩ := h
    rw [CommandChain.listing, List.forall_mem_cons, List.forall_mem_append]
    refine ⟨Quiet.listingLine ?_ depth, Command.quiet_listingAll hsource body (depth + 1) hbody,
      rest.quiet_listing hsource depth hrest _ (by decide) (by decide)⟩
    refine (hword.append _ |>.append _ |>.append _).quiet ?_
    simp only [oneLine_append]
    exact ⟨⟨⟨hline, by decide⟩, Expr.oneLine_listed hsource hcondition⟩, by decide⟩
  | .otherwise body =>
    rw [CommandChain.listing, List.forall_mem_cons, List.forall_mem_append,
      List.forall_mem_singleton]
    exact ⟨Quiet.listingLine (Innocent.quiet (by decide) (by decide)) depth,
      Command.quiet_listingAll hsource body (depth + 1) h,
      Quiet.listingLine (Innocent.quiet (by decide) (by decide)) depth⟩
  | .done =>
    exact List.forall_mem_singleton.mpr
      (Quiet.listingLine (Innocent.quiet (by decide) (by decide)) depth)
termination_by structural c

/-- The same for a row of commands. -/
theorem Command.quiet_listingAll (hsource : Token.Spelled source) (cs : List Command) (depth : Nat)
    (h : Command.AllWithin source cs) : ∀ line ∈ Command.listingAll depth cs, Quiet line := by
  match cs with
  | [] => nofun
  | c :: cs =>
    rw [Command.listingAll, List.forall_mem_append]
    exact ⟨c.quiet_listing hsource depth h.1, Command.quiet_listingAll hsource cs depth h.2⟩
termination_by structural cs

end

/-! ## The text -/

/-- **No line of the listing of a compiled source is a report.** -/
theorem isComplaint_of_mem_lines {text : String} {script : Script}
    (h : compile text = .ok script) :
    ∀ line ∈ lines script.listing, Playground.isComplaint line = false := by
  obtain ⟨tokens, htokens, hbody⟩ := exists_within_of_compile h
  have hquiet := Command.quiet_listingAll (spelled_of_tokenize htokens) script.body 0
    hbody
  intro line hline
  -- A line of the text is a line of the listing, perhaps without a carriage return at its end.
  obtain ⟨whole, hmem, hfront⟩ := exists_prefix_of_mem_lines (fun l hl => (hquiet l hl).oneLine) hline
  rw [Bool.eq_false_iff]
  intro hcomplaint
  have := Playground.isComplaint_of_prefix hfront hcomplaint
  rw [(hquiet whole hmem).silent] at this
  cases this

end Lipi
