/-
The colours and the tokens agree.

Two programs look at a source: the scanner, which goes through the whole of it and is stopped by
the first mistake, and the playground, which colours it line by line and takes what it gets.
Where the scanner makes no mistake they see the same thing, apart from texts with a line feed in
them, which the playground takes for two quotes without partners.

The source is taken as the row of stretches that the scanner passes. Each of them begins and
ends outside comments for the playground, too, so it is drawn for itself (`paint_stretch`). What
is drawn of it stays within it, in the role of comments exactly if it is one (`Shows`), and a
text, a word or a number is drawn as one span (`Draws`). The rest follows for the row, and since
a character stands in one stretch only, also that nothing else is drawn as a comment
(`highlight_agrees`).
-/
import Lipi.Proofs.Playground.Cuts
import Lipi.Proofs.Token.Stretches

set_option autoImplicit false

namespace Lipi

namespace Playground

open Lexeme Text

/-! ## What is drawn of a stretch -/

/-- The role of a token that is drawn as one span: a text, a word, or a number that begins with
a digit. -/
def wholeRole? (span : List Char) : Token.Kind → Option Role
  | .text _ => some .text
  | .keyword _ => some (wordRole (String.ofList span))
  | .identifier _ => some (wordRole (String.ofList span))
  | .operator o => if o.isWord then some (wordRole (String.ofList span)) else none
  | .integer _ => if startsWithDigit span then some .number else none
  | .decimal _ => if startsWithDigit span then some .number else none
  | .symbol _ => none

/-- What may be drawn of a stretch that begins at an offset: spans of it, lines that begin in it
if it is a block comment, and the line that begins behind it. -/
inductive Shows (o : Nat) (s : Stretch) : Nat × Mark → Prop where
  | span {x : Nat} {t : Span} (hfrom : o ≤ x) (hto : x + t.text.length ≤ o + s.text.length)
      (hrole : t.role = .comment ↔ s.isComment = true) : Shows o s (x, .span t)
  | within {x : Nat} (hblock : s.isBlock = true) (hfrom : o < x) (hto : x < o + s.text.length) :
      Shows o s (x, .line true)
  | behind (hpos : 0 < s.text.length) : Shows o s (o + s.text.length, .line false)

/-- What is drawn of a stretch. -/
structure Draws (o : Nat) (s : Stretch) (drawn : List (Nat × Mark)) : Prop where
  each : ∀ m ∈ drawn, Shows o s m
  whole : ∀ span kind role, s = .token span kind → wholeRole? span kind = some role →
    drawn = [(o, .span ⟨span, role⟩)]

/-- A stretch in front of a rest is drawn for itself. -/
def DrawnApart (o : Nat) (s : Stretch) (text : List Char) : Prop :=
  ∃ drawn, paint false o (s.text ++ text) = drawn ++ paint false (o + s.text.length) text
    ∧ Draws o s drawn

variable {s : Stretch} {c : Char} {span text body : List Char} {kind : Token.Kind} {o : Nat}

theorem signRole_ne_comment (c : Char) : signRole c ≠ .comment := by
  unfold signRole
  split
  · decide
  · decide

theorem wordRole_ne_comment (word : String) : wordRole word ≠ .comment := by
  unfold wordRole
  split
  · split
    · decide
    · decide
  · split <;> decide

/-- Only comments are drawn in their style. -/
theorem style_eq_comment_iff (role : Role) : role.style = Role.comment.style ↔ role = .comment := by
  cases role <;> decide

theorem wholeRole?_wordKind (span : List Char) (word : String) :
    wholeRole? span (wordKind word) = some (wordRole (String.ofList span)) := by
  unfold wordKind
  split
  · rfl
  · rfl

/-- Layout is drawn in any way that it shows. -/
theorem Draws.of_layout {drawn : List (Nat × Mark)} (hs : ∀ span kind, s ≠ .token span kind)
    (h : ∀ m ∈ drawn, Shows o s m) : Draws o s drawn :=
  ⟨h, fun _ _ _ he => absurd he (hs _ _)⟩

/-- Layout of which nothing is drawn. -/
theorem DrawnApart.of_nothing (hs : ∀ span kind, s ≠ .token span kind)
    (h : paint false o (s.text ++ text) = paint false (o + s.text.length) text) :
    DrawnApart o s text :=
  ⟨[], h, .of_layout hs nofun⟩

/-- Layout of which one thing is drawn. -/
theorem DrawnApart.of_mark {m : Nat × Mark} (hs : ∀ span kind, s ≠ .token span kind)
    (hshows : Shows o s m)
    (h : paint false o (s.text ++ text) = m :: paint false (o + s.text.length) text) :
    DrawnApart o s text := by
  refine ⟨[m], h, .of_layout hs ?_⟩
  intro m' hm'
  rw [List.mem_singleton.mp hm']
  exact hshows

/-- A token that is drawn as one span. -/
theorem DrawnApart.of_span {role : Role} (hrole : role ≠ .comment)
    (hwhole : ∀ r, wholeRole? span kind = some r → r = role)
    (h : paint false o (span ++ text)
      = (o, .span ⟨span, role⟩) :: paint false (o + span.length) text) :
    DrawnApart o (.token span kind) text := by
  refine ⟨[(o, .span ⟨span, role⟩)], h, ?_, ?_⟩
  · intro m hm
    rw [List.mem_singleton.mp hm]
    exact .span (Nat.le_refl _) (Nat.le_refl _) (iff_of_false hrole Bool.false_ne_true)
  · intro span' kind' r he hr
    cases he
    rw [hwhole r hr]

/-- A token that is drawn as several. -/
theorem DrawnApart.of_spans {spans : List Span} (hnone : wholeRole? span kind = none)
    (hroles : ∀ t ∈ spans, t.role ≠ .comment) (htext : spans.flatMap (·.text) = span)
    (h : paint false o (span ++ text)
      = placeSpans o spans ++ paint false (o + span.length) text) :
    DrawnApart o (.token span kind) text := by
  refine ⟨placeSpans o spans, h, ?_, ?_⟩
  · intro m hm
    obtain ⟨before, t, after, hspans, rfl⟩ := exists_of_mem_placeSpans hm
    have hrole : t.role ≠ .comment := by
      apply hroles
      rw [hspans]
      exact List.mem_append_right _ (List.mem_cons_self ..)
    have hlength := congrArg List.length htext
    rw [hspans, List.flatMap_append, List.flatMap_cons, List.length_append,
      List.length_append] at hlength
    refine .span (Nat.le_add_right _ _) ?_ (iff_of_false hrole Bool.false_ne_true)
    show _ ≤ o + span.length
    omega
  · intro span' kind' r he hr
    cases he
    rw [hnone] at hr
    cases hr

/-! ## Tokens -/

theorem flatMap_text_signs (signs : List Char) :
    (signs.map fun c => (⟨[c], signRole c⟩ : Span)).flatMap (·.text) = signs := by
  induction signs with
  | nil => rfl
  | cons c signs ih =>
    rw [List.map_cons, List.flatMap_cons, ih]
    rfl

theorem role_signs_ne_comment (signs : List Char) :
    ∀ t ∈ signs.map fun c => (⟨[c], signRole c⟩ : Span), t.role ≠ .comment := by
  intro t ht
  obtain ⟨c, -, rfl⟩ := List.mem_map.mp ht
  exact signRole_ne_comment c

/-- Signs that are no slash and begin nothing else. -/
def plainSign (c : Char) : Bool := isSign c && c != '\n' && c != '\r' && c != '/'

/-- A token of signs. -/
theorem DrawnApart.of_signs (hnone : wholeRole? span kind = none)
    (h : span.all plainSign = true) (o : Nat) (text : List Char) :
    DrawnApart o (.token span kind) text := by
  have hplain : ∀ c ∈ span, plainSign c = true := List.all_eq_true.mp h
  simp only [plainSign, Bool.and_eq_true, bne_iff_ne] at hplain
  refine .of_spans hnone (role_signs_ne_comment span) (flatMap_text_signs span) ?_
  apply paint_signs
  · intro c hc
    exact (hplain c hc).1.1.1
  · intro c hc
    exact ⟨(hplain c hc).1.1.2, (hplain c hc).1.2, (hplain c hc).2⟩

/-- An operator in words is made of letters. -/
theorem exists_letters_of_isWord {op : Operator} (h : op.isWord = true) :
    ∃ c tail, op.spelling.toList = c :: tail ∧ c.isAlpha = true
      ∧ ∀ d ∈ tail, isWordChar d = true := by
  have hletters : op.spelling.toList.all Char.isAlpha = true := by
    revert h
    cases op <;> decide
  obtain ⟨c, tail, hspelling⟩ :=
    List.exists_cons_of_ne_nil (List.length_pos_iff.mp (spelling_length_pos op))
  rw [hspelling, List.all_cons, Bool.and_eq_true, List.all_eq_true] at hletters
  exact ⟨c, tail, hspelling, hletters.1, fun d hd => isWordChar_of_isAlpha (.inl (hletters.2 d hd))⟩

/-- Other operators are made of signs. -/
theorem plainSign_of_not_isWord {op : Operator} (h : op.isWord = false) (hslash : op ≠ .slash) :
    op.spelling.toList.all plainSign = true := by
  revert h hslash
  cases op <;> decide

theorem drawnApart_operator (op : Operator) (hstops : Stops (.operator op) text) (o : Nat) :
    DrawnApart o (.token op.spelling.toList (.operator op)) text := by
  cases hop : op.isWord with
  | true =>
    obtain ⟨c, tail, hspelling, hc, htail⟩ := exists_letters_of_isWord hop
    have hafter : ∀ d, text.head? = some d → isWordChar d = false := by
      intro d hd
      rw [← goesOn_of_isWord hop]
      exact hstops d hd
    rw [hspelling]
    refine .of_span (wordRole_ne_comment _) ?_ (paint_word (.inl hc) htail hafter o)
    intro r hr
    rw [wholeRole?, if_pos hop] at hr
    exact (Option.some.inj hr).symm
  | false =>
    have hnone : wholeRole? op.spelling.toList (.operator op) = none := by
      rw [wholeRole?, if_neg (Bool.eq_false_iff.mp hop)]
    by_cases hslash : op = .slash
    · rw [hslash] at hstops ⊢
      refine .of_spans rfl (role_signs_ne_comment ['/']) rfl ?_
      exact paint_sign rfl (by decide) (fun he => absurd he (by decide)) (fun _ => hstops) o
    · exact .of_signs hnone (plainSign_of_not_isWord hop hslash) o text

theorem drawnApart_integer {digits : List Char} (hne : digits ≠ [])
    (hdigits : ∀ c ∈ digits, c.isDigit = true) {n : Nat} (hstops : Stops (.integer n) text)
    (o : Nat) : DrawnApart o (.token digits (.integer n)) text := by
  obtain ⟨c, tail, rfl⟩ := List.exists_cons_of_ne_nil hne
  obtain ⟨hc, htail⟩ := List.forall_mem_cons.mp hdigits
  have hnumber : ∀ d ∈ tail, isNumberChar d = true := by
    intro d hd
    rw [isNumberChar, htail d hd, Bool.true_or]
  refine .of_span (by decide) ?_ (paint_number hc hnumber hstops o)
  intro r hr
  rw [wholeRole?, startsWithDigit, if_pos hc] at hr
  exact (Option.some.inj hr).symm

theorem drawnApart_decimal {whole fraction : List Char} (hwhole : ∀ c ∈ whole, c.isDigit = true)
    (hfraction : ∀ c ∈ fraction, c.isDigit = true) (hne : fraction ≠ []) {x : Float}
    (hstops : Stops (.decimal x) text) (o : Nat) :
    DrawnApart o (.token (whole ++ '.' :: fraction) (.decimal x)) text := by
  have hnumber : ∀ d ∈ fraction, isNumberChar d = true := by
    intro d hd
    rw [isNumberChar, hfraction d hd, Bool.true_or]
  cases whole with
  | nil =>
    -- The point is a sign, and the number begins behind it.
    obtain ⟨c, tail, rfl⟩ := List.exists_cons_of_ne_nil hne
    have hpoint : paint false o ('.' :: (c :: tail ++ text)) = _ :=
      paint_sign rfl (by decide) (fun he => absurd he (by decide))
        (fun he => absurd he (by decide)) o
    rw [paint_number (hfraction c (List.mem_cons_self ..)) (List.forall_mem_cons.mp hnumber).2
      hstops (o + 1), Nat.add_right_comm] at hpoint
    have hroles : ∀ t ∈ [(⟨['.'], signRole '.'⟩ : Span), ⟨c :: tail, .number⟩],
        t.role ≠ .comment := by
      intro t ht
      rw [List.mem_cons, List.mem_singleton] at ht
      rcases ht with rfl | rfl
      · exact signRole_ne_comment '.'
      · show Role.number ≠ Role.comment
        decide
    refine .of_spans rfl hroles ?_ hpoint
    rw [List.flatMap_cons, List.flatMap_cons, List.flatMap_nil, List.append_nil]
    rfl
  | cons c whole =>
    obtain ⟨hc, hwhole⟩ := List.forall_mem_cons.mp hwhole
    have htail : ∀ d ∈ whole ++ '.' :: fraction, isNumberChar d = true := by
      intro d hd
      rcases List.mem_append.mp hd with hd | hd
      · rw [isNumberChar, hwhole d hd, Bool.true_or]
      · rcases List.mem_cons.mp hd with rfl | hd
        · rfl
        · exact hnumber d hd
    refine .of_span (by decide) ?_ (paint_number hc htail hstops o)
    intro r hr
    rw [wholeRole?, List.cons_append, startsWithDigit, if_pos hc] at hr
    exact (Option.some.inj hr).symm

/-- A token is drawn for itself, if it has no line feed in it. -/
theorem drawnApart_token (h : Spells span kind) (hstops : Stops kind text)
    (htext : ∀ value, kind = .text value → '\n' ∉ span) (o : Nat) :
    DrawnApart o (.token span kind) text := by
  cases h with
  | @text quote source _ hquote hquotes =>
    have hfeed : '\n' ∉ source := by
      intro hmem
      exact htext _ rfl (List.mem_cons_of_mem _ (List.mem_append_left _ hmem))
    refine .of_span (by decide) ?_ (paint_text hquote hquotes hfeed o text)
    intro r hr
    exact (Option.some.inj hr).symm
  | integer hne hdigits _ => exact drawnApart_integer hne hdigits hstops o
  | decimal hwhole hfraction hne => exact drawnApart_decimal hwhole hfraction hne hstops o
  | operator op => exact drawnApart_operator op hstops o
  | symbol sign => exact .of_signs rfl (by cases sign <;> decide) o text
  | word hc htail _ =>
    have hafter : ∀ d, text.head? = some d → isWordChar d = false := by
      intro d hd
      rw [← goesOn_wordKind]
      exact hstops d hd
    refine .of_span (wordRole_ne_comment _) ?_ (paint_word hc htail hafter o)
    intro r hr
    rw [wholeRole?_wordKind] at hr
    exact (Option.some.inj hr).symm

/-! ## Layout -/

/-- A blank stands by itself. -/
theorem isSign_of_isBlank (h : isBlank c = true) : isSign c = true := by
  have hword : isWordChar c = false := by
    rw [Bool.eq_false_iff]
    intro hword
    rw [isBlank_eq_false_of_isWordChar hword] at h
    cases h
  have hquote : c ≠ '"' ∧ c ≠ '\'' := by
    constructor
    · rintro rfl
      cases h
    · rintro rfl
      cases h
  simp [isSign, hword, hquote]

theorem drawnApart_blank (hblank : isBlank c = true) (o : Nat) (text : List Char) :
    DrawnApart o (.blank c) text := by
  have hlayout : ∀ span kind, Stretch.blank c ≠ .token span kind := fun _ _ => Stretch.noConfusion
  by_cases hfeed : c = '\n'
  · -- Behind a line feed a line begins, unless the source is over.
    have hpaint := paint_lineFeed_cons false o text
    rw [marksOf_placedFrom, ← hfeed] at hpaint
    by_cases htext : text = []
    · rw [if_pos htext] at hpaint
      refine .of_nothing hlayout (hpaint.trans ?_)
      rw [htext, paint_nil]
    · rw [if_neg htext] at hpaint
      exact .of_mark hlayout (.behind Nat.one_pos) hpaint
  by_cases hreturn : c = '\r' ∧ text.head? = some '\n'
  · -- A carriage return in front of a line feed is not drawn.
    obtain ⟨rfl, hhead⟩ := hreturn
    obtain ⟨rest, rfl⟩ := List.head?_eq_some_iff.mp hhead
    have hline : paint false o (['\r'] ++ '\n' :: rest) = _ :=
      paint_lineFeed (by decide) false o rest
    have hended : endedLine ['\r'].reverse = [] := rfl
    rw [hended, highlightLine_nil] at hline
    apply DrawnApart.of_nothing hlayout
    rw [paint_lineFeed_cons]
    exact hline
  · have hslash : c ≠ '/' := by
      rintro rfl
      cases hblank
    have hrole : signRole c = .comment ↔ false = true :=
      iff_of_false (signRole_ne_comment c) Bool.false_ne_true
    exact .of_mark hlayout (.span (Nat.le_refl _) (Nat.le_refl _) hrole)
      (paint_sign (isSign_of_isBlank hblank) hfeed (fun hc hhead => hreturn ⟨hc, hhead⟩)
        (fun hc => absurd hc hslash) o)

/-- A span of a comment. -/
theorem Shows.of_comment (hs : s.isComment = true) {k : Nat} {piece : List Char} (hfrom : o ≤ k)
    (hto : k + piece.length ≤ o + s.text.length) : Shows o s (k, .span ⟨piece, .comment⟩) :=
  .span hfrom hto (iff_of_true rfl hs)

theorem drawnApart_line (hbody : '\n' ∉ body) (hafter : ∀ c, text.head? = some c → c = '\n')
    (o : Nat) : DrawnApart o (.line body) text := by
  have hlayout : ∀ span kind, Stretch.line body ≠ .token span kind := fun _ _ => Stretch.noConfusion
  have hline : '\n' ∉ '/' :: '/' :: body := by
    rw [List.mem_cons, List.mem_cons, not_or, not_or]
    exact ⟨by decide, by decide, hbody⟩
  cases text with
  | nil =>
    refine .of_mark hlayout (.of_comment rfl (Nat.le_refl _) (Nat.le_refl _)) ?_
    rw [Stretch.text, List.append_nil, paint_last hline, highlightLine_lineComment, paint_nil]
    rfl
  | cons c rest =>
    rw [hafter c rfl]
    have hended : endedLine ('/' :: '/' :: body).reverse
        = '/' :: '/' :: endedLine body.reverse := by
      have hopening : body = [] → ['/', '/'].getLast? ≠ some '\r' := fun _ => by decide
      exact endedLine_append hopening
    have hlength : o + ('/' :: '/' :: endedLine body.reverse).length
        ≤ o + (Stretch.line body).text.length := by
      have hle := (endedLine_begins body).length_le
      simp only [Stretch.text, List.length_cons]
      omega
    refine .of_mark hlayout (.of_comment rfl (Nat.le_refl _) hlength) ?_
    rw [Stretch.text, paint_lineFeed hline, hended, highlightLine_lineComment,
      paint_lineFeed_cons]
    rfl

/-- The rest of a block comment, line by line. -/
theorem paint_body (hblock : s.isBlock = true) (hcomment : s.isComment = true) {k : Nat}
    (h : ¬ ['*', '/'] <:+: body) (text : List Char) (ho : o < k)
    (hk : k + (body ++ ['*', '/']).length ≤ o + s.text.length) :
    ∃ drawn, paint true k (body ++ ['*', '/'] ++ text)
        = drawn ++ paint false (k + (body ++ ['*', '/']).length) text
      ∧ ∀ m ∈ drawn, Shows o s m := by
  induction body using line_induction generalizing k with
  | last line hline =>
    refine ⟨[_], paint_closing hline h k text, ?_⟩
    intro m hm
    rw [List.mem_singleton.mp hm]
    exact .of_comment hcomment (Nat.le_of_lt ho) hk
  | next line rest hline ih =>
    have hleft : ¬ ['*', '/'] <:+: endedLine line.reverse := by
      intro hclosing
      apply h
      exact (hclosing.trans (endedLine_begins line).isInfix).trans (List.prefix_append _ _).isInfix
    have hright : ¬ ['*', '/'] <:+: rest := by
      intro hclosing
      apply h
      exact hclosing.trans ⟨line ++ ['\n'], [], by simp⟩
    have hlength : k + (line ++ '\n' :: rest ++ ['*', '/']).length
        = k + line.length + 1 + (rest ++ ['*', '/']).length := by
      simp only [List.length_append, List.length_cons]
      omega
    rw [hlength] at hk ⊢
    obtain ⟨drawn, hpaint, hdrawn⟩ := ih hright (Nat.lt_succ_of_le (by omega)) hk
    have hne : rest ++ ['*', '/'] ++ text ≠ [] := by simp
    have htext : line ++ '\n' :: rest ++ ['*', '/'] ++ text
        = line ++ '\n' :: (rest ++ ['*', '/'] ++ text) := by simp
    refine ⟨placeSpans k (if endedLine line.reverse = [] then []
        else [⟨endedLine line.reverse, .comment⟩]) ++ (k + line.length + 1, .line true) :: drawn,
      ?_, ?_⟩
    · rw [htext, paint_lineFeed hline, highlightLine_open hleft, marksOf_placedFrom, if_neg hne,
        hpaint, List.append_assoc]
      rfl
    · intro m hm
      rcases List.mem_append.mp hm with hm | hm
      · split at hm
        · cases hm
        · rw [placeSpans, placeSpans, List.mem_singleton] at hm
          rw [hm]
          have hle := (endedLine_begins line).length_le
          exact .of_comment hcomment (Nat.le_of_lt ho) (by omega)
      · rcases List.mem_cons.mp hm with rfl | hm
        · refine .within hblock (by omega) ?_
          rw [List.length_append] at hk
          have htwo : ['*', '/'].length = 2 := rfl
          omega
        · exact hdrawn m hm

theorem drawnApart_block (h : ¬ ['*', '/'] <:+: body) (o : Nat) (text : List Char) :
    DrawnApart o (.block body) text := by
  have hlength : o + 2 + (body ++ ['*', '/']).length = o + (Stretch.block body).text.length := by
    rw [Stretch.text, List.length_cons, List.length_cons]
    omega
  obtain ⟨drawn, hpaint, hdrawn⟩ := paint_body (s := .block body) (o := o) rfl rfl h text
    (Nat.lt_add_of_pos_right Nat.two_pos) (Nat.le_of_eq hlength)
  refine ⟨(o, .span ⟨['/', '*'], .comment⟩) :: drawn, ?_,
    .of_layout (fun _ _ => Stretch.noConfusion) ?_⟩
  · rw [← hlength, List.cons_append, ← hpaint]
    exact paint_opening o _
  · intro m hm
    rcases List.mem_cons.mp hm with rfl | hm
    · refine .of_comment rfl (Nat.le_refl _) ?_
      rw [← hlength]
      simp
    · exact hdrawn m hm

/-- **A stretch is drawn for itself.** -/
theorem paint_stretch (h : s.Stands text)
    (htext : ∀ span value, s = .token span (.text value) → '\n' ∉ span) (o : Nat) :
    DrawnApart o s text := by
  cases h with
  | blank hblank => exact drawnApart_blank hblank o text
  | line hbody hafter => exact drawnApart_line hbody hafter o
  | block hbody => exact drawnApart_block hbody o text
  | token hspan hstops =>
    refine drawnApart_token hspan hstops ?_ o
    intro value hkind
    rw [hkind] at htext
    exact htext _ value rfl

/-! ## The whole source -/

/-- No text has a line feed in its source. -/
def OneLineTexts (stretches : List Stretch) : Prop :=
  ∀ span value, .token span (.text value) ∈ stretches → '\n' ∉ span

variable {stretches : List Stretch}

theorem OneLineTexts.of_cons (h : OneLineTexts (s :: stretches)) :
    (∀ span value, s = .token span (.text value) → '\n' ∉ span) ∧ OneLineTexts stretches := by
  constructor
  · intro span value he
    rw [he] at h
    exact h span value (List.mem_cons_self ..)
  · intro span value hmem
    exact h span value (List.mem_cons_of_mem _ hmem)

/-- **A row of stretches is drawn stretch by stretch**: everything that is drawn belongs to one
of them. -/
theorem exists_shows_of_mem_paint (h : Stretched text stretches) (htexts : OneLineTexts stretches)
    {m : Nat × Mark} (hm : m ∈ paint false o text) :
    ∃ o' s, (o', s) ∈ Stretch.placed o stretches ∧ Shows o' s m := by
  induction h generalizing o with
  | nil => cases hm
  | @cons s rest stretches hstands _ ih =>
    obtain ⟨htext, hrest⟩ := htexts.of_cons
    obtain ⟨drawn, hpaint, hdrawn⟩ := paint_stretch hstands htext o
    rw [hpaint] at hm
    rcases List.mem_append.mp hm with hm | hm
    · exact ⟨o, s, List.mem_cons_self .., hdrawn.each m hm⟩
    · obtain ⟨o', s', hplaced, hshows⟩ := ih hrest hm
      exact ⟨o', s', List.mem_cons_of_mem _ hplaced, hshows⟩

/-- What is drawn as one span is drawn. -/
theorem mem_paint_of_whole (h : Stretched text stretches) (htexts : OneLineTexts stretches)
    {k : Nat} {role : Role} (hplaced : (k, .token span kind) ∈ Stretch.placed o stretches)
    (hrole : wholeRole? span kind = some role) : (k, .span ⟨span, role⟩) ∈ paint false o text := by
  induction h generalizing o with
  | nil => cases hplaced
  | @cons s rest stretches hstands _ ih =>
    obtain ⟨htext, hrest⟩ := htexts.of_cons
    obtain ⟨drawn, hpaint, hdrawn⟩ := paint_stretch hstands htext o
    rw [hpaint]
    rw [Stretch.placed] at hplaced
    rcases List.mem_cons.mp hplaced with heq | hplaced
    · cases heq
      rw [hdrawn.whole span kind role rfl hrole]
      exact List.mem_append_left _ (List.mem_cons_self ..)
    · exact List.mem_append_right _ (ih hrest hplaced)

/-- The colours agree with the stretches of a source. -/
structure Agrees (source : String) (stretches : List Stretch) : Prop where
  /-- A line is taken to begin in a comment exactly if it begins in a block comment. -/
  line_iff : ∀ x b, (x, .line b) ∈ marks source →
    (b = true ↔ ∃ o body, (o, .block body) ∈ Stretch.placed 0 stretches
      ∧ o < x ∧ x < o + (Stretch.block body).text.length)
  /-- A character that is drawn has the style of comments exactly if it stands in a comment. -/
  comment_iff : ∀ x t, (x, .span t) ∈ marks source → ∀ i < t.text.length,
    (t.role.style = Role.comment.style ↔ ∃ o s, (o, s) ∈ Stretch.placed 0 stretches
      ∧ s.isComment = true ∧ o ≤ x + i ∧ x + i < o + s.text.length)
  /-- A text, a word, or a number that begins with a digit is one span. -/
  whole : ∀ o span kind role, (o, .token span kind) ∈ Stretch.placed 0 stretches →
    wholeRole? span kind = some role → (o, .span ⟨span, role⟩) ∈ marks source

/-- What is drawn of a source begins with its first line. -/
theorem marks_eq (source : String) : marks source
    = if source.toList = [] then [] else (0, .line false) :: paint false 0 source.toList :=
  marksOf_placedFrom false 0 source.toList

theorem mem_marks_iff {source : String} {m : Nat × Mark} :
    m ∈ marks source ↔ (source.toList ≠ [] ∧ m = (0, .line false))
      ∨ m ∈ paint false 0 source.toList := by
  rw [marks_eq]
  by_cases hnil : source.toList = []
  · rw [if_pos hnil, hnil, paint_nil]
    simp
  · rw [if_neg hnil, List.mem_cons]
    simp [hnil]

theorem agrees_of_stretched {source : String} (h : Stretched source.toList stretches)
    (htexts : OneLineTexts stretches) : Agrees source stretches := by
  refine ⟨?_, ?_, ?_⟩
  · intro x b hm
    rcases mem_marks_iff.mp hm with ⟨-, heq⟩ | hm
    · -- No comment begins before the first line.
      cases heq
      refine iff_of_false Bool.false_ne_true ?_
      rintro ⟨o, body, -, hlt, -⟩
      exact Nat.not_lt_zero o hlt
    · obtain ⟨o, s, hplaced, hshows⟩ := exists_shows_of_mem_paint h htexts hm
      cases hshows with
      | within hblock hfrom hto =>
        cases s with
        | block body => exact iff_of_true rfl ⟨o, body, hplaced, hfrom, hto⟩
        | _ => cases hblock
      | behind hpos =>
        refine iff_of_false Bool.false_ne_true ?_
        rintro ⟨o', body, hplaced', hfrom, hto⟩
        -- The character before the line would stand in the comment as well.
        have hsame := Stretch.eq_of_mem_placed (x := o + s.text.length - 1) hplaced hplaced'
          (by omega) (by omega) (by omega) (by omega)
        rw [← hsame.1, ← hsame.2] at hto
        exact Nat.lt_irrefl _ hto
  · intro x t hm i hi
    rw [style_eq_comment_iff]
    rcases mem_marks_iff.mp hm with ⟨-, heq⟩ | hm
    · cases heq
    · obtain ⟨o, s, hplaced, hshows⟩ := exists_shows_of_mem_paint h htexts hm
      cases hshows with
      | span hfrom hto hrole =>
        rw [hrole]
        constructor
        · intro hcomment
          exact ⟨o, s, hplaced, hcomment, by omega, by omega⟩
        · rintro ⟨o', s', hplaced', hcomment, hfrom', hto'⟩
          have hsame := Stretch.eq_of_mem_placed (x := x + i) hplaced hplaced' (by omega)
            (by omega) hfrom' hto'
          rw [hsame.2]
          exact hcomment
  · intro o span kind role hplaced hrole
    exact mem_marks_iff.mpr (.inr (mem_paint_of_whole h htexts hplaced hrole))

/-- **The colours and the tokens agree.** A source that can be read is a row of stretches, and
whatever row of stretches it is, the row has the tokens that are read; and if no text in it has
a line feed in its source, it is coloured as the row says. -/
theorem highlight_agrees {source : String} {tokens : List Token}
    (h : tokenize source = .ok tokens) :
    (∃ stretches, Stretched source.toList stretches)
      ∧ ∀ stretches, Stretched source.toList stretches →
        Stretch.tokens .start stretches = tokens
          ∧ (OneLineTexts stretches → Agrees source stretches) := by
  obtain ⟨hexists, htokens⟩ := stretched_of_tokenize h
  refine ⟨hexists, fun stretches hstretched => ⟨htokens stretches hstretched, fun htexts => ?_⟩⟩
  exact agrees_of_stretched hstretched htexts

theorem highlight_agrees_mixed : ∃ stretches : List Stretch,
    stretches = [.token ['n', 'a'] (.operator .wordNot), .block ['\r', '\n'],
      .token ['\'', '/', '/', '\''] (.text "//")]
    ∧ tokenize "na/*\r\n*/'//'" = .ok (Stretch.tokens .start stretches)
    ∧ Stretched "na/*\r\n*/'//'".toList stretches ∧ OneLineTexts stretches
    ∧ Agrees "na/*\r\n*/'//'" stretches := by
  have hstops : ∀ rest, Stops (.operator .wordNot) ('/' :: rest) := by
    intro rest c hc
    cases hc
    rfl
  have hbody : ¬ ['*', '/'] <:+: ['\r', '\n'] := by decide
  have hquotes : Quotes '\'' ['/', '/'] ['/', '/'] :=
    .plain (by decide) (by decide) (.plain (by decide) (by decide) .nil)
  have hstretched := Stretched.cons (.token (.operator .wordNot) (hstops _)) <|
    .cons (.block hbody) <| .cons (.token (.text (.inr rfl) hquotes) (stops_nil _)) .nil
  have htexts : OneLineTexts [.token ['n', 'a'] (.operator .wordNot), .block ['\r', '\n'],
      .token ['\'', '/', '/', '\''] (.text "//")] := by
    intro span value hmem
    simp only [List.mem_cons, List.not_mem_nil, Stretch.token.injEq] at hmem
    rcases hmem with ⟨-, hkind⟩ | hmem | ⟨rfl, -⟩ | hmem
    · cases hkind
    · cases hmem
    · decide
    · cases hmem
  have hread : tokenize "na/*\r\n*/'//'" = .ok _ :=
    Scanner.tokensFrom_of_stretched hstretched .start
  exact ⟨_, rfl, hread, hstretched, htexts, ((highlight_agrees hread).2 _ hstretched).2 htexts⟩

end Playground

end Lipi
