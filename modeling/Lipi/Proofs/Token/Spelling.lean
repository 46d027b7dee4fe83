/-
What a lexeme is, said without reading it.

`Lexeme.Spells` gives the spans of characters that spell a token: a quoted text with its
escapes resolved, digits with or without a point, an operator, a symbol, a word. Spans do
not decide alone where they end, for many a span is the beginning of another. What may
follow one is said by its next character (`Lexeme.Stops`), and one character is enough.

The front of a text is read as a token exactly if a span that spells the token stands
there and what comes next stops it (`front_of_spells`, `exists_spells_of_front`). For
operators this rests on the order of the lexicon: no operator in it begins one that comes
later, so the first that stands at a place is the longest (`operator?_eq_some_iff`).
-/
import Lipi.Proofs.Token.Spacing

set_option autoImplicit false

namespace Lipi

namespace Lexeme

/-! ## Spans -/

/-- What stands between quotes in a source, and the text that it means. -/
inductive Quotes (quote : Char) : List Char → List Char → Prop where
  | nil : Quotes quote [] []
  | plain {c : Char} {source text : List Char} (hquote : c ≠ quote) (hescape : c ≠ '\\')
      (h : Quotes quote source text) : Quotes quote (c :: source) (c :: text)
  | escaped (c : Char) {source text : List Char} (h : Quotes quote source text) :
      Quotes quote ('\\' :: c :: source) (unescaped c :: text)

/-- The spans that spell a token. -/
inductive Spells : List Char → Token.Kind → Prop where
  | text {quote : Char} {source text : List Char} (hquote : quote = '"' ∨ quote = '\'')
      (h : Quotes quote source text) :
      Spells (quote :: (source ++ [quote])) (.text (String.ofList text))
  | integer {digits : List Char} (hne : digits ≠ []) (hdigits : ∀ c ∈ digits, c.isDigit = true)
      (hlimit : Decimal.ofDigits digits ≤ integerLimit) :
      Spells digits (.integer (Decimal.ofDigits digits))
  | decimal {whole fraction : List Char} (hwhole : ∀ c ∈ whole, c.isDigit = true)
      (hfraction : ∀ c ∈ fraction, c.isDigit = true) (hne : fraction ≠ []) :
      Spells (whole ++ '.' :: fraction) (.decimal (Numeral.toFloat ⟨false, whole, fraction, 0⟩))
  | operator (o : Operator) : Spells o.spelling.toList (.operator o)
  | symbol (s : Symbol) : Spells [s.char] (.symbol s)
  | word {c : Char} {tail : List Char} (hc : c.isAlpha = true ∨ c = '_')
      (htail : ∀ d ∈ tail, isWordChar d = true) (hoperator : ∀ o : Operator, o.spelling.toList ≠ c :: tail) :
      Spells (c :: tail) (wordKind (String.ofList (c :: tail)))

/-- The characters that would not be left behind a token. After a slash two of them begin a
comment. -/
def goesOn : Token.Kind → Char → Bool
  | .keyword _, c => isWordChar c
  | .identifier _, c => isWordChar c
  | .integer _, c => c.isDigit || c == '.'
  | .decimal _, c => c.isDigit || c == '.'
  | .operator .assign, c => c == '='
  | .operator .lt, c => c == '='
  | .operator .gt, c => c == '='
  | .operator .bang, c => c == '='
  | .operator .slash, c => c == '/' || c == '*'
  | .operator o, c => o.isWord && isWordChar c
  | .text _, _ => false
  | .symbol _, _ => false

/-- What may follow a token: nothing, or another character. -/
def Stops (kind : Token.Kind) (after : List Char) : Prop :=
  ∀ c, after.head? = some c → goesOn kind c = false

theorem stops_nil (kind : Token.Kind) : Stops kind [] := nofun

/-- What may follow a token depends on the next character alone. -/
theorem Stops.of_head? {kind : Token.Kind} {after other : List Char} (h : Stops kind after)
    (hhead : other.head? = after.head?) : Stops kind other :=
  fun c hc => h c (hhead ▸ hc)

theorem goesOn_wordKind (word : String) (c : Char) : goesOn (wordKind word) c = isWordChar c := by
  rw [wordKind]
  cases Keyword.ofWord? word <;> rfl

/-- A blank may follow any token. -/
theorem goesOn_of_isBlank {c : Char} (h : Text.isBlank c = true) (kind : Token.Kind) :
    goesOn kind c = false := by
  have hmem : c.toNat ∈ Text.blanks := List.contains_iff_mem.mp h
  have hword : ∀ n ∈ Text.blanks, isWordChar (Char.ofNat n) = false := by decide
  have hsign : ∀ n ∈ Text.blanks, Char.ofNat n ≠ '.' ∧ Char.ofNat n ≠ '=' ∧ Char.ofNat n ≠ '/'
      ∧ Char.ofNat n ≠ '*' := by decide
  have hc := hword _ hmem
  obtain ⟨hpoint, hequal, hslash, hstar⟩ := hsign _ hmem
  rw [Char.ofNat_toNat] at hc hpoint hequal hslash hstar
  have hdigit : c.isDigit = false :=
    Bool.eq_false_iff.mpr fun hd => Bool.eq_false_iff.mp hc (isWordChar_of_isDigit hd)
  cases kind with
  | operator o => cases o <;> simp [goesOn, hc, hequal, hslash, hstar]
  | _ => simp [goesOn, hc, hdigit, hpoint]

/-! ## Quoted texts -/

/-- A quoted text is read up to its closing quote. -/
theorem textBody?_of_quotes {quote : Char} {source text : List Char} (hq : quote ≠ '\\')
    (h : Quotes quote source text) (more read : List Char) (length : Nat) :
    textBody? quote (source ++ quote :: more) read length
      = some (read.reverse ++ text, length + source.length + 1) := by
  induction h generalizing read length with
  | nil =>
    rw [List.nil_append, textBody?_cons fun _ _ he _ => hq he, if_pos rfl, List.append_nil]
    rfl
  | plain hquote hescape _ ih =>
    rw [List.cons_append, textBody?_cons fun _ _ he _ => hescape he, if_neg hquote, ih,
      List.reverse_cons, List.append_assoc, List.length_cons]
    congr 2
    omega
  | escaped c _ ih =>
    rw [List.cons_append, List.cons_append, textBody?, ih, List.reverse_cons, List.append_assoc,
      List.length_cons, List.length_cons]
    congr 2
    omega

theorem exists_quotes_of_textBody? {quote : Char} {rest read text : List Char} {length n : Nat}
    (h : textBody? quote rest read length = some (text, n)) :
    ∃ source body more, rest = source ++ quote :: more ∧ Quotes quote source body
      ∧ text = read.reverse ++ body ∧ n = length + source.length + 1 := by
  induction rest, read, length using textBody?.induct quote with
  | case1 read length => cases h
  | case2 c rest read length ih =>
    obtain ⟨source, body, more, rfl, hquotes, rfl, rfl⟩ := ih h
    refine ⟨_, _, more, rfl, .escaped c hquotes, ?_, ?_⟩
    · rw [List.reverse_cons, List.append_assoc]
      rfl
    · simp only [List.length_cons]
      omega
  | case3 rest read length hne =>
    rw [textBody?_cons hne, if_pos rfl, Option.some.injEq, Prod.mk.injEq] at h
    obtain ⟨rfl, rfl⟩ := h
    exact ⟨[], [], rest, rfl, .nil, (List.append_nil _).symm, rfl⟩
  | case4 c rest read length hne hc ih =>
    rw [textBody?_cons hne, if_neg hc] at h
    -- A backslash that escapes nothing is the last character, and no quote follows.
    have hescape : c ≠ '\\' := by
      rintro rfl
      rcases rest with _ | ⟨d, rest⟩
      · cases h
      · exact hne d rest rfl rfl
    obtain ⟨source, body, more, rfl, hquotes, rfl, rfl⟩ := ih h
    refine ⟨_, _, more, rfl, .plain hc hescape hquotes, ?_, ?_⟩
    · rw [List.reverse_cons, List.append_assoc]
      rfl
    · simp only [List.length_cons]
      omega

/-! ## Numbers -/

theorem ofNumber_integer {digits after : List Char} (hne : digits ≠ [])
    (hdigits : ∀ c ∈ digits, c.isDigit = true) (hlimit : Decimal.ofDigits digits ≤ integerLimit)
    (hstops : Stops (.integer (Decimal.ofDigits digits)) after) :
    ∃ hpos, ofNumber (digits ++ after)
      = .ok ⟨.integer (Decimal.ofDigits digits), digits.length, hpos⟩ := by
  have hpos : 0 < digits.length := List.length_pos_iff.mpr hne
  have htake : (digits ++ after).takeWhile Char.isDigit = digits :=
    takeWhile_stretch hdigits fun c hc => (Bool.or_eq_false_iff.mp (hstops c hc)).1
  refine ⟨hpos, ?_⟩
  unfold ofNumber
  simp only [htake, List.drop_left]
  split
  · have hpoint := hstops '.' rfl
    cases hpoint
  · rw [dif_pos ⟨hpos, hlimit⟩]

theorem ofNumber_decimal {whole fraction after : List Char} (hwhole : ∀ c ∈ whole, c.isDigit = true)
    (hfraction : ∀ c ∈ fraction, c.isDigit = true) (hne : fraction ≠ [])
    (hstops : Stops (.decimal (Numeral.toFloat ⟨false, whole, fraction, 0⟩)) after) :
    ∃ hpos, ofNumber (whole ++ '.' :: fraction ++ after)
      = .ok ⟨.decimal (Numeral.toFloat ⟨false, whole, fraction, 0⟩),
          (whole ++ '.' :: fraction).length, hpos⟩ := by
  have htake : (whole ++ '.' :: (fraction ++ after)).takeWhile Char.isDigit = whole :=
    takeWhile_stretch hwhole (by rintro c ⟨⟩; rfl)
  have htake' : (fraction ++ after).takeWhile Char.isDigit = fraction :=
    takeWhile_stretch hfraction fun c hc => (Bool.or_eq_false_iff.mp (hstops c hc)).1
  have hlength : whole.length + 1 + fraction.length = (whole ++ '.' :: fraction).length := by
    simp only [List.length_append, List.length_cons]
    omega
  have hnext : after.head? ≠ some '.' := fun hhead => absurd (hstops '.' hhead) (by simp [goesOn])
  refine ⟨by rw [← hlength]; omega, ?_⟩
  unfold ofNumber
  simp only [List.append_assoc, List.cons_append, htake, List.drop_left, htake', if_neg hne,
    if_neg hnext, hlength]

theorem exists_spells_of_ofNumber {text : List Char} {lexeme : Lexeme}
    (h : ofNumber text = .ok lexeme) :
    ∃ span after, text = span ++ after ∧ lexeme.length = span.length
      ∧ Spells span lexeme.kind ∧ Stops lexeme.kind after := by
  obtain ⟨whole, rest, rfl, htake, hwhole, hrest⟩ := exists_stretch Char.isDigit text
  unfold ofNumber at h
  simp only [htake, List.drop_left] at h
  split at h
  · -- A point stands after the digits, and more digits after the point.
    next tail =>
    obtain ⟨fraction, after, rfl, htake', hfraction, hafter⟩ := exists_stretch Char.isDigit tail
    simp only [htake', List.drop_left] at h
    split at h
    · cases h
    · next hne =>
      split at h
      · cases h
      · next hnext =>
        cases h
        refine ⟨whole ++ '.' :: fraction, after, ?_, ?_, .decimal hwhole hfraction hne, ?_⟩
        · rw [List.append_assoc, List.cons_append]
        · simp only [List.length_append, List.length_cons]
          omega
        · intro c hc
          have hpoint : c ≠ '.' := fun he => hnext (he ▸ hc)
          simp [goesOn, hafter c hc, hpoint]
  · next hpoint =>
    split at h
    · next hvalid =>
      cases h
      refine ⟨whole, rest, rfl, rfl, ?_, ?_⟩
      · exact .integer (List.length_pos_iff.mp hvalid.1) hwhole hvalid.2
      · intro c hc
        have hne : c ≠ '.' := by
          rintro rfl
          obtain ⟨tail, rfl⟩ := List.head?_eq_some_iff.mp hc
          exact hpoint tail rfl
        simp [goesOn, hrest c hc, hne]
    · cases h

/-! ## Operators -/

/-- No operator of the lexicon begins one that comes later. -/
theorem lexicon_pairwise :
    Operator.lexicon.Pairwise fun o o' => ¬ o.spelling.toList <+: o'.spelling.toList := by
  decide

/-- An operator goes on with the character that a longer one has next. -/
theorem goesOn_of_longer {o o' : Operator} {c : Char} {more : List Char}
    (h : o'.spelling.toList = o.spelling.toList ++ c :: more) : goesOn (.operator o) c = true := by
  have hall : ∀ o ∈ Operator.lexicon, ∀ o' ∈ Operator.lexicon,
      o.spelling.toList <+: o'.spelling.toList →
        (o'.spelling.toList.drop o.spelling.toList.length).head?.all (goesOn (.operator o))
          = true := by decide
  have hnext := hall o (Operator.mem_lexicon o) o' (Operator.mem_lexicon o')
    (h ▸ List.prefix_append _ _)
  rwa [h, List.drop_left] at hnext

/-- Where an operator goes on, its word does, a comment begins, or a longer one is spelled. -/
theorem longer_of_goesOn {o : Operator} {c : Char} (h : goesOn (.operator o) c = true) :
    (o.isWord = true ∧ isWordChar c = true) ∨ (o = .slash ∧ (c = '/' ∨ c = '*'))
      ∨ ∃ o' : Operator, o'.isWord = false
        ∧ o'.spelling.toList = o.spelling.toList ++ [c] := by
  cases o with
  | assign => exact .inr (.inr ⟨.eqEq, rfl, by rw [beq_iff_eq.mp h]; rfl⟩)
  | lt => exact .inr (.inr ⟨.le, rfl, by rw [beq_iff_eq.mp h]; rfl⟩)
  | gt => exact .inr (.inr ⟨.ge, rfl, by rw [beq_iff_eq.mp h]; rfl⟩)
  | bang => exact .inr (.inr ⟨.notEq, rfl, by rw [beq_iff_eq.mp h]; rfl⟩)
  | slash => exact .inr (.inl ⟨rfl, by simpa [goesOn] using h⟩)
  | _ => exact .inl ((Bool.and_eq_true _ _).mp h)

theorem goesOn_of_isWord {o : Operator} (h : o.isWord = true) (c : Char) :
    goesOn (.operator o) c = isWordChar c := by
  cases o <;> first | (cases h; done) | exact Bool.true_and _

/-- An operator in words is made of characters of words, -/
theorem isWordChar_of_isWord {o : Operator} (h : o.isWord = true) :
    ∀ c ∈ o.spelling.toList, isWordChar c = true := by
  rw [← List.all_eq_true]
  revert h
  cases o <;> decide

/-- and no other operator begins with one. -/
theorem isWord_of_head? {o : Operator} {c : Char} (h : o.spelling.toList.head? = some c)
    (hc : isWordChar c = true) : o.isWord = true := by
  have hhead : o.spelling.toList.head?.any isWordChar = true := by
    rw [h]
    exact hc
  revert hhead
  cases o <;> decide

theorem head?_spelling (o : Operator) (after : List Char) :
    o.spelling.toList.head? = (o.spelling.toList ++ after).head? := by
  obtain ⟨c, rest, h⟩ :=
    List.exists_cons_of_ne_nil (List.length_pos_iff.mp (spelling_length_pos o))
  rw [h]
  rfl

theorem operatorStands_iff {text : List Char} {o : Operator} :
    operatorStands text o = true ↔ ∃ after, text = o.spelling.toList ++ after
      ∧ (o.isWord = true → ∀ c, after.head? = some c → isWordChar c = false) := by
  rw [operatorStands, Bool.and_eq_true, List.isPrefixOf_iff_prefix]
  constructor
  · rintro ⟨⟨after, rfl⟩, hword⟩
    refine ⟨after, rfl, fun ho c hc => ?_⟩
    rw [List.drop_left, ho, hc] at hword
    simpa using hword
  · rintro ⟨after, rfl, hword⟩
    refine ⟨List.prefix_append _ _, ?_⟩
    rw [List.drop_left]
    cases ho : o.isWord with
    | false => rfl
    | true =>
      cases hc : after.head? with
      | none => rfl
      | some c => simpa using hword ho c hc

/-- **The operator that is read is the longest that stands there.** -/
theorem operator?_eq_some_iff {text : List Char} {o : Operator} :
    operator? text = some o ↔ operatorStands text o = true ∧ ∀ (o' : Operator) (c : Char)
      (more : List Char), o'.spelling.toList = o.spelling.toList ++ c :: more →
        operatorStands text o' = false := by
  rw [operator?, List.find?_eq_some_iff_append]
  constructor
  · rintro ⟨ho, before, after, hlexicon, hbefore⟩
    refine ⟨ho, fun o' c more hlonger => ?_⟩
    have hmem := Operator.mem_lexicon o'
    have hpairs := lexicon_pairwise
    rw [hlexicon] at hmem hpairs
    rcases List.mem_append.mp hmem with hmem | hmem
    · exact (Bool.not_eq_true' _).mp (hbefore o' hmem)
    · rcases List.mem_cons.mp hmem with rfl | hmem
      · exact absurd (List.append_right_eq_self.mp hlonger.symm) (List.cons_ne_nil _ _)
      · exact absurd ⟨c :: more, hlonger.symm⟩
          ((List.pairwise_cons.mp (List.pairwise_append.mp hpairs).2.1).1 o' hmem)
  · rintro ⟨ho, hlongest⟩
    obtain ⟨before, after, hlexicon⟩ := List.append_of_mem (Operator.mem_lexicon o)
    refine ⟨ho, before, after, hlexicon, fun o' hmem => ?_⟩
    have hpairs := lexicon_pairwise
    rw [hlexicon] at hpairs
    have hnot := (List.pairwise_append.mp hpairs).2.2 o' hmem o (List.mem_cons_self ..)
    rw [Bool.not_eq_true', Bool.eq_false_iff]
    intro ho'
    -- Of two operators at one place, one begins the other.
    obtain ⟨rest, hrest, -⟩ := operatorStands_iff.mp ho
    obtain ⟨rest', hrest', -⟩ := operatorStands_iff.mp ho'
    rcases List.prefix_or_prefix_of_prefix ⟨rest, hrest.symm⟩ ⟨rest', hrest'.symm⟩ with
      ⟨more, hmore⟩ | h
    · rcases more with _ | ⟨c, more⟩
      · rw [List.append_nil] at hmore
        exact hnot (hmore ▸ List.prefix_rfl)
      · rw [hlongest o' c more hmore.symm] at ho'
        cases ho'
    · exact hnot h

/-- An operator is read where nothing follows with which it goes on. -/
theorem operator?_of_stops {o : Operator} {after : List Char} (h : Stops (.operator o) after) :
    operator? (o.spelling.toList ++ after) = some o := by
  refine operator?_eq_some_iff.mpr ⟨operatorStands_iff.mpr ⟨after, rfl, fun ho c hc => ?_⟩, ?_⟩
  · rw [← goesOn_of_isWord ho]
    exact h c hc
  · intro o' c more hmore
    rw [Bool.eq_false_iff]
    intro ho'
    obtain ⟨rest, hrest, -⟩ := operatorStands_iff.mp ho'
    rw [hmore, List.append_assoc, List.append_cancel_left_eq] at hrest
    have hstop := h c (hrest ▸ rfl)
    rw [goesOn_of_longer hmore] at hstop
    cases hstop

theorem stops_of_operator? {text : List Char} {o : Operator} (h : operator? text = some o)
    (hclear : Layout.Clear text) :
    ∃ after, text = o.spelling.toList ++ after ∧ Stops (.operator o) after := by
  obtain ⟨ho, hlongest⟩ := operator?_eq_some_iff.mp h
  obtain ⟨after, rfl, hword⟩ := operatorStands_iff.mp ho
  refine ⟨after, rfl, fun c hc => ?_⟩
  rw [Bool.eq_false_iff]
  intro hgo
  obtain ⟨more, rfl⟩ := List.head?_eq_some_iff.mp hc
  rcases longer_of_goesOn hgo with ⟨hisWord, hc'⟩ | ⟨rfl, hc'⟩ | ⟨o', hsigns, ho'⟩
  · rw [hword hisWord c rfl] at hc'
    cases hc'
  · -- A slash and this character would have been a comment.
    obtain ⟨d, rest, he, -, hcomment⟩ := hclear
    obtain ⟨rfl, rfl⟩ := List.cons.inj he
    rcases hc' with rfl | rfl
    · exact (hcomment rfl more).1 rfl
    · exact (hcomment rfl more).2 rfl
  · have hstands : operatorStands (o.spelling.toList ++ c :: more) o' = true := by
      refine operatorStands_iff.mpr ⟨more, ?_, fun hw => ?_⟩
      · rw [ho', List.append_assoc]
        rfl
      · rw [hsigns] at hw
        cases hw
    rw [hlongest o' c [] ho'] at hstands
    cases hstands

/-! ## Symbols and words -/

/-- No operator begins with the character of a symbol. -/
theorem operator?_symbol (s : Symbol) (after : List Char) :
    operator? (s.char :: after) = none := by
  have hall : ∀ o ∈ Operator.lexicon, o.spelling.toList.head? ≠ some s.char := by
    cases s <;> decide
  rw [operator?, List.find?_eq_none]
  intro o ho hstands
  obtain ⟨rest, hrest, -⟩ := operatorStands_iff.mp hstands
  refine hall o ho ?_
  rw [head?_spelling o rest, ← hrest]
  rfl

/-- An operator at the front of a word is the word. -/
theorem operator?_word {c : Char} {tail after : List Char} (hc : c.isAlpha = true ∨ c = '_')
    (htail : ∀ d ∈ tail, isWordChar d = true)
    (hoperator : ∀ o : Operator, o.spelling.toList ≠ c :: tail)
    (hafter : ∀ d, after.head? = some d → isWordChar d = false) :
    operator? (c :: tail ++ after) = none := by
  have hword : ∀ d ∈ c :: tail, isWordChar d = true :=
    List.forall_mem_cons.mpr ⟨isWordChar_of_isAlpha hc, htail⟩
  rw [operator?, List.find?_eq_none]
  intro o _ hstands
  obtain ⟨rest, hrest, hends⟩ := operatorStands_iff.mp hstands
  have hisWord : o.isWord = true := by
    refine isWord_of_head? (c := c) ?_ (isWordChar_of_isAlpha hc)
    rw [head?_spelling o rest, ← hrest]
    rfl
  exact hoperator o
    (stretch_unique hword (isWordChar_of_isWord hisWord) hafter (hends hisWord) hrest).1.symm

theorem ofChar?_word {c : Char} (hc : c.isAlpha = true ∨ c = '_') : Symbol.ofChar? c = none := by
  have hall : ∀ s ∈ Symbol.all, isWordChar s.char = false := by decide
  rw [Symbol.ofChar?, List.find?_eq_none]
  intro s hs he
  have hword := isWordChar_of_isAlpha hc
  rw [← beq_iff_eq.mp he, hall s hs] at hword
  cases hword

/-! ## The front of a text -/

/-- The characters that begin a quoted text or a number. -/
def beginsLiteral (c : Char) : Bool := c == '"' || c == '\'' || c.isDigit || c == '.'

theorem front_number {c : Char} {rest : List Char}
    (h : c.isDigit = true ∨ (c = '.' ∧ startsWithDigit rest = true)) :
    front (c :: rest) = some (ofNumber (c :: rest)) := by
  have hquote : ¬ (c = '"' ∨ c = '\'') := by
    rintro (rfl | rfl) <;> simp at h
  rw [front, if_neg hquote, if_pos h]

theorem front_other {c : Char} {rest : List Char} (h : beginsLiteral c = false) :
    front (c :: rest) = some (match operator? (c :: rest) with
      | some o => .ok ⟨.operator o, o.spelling.toList.length, spelling_length_pos o⟩
      | none =>
        match Symbol.ofChar? c with
        | some s => .ok ⟨.symbol s, 1, Nat.one_pos⟩
        | none =>
          if c.isAlpha ∨ c = '_' then
            .ok ⟨wordKind (String.ofList (c :: rest.takeWhile isWordChar)),
              (rest.takeWhile isWordChar).length + 1, Nat.succ_pos _⟩
          else .error ⟨.unknownCharacter c, 0, 0⟩) := by
  simp only [beginsLiteral, Bool.or_eq_false_iff, beq_eq_false_iff_ne] at h
  obtain ⟨⟨⟨hquote, happostrophe⟩, hdigit⟩, hpoint⟩ := h
  have htext : ¬ (c = '"' ∨ c = '\'') := by simp [hquote, happostrophe]
  have hnumber : ¬ (c.isDigit = true ∨ (c = '.' ∧ startsWithDigit rest = true)) := by
    simp [hdigit, hpoint]
  exact congrArg some ((if_neg htext).trans (if_neg hnumber))

theorem isDigit_eq_false_of_isAlpha {c : Char} (h : c.isAlpha = true) : c.isDigit = false := by
  rw [Bool.eq_false_iff]
  intro hdigit
  have hhigh : c.val ≤ '9'.val := of_decide_eq_true ((Bool.and_eq_true _ _).mp hdigit).2
  have hlow : 'A'.val ≤ c.val := by
    rcases (Bool.or_eq_true _ _).mp h with hupper | hlower
    · exact (of_decide_eq_true hupper).1
    · have hle : 'a'.val ≤ c.val := of_decide_eq_true ((Bool.and_eq_true _ _).mp hlower).1
      exact UInt32.le_trans (by decide) hle
  exact absurd (UInt32.le_trans hlow hhigh) (by decide)

theorem beginsLiteral_of_word {c : Char} (hc : c.isAlpha = true ∨ c = '_') :
    beginsLiteral c = false := by
  rcases hc with hc | rfl
  · have hne : ∀ d : Char, d.isAlpha = false → c ≠ d := by
      rintro d hd rfl
      rw [hc] at hd
      cases hd
    simp only [beginsLiteral, Bool.or_eq_false_iff, beq_eq_false_iff_ne]
    exact ⟨⟨⟨hne _ rfl, hne _ rfl⟩, isDigit_eq_false_of_isAlpha hc⟩, hne _ rfl⟩
  · rfl

/-- **A span that is stopped is read.** -/
theorem front_of_spells {span after : List Char} {kind : Token.Kind} (h : Spells span kind)
    (hstops : Stops kind after) :
    ∃ hpos, front (span ++ after) = some (.ok ⟨kind, span.length, hpos⟩) := by
  cases h with
  | @text quote source text hquote hquotes =>
    have hescape : quote ≠ '\\' := by
      rintro rfl
      revert hquote
      decide
    refine ⟨Nat.succ_pos _, ?_⟩
    rw [List.cons_append, List.append_assoc, List.singleton_append, front, if_pos hquote, ofQuoted,
      textBody?_of_quotes hescape hquotes]
    simp
  | @integer _ hne hdigits hlimit =>
    obtain ⟨hpos, hnumber⟩ := ofNumber_integer hne hdigits hlimit hstops
    refine ⟨hpos, ?_⟩
    obtain ⟨c, rest, rfl⟩ := List.exists_cons_of_ne_nil hne
    rw [← hnumber, List.cons_append, front_number (.inl (hdigits c (List.mem_cons_self ..)))]
  | @decimal whole fraction hwhole hfraction hne =>
    obtain ⟨hpos, hnumber⟩ := ofNumber_decimal hwhole hfraction hne hstops
    refine ⟨hpos, ?_⟩
    rw [← hnumber]
    rcases whole with _ | ⟨c, whole⟩
    · obtain ⟨d, rest, rfl⟩ := List.exists_cons_of_ne_nil hne
      exact front_number (.inr ⟨rfl, hfraction d (List.mem_cons_self ..)⟩)
    · exact front_number (.inl (hwhole c (List.mem_cons_self ..)))
  | operator o =>
    have hhead : o.spelling.toList.head?.any beginsLiteral = false := by cases o <;> decide
    have hread := operator?_of_stops hstops
    have hpos := spelling_length_pos o
    refine ⟨hpos, ?_⟩
    rw [head?_spelling o after] at hhead
    generalize htext : o.spelling.toList ++ after = text at hread hhead ⊢
    rcases text with _ | ⟨c, rest⟩
    · cases hread
    · rw [front_other hhead, hread]
  | symbol s =>
    have hsign : beginsLiteral s.char = false := by cases s <;> decide
    refine ⟨Nat.one_pos, ?_⟩
    rw [List.singleton_append, front_other hsign, operator?_symbol, Symbol.ofChar?_char]
    rfl
  | @word c tail hc htail hoperator =>
    have hafter : ∀ d, after.head? = some d → isWordChar d = false := fun d hd => by
      rw [← goesOn_wordKind]
      exact hstops d hd
    refine ⟨Nat.succ_pos _, ?_⟩
    rw [List.cons_append, front_other (beginsLiteral_of_word hc), ← List.cons_append,
      operator?_word hc htail hoperator hafter, ofChar?_word hc]
    simp only [if_pos hc, takeWhile_stretch htail hafter, List.length_cons]

theorem exists_symbol_of_ofChar? {c : Char} {s : Symbol} (h : Symbol.ofChar? c = some s) :
    s.char = c := by
  have hfound := List.find?_some h
  exact beq_iff_eq.mp hfound

/-- **What is read is a span that is stopped**, where no layout stands at the front. -/
theorem exists_spells_of_front {text : List Char} {lexeme : Lexeme} (hclear : Layout.Clear text)
    (h : front text = some (.ok lexeme)) :
    ∃ span after, text = span ++ after ∧ lexeme.length = span.length
      ∧ Spells span lexeme.kind ∧ Stops lexeme.kind after := by
  rcases text with _ | ⟨c, rest⟩
  · cases h
  rw [front, Option.some.injEq] at h
  split at h
  · next hquote =>
    rw [ofQuoted] at h
    split at h
    · next text n hbody =>
      cases h
      obtain ⟨source, body, more, rfl, hquotes, rfl, rfl⟩ := exists_quotes_of_textBody? hbody
      refine ⟨c :: (source ++ [c]), more, ?_, ?_, .text hquote hquotes, fun _ _ => rfl⟩
      · rw [List.cons_append, List.append_assoc, List.singleton_append]
      · simp
    · cases h
  · split at h
    · exact exists_spells_of_ofNumber h
    · split at h
      · next o ho =>
        cases h
        obtain ⟨after, htext, hstops⟩ := stops_of_operator? ho hclear
        exact ⟨_, after, htext, rfl, .operator o, hstops⟩
      · next hnone =>
        split at h
        · next s hs =>
          cases h
          refine ⟨[c], rest, rfl, rfl, ?_, fun _ _ => rfl⟩
          rw [← exists_symbol_of_ofChar? hs]
          exact .symbol s
        · split at h
          · next hc =>
            cases h
            obtain ⟨tail, after, rfl, htake, htail, hafter⟩ := exists_stretch isWordChar rest
            simp only [htake]
            refine ⟨c :: tail, after, rfl, rfl, .word hc htail ?_, fun d hd => ?_⟩
            · -- A word operator would have been read before.
              intro o ho
              have hstands : operatorStands (c :: (tail ++ after)) o = true :=
                operatorStands_iff.mpr ⟨after, by rw [ho]; rfl, fun _ => hafter⟩
              exact List.find?_eq_none.mp hnone o (Operator.mem_lexicon o) hstands
            · rw [goesOn_wordKind]
              exact hafter d hd
          · cases h

/-! ## What a span is not -/

theorem isBlank_eq_false_of_isWordChar {c : Char} (h : isWordChar c = true) :
    Text.isBlank c = false := by
  rw [Bool.eq_false_iff]
  intro hblank
  have hword := goesOn_of_isBlank hblank (.identifier "")
  rw [goesOn, h] at hword
  cases hword

theorem clear_of_ne {c : Char} {rest : List Char} (hblank : Text.isBlank c = false)
    (hslash : c ≠ '/') : Layout.Clear (c :: rest) :=
  ⟨c, rest, rfl, hblank, fun he => absurd he hslash⟩

theorem clear_of_isWordChar {c : Char} {rest : List Char} (h : isWordChar c = true) :
    Layout.Clear (c :: rest) := by
  refine clear_of_ne (isBlank_eq_false_of_isWordChar h) ?_
  rintro rfl
  cases h

/-- No layout stands where a span does. -/
theorem Spells.clear {span after : List Char} {kind : Token.Kind} (h : Spells span kind)
    (hstops : Stops kind after) : Layout.Clear (span ++ after) := by
  cases h with
  | text hquote =>
    rcases hquote with rfl | rfl
    · exact clear_of_ne (by decide) (by decide)
    · exact clear_of_ne (by decide) (by decide)
  | integer hne hdigits =>
    obtain ⟨c, rest, rfl⟩ := List.exists_cons_of_ne_nil hne
    exact clear_of_isWordChar (isWordChar_of_isDigit (hdigits c (List.mem_cons_self ..)))
  | @decimal whole _ hwhole =>
    rcases whole with _ | ⟨c, whole⟩
    · exact clear_of_ne (by decide) (by decide)
    · exact clear_of_isWordChar (isWordChar_of_isDigit (hwhole c (List.mem_cons_self ..)))
  | operator o =>
    have hhead : ∀ c, o.spelling.toList.head? = some c →
        Text.isBlank c = false ∧ (c = '/' → o = .slash) := by
      cases o <;> · rintro c ⟨⟩; decide
    rw [head?_spelling o after] at hhead
    generalize htext : o.spelling.toList ++ after = text at hhead
    rcases text with _ | ⟨c, rest⟩
    · have hpos := spelling_length_pos o
      rw [List.append_eq_nil_iff.mp htext |>.1] at hpos
      cases hpos
    · obtain ⟨hblank, hslash⟩ := hhead c rfl
      refine ⟨c, rest, rfl, hblank, fun hc more => ?_⟩
      obtain rfl := hslash hc
      obtain ⟨-, rfl⟩ := List.cons.inj htext
      refine ⟨?_, ?_⟩
      · rintro rfl
        cases hstops '/' rfl
      · rintro rfl
        cases hstops '*' rfl
  | symbol s => cases s <;> exact clear_of_ne (by decide) (by decide)
  | word hc => exact clear_of_isWordChar (isWordChar_of_isAlpha hc)

theorem Spells.length_pos {span : List Char} {kind : Token.Kind} (h : Spells span kind) :
    0 < span.length :=
  (front_of_spells h (stops_nil kind)).1

/-- What cannot be read is still ahead. -/
theorem place_lt_of_front {text : List Char} {e : Failure} (h : front text = some (.error e)) :
    e.place < text.length := by
  rcases text with _ | ⟨c, rest⟩
  · cases h
  have hpos : 0 < (c :: rest).length := Nat.succ_pos _
  rw [front, Option.some.injEq] at h
  split at h
  · rw [ofQuoted] at h
    split at h
    · cases h
    · cases h
      exact hpos
  · split at h
    · unfold ofNumber at h
      simp only at h
      split at h
      · next tail hdrop =>
        have hlength := congrArg List.length hdrop
        split at h
        · cases h
          simp only [List.length_drop, List.length_cons] at hlength ⊢
          omega
        · split at h
          · cases h
            exact hpos
          · cases h
      · split at h
        · cases h
        · cases h
          exact hpos
    · split at h
      · cases h
      · split at h
        · cases h
        · split at h
          · cases h
          · cases h
            exact hpos

end Lexeme

end Lipi
