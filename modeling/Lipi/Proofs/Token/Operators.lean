/-
The order of the lexicon.

Operators are tried in the order of the lexicon, and the first that stands at a place is the
one that is read there. Where several do, each begins the longer ones, and no operator of the
lexicon begins one that comes later; so the first to be found is the longest. Whether an operator
matches is said here without the search (`Operator.MatchesAt`), at a place of a whole text.

Among the operators in words the order decides nothing, for none of them begins another. What
keeps a name that begins like one in one piece is the condition on the character that follows.
Where a word begins, all of it is taken as one token, and that is an operator exactly if the
word is spelled like one (`Lexeme.front_word`); so an operator in words among the tokens of a
source is a whole word there. `Lexeme.operator?_longest` says all of this of a source and its
places.
-/
import Mathlib.Control.Monad.Basic
import Lipi.Proofs.Token.Tiling

set_option autoImplicit false

namespace Lipi

/-! ## Matching -/

/-- An operator is spelled at a place of a text, and if it is one in words, no character that
continues a word follows. -/
def Operator.MatchesAt (o : Operator) (text : List Char) (place : Nat) : Prop :=
  ∃ before after, text = before ++ (o.spelling.toList ++ after) ∧ before.length = place
    ∧ (o.isWord = true → ∀ c, after.head? = some c → Lexeme.isWordChar c = false)

theorem Operator.spelling_toList_injective {o o' : Operator}
    (h : o.spelling.toList = o'.spelling.toList) : o = o' := by
  have hall : ∀ o ∈ lexicon, ∀ o' ∈ lexicon, o.spelling.toList = o'.spelling.toList → o = o' := by
    decide
  exact hall o (mem_lexicon o) o' (mem_lexicon o') h

namespace Lexeme

theorem operatorStands_drop_iff {text : List Char} {place : Nat} {o : Operator} :
    operatorStands (text.drop place) o = true ↔ o.MatchesAt text place := by
  constructor
  · intro h
    obtain ⟨after, hdrop, hword⟩ := operatorStands_iff.mp h
    -- Something is left there, so the place is inside the text.
    have hlength := congrArg List.length hdrop
    have hpos := spelling_length_pos o
    rw [List.length_drop, List.length_append] at hlength
    refine ⟨text.take place, after, ?_, ?_, hword⟩
    · rw [← hdrop, List.take_append_drop]
    · rw [List.length_take]
      omega
  · rintro ⟨before, after, rfl, rfl, hword⟩
    rw [List.drop_left]
    exact operatorStands_iff.mpr ⟨after, rfl, hword⟩

variable {text : List Char} {o o' : Operator}

/-- Of two operators at one place, a longer one goes on behind the other. -/
theorem exists_more_of_lt (ho : operatorStands text o = true) (ho' : operatorStands text o' = true)
    (hlt : o.spelling.length < o'.spelling.length) :
    ∃ c more, o'.spelling.toList = o.spelling.toList ++ c :: more := by
  obtain ⟨after, hafter, -⟩ := operatorStands_iff.mp ho
  obtain ⟨after', hafter', -⟩ := operatorStands_iff.mp ho'
  rw [← String.length_toList, ← String.length_toList] at hlt
  obtain ⟨more, hmore⟩ := List.prefix_of_prefix_length_le ⟨after, hafter.symm⟩
    ⟨after', hafter'.symm⟩ (Nat.le_of_lt hlt)
  rcases more with _ | ⟨c, more⟩
  · rw [← hmore, List.append_nil] at hlt
    exact absurd hlt (Nat.lt_irrefl _)
  · exact ⟨c, more, hmore.symm⟩

/-- The operator that is read is as long as any that stands there. -/
theorem operator?_eq_some_iff_le : operator? text = some o ↔ operatorStands text o = true
    ∧ ∀ o', operatorStands text o' = true → o'.spelling.length ≤ o.spelling.length := by
  rw [operator?_eq_some_iff]
  refine and_congr_right fun ho => ⟨?_, ?_⟩
  · intro hlongest o' ho'
    -- A longer one would go on behind this one, and none that does stands here.
    refine Nat.le_of_not_lt fun hlt => ?_
    obtain ⟨c, more, hmore⟩ := exists_more_of_lt ho ho' hlt
    rw [hlongest o' c more hmore] at ho'
    cases ho'
  · intro hlongest o' c more hmore
    rw [Bool.eq_false_iff]
    intro ho'
    have hle := hlongest o' ho'
    rw [← String.length_toList, ← String.length_toList, hmore, List.length_append,
      List.length_cons] at hle
    omega

theorem operator?_eq_none_iff : operator? text = none ↔ ∀ o, ¬ operatorStands text o = true := by
  rw [operator?, List.find?_eq_none]
  exact ⟨fun h o => h o (Operator.mem_lexicon o), fun h o _ => h o⟩

/-! ## Words -/

theorem wordKind_ne_operator (word : String) (o : Operator) : wordKind word ≠ .operator o := by
  unfold wordKind
  split <;> exact Token.Kind.noConfusion

/-- The span of an operator is its spelling. -/
theorem Spells.eq_spelling {span : List Char} (h : Spells span (.operator o)) :
    span = o.spelling.toList := by
  generalize hkind : Token.Kind.operator o = kind at h
  cases h with
  | operator o' =>
    cases hkind
    rfl
  | word => exact absurd hkind.symm (wordKind_ne_operator _ _)
  | _ => cases hkind

/-- An operator in words, where it is stopped, is the whole word that begins there. -/
theorem takeWhile_isWordChar {after : List Char} (ho : o.isWord = true)
    (hstops : Stops (.operator o) after) :
    (o.spelling.toList ++ after).takeWhile isWordChar = o.spelling.toList := by
  refine takeWhile_stretch (isWordChar_of_isWord ho) fun c hc => ?_
  rw [← goesOn_of_isWord ho]
  exact hstops c hc

/-- Every word spells a token, which is an operator exactly if the word is spelled like one. -/
theorem exists_spells_of_word {c : Char} {tail after : List Char} (hc : c.isAlpha = true ∨ c = '_')
    (htail : ∀ d ∈ tail, isWordChar d = true)
    (hafter : ∀ d, after.head? = some d → isWordChar d = false) :
    ∃ kind, Spells (c :: tail) kind ∧ Stops kind after
      ∧ ∀ o, kind = .operator o ↔ o.spelling.toList = c :: tail := by
  by_cases hspelled : ∃ o : Operator, o.spelling.toList = c :: tail
  · obtain ⟨o, ho⟩ := hspelled
    have hisWord : o.isWord = true := isWord_of_head? (ho ▸ rfl) (isWordChar_of_isAlpha hc)
    refine ⟨.operator o, ho ▸ .operator o, fun d hd => ?_, fun o' => ⟨?_, fun ho' => ?_⟩⟩
    · rw [goesOn_of_isWord hisWord]
      exact hafter d hd
    · rintro ⟨⟩
      exact ho
    · rw [Operator.spelling_toList_injective (ho.trans ho'.symm)]
  · refine ⟨_, .word hc htail fun o ho => hspelled ⟨o, ho⟩, fun d hd => ?_, fun o => ⟨?_, ?_⟩⟩
    · rw [goesOn_wordKind]
      exact hafter d hd
    · exact fun hkind => absurd hkind (wordKind_ne_operator _ _)
    · exact fun ho => absurd ⟨o, ho⟩ hspelled

/-- **Where a word begins, the whole of it is read**, as an operator exactly if it is spelled
like one. -/
theorem front_word {c : Char} {rest : List Char} (hc : c.isAlpha = true ∨ c = '_') :
    ∃ lexeme, front (c :: rest) = some (.ok lexeme)
      ∧ lexeme.length = ((c :: rest).takeWhile isWordChar).length
      ∧ ∀ o, lexeme.kind = .operator o ↔
        o.spelling.toList = (c :: rest).takeWhile isWordChar := by
  obtain ⟨tail, after, rfl, -, htail, hafter⟩ := exists_stretch isWordChar rest
  have htake : (c :: (tail ++ after)).takeWhile isWordChar = c :: tail :=
    takeWhile_stretch (List.forall_mem_cons.mpr ⟨isWordChar_of_isAlpha hc, htail⟩) hafter
  obtain ⟨kind, hspells, hstops, hkind⟩ := exists_spells_of_word hc htail hafter
  obtain ⟨hpos, hfront⟩ := front_of_spells hspells hstops
  rw [htake]
  exact ⟨_, hfront, rfl, hkind⟩

/-- An operator in words among the tokens of a source is a whole word there. -/
theorem takeWhile_of_tokenize {source : String} {tokens : List Token}
    (h : tokenize source = .ok tokens) {t : Token} (ht : t ∈ tokens)
    (hkind : t.kind = .operator o) (ho : o.isWord = true) :
    (source.toList.drop t.location.offset).takeWhile isWordChar = o.spelling.toList := by
  obtain ⟨tiles, htiled, rfl⟩ := Scanner.exists_tiled h
  obtain ⟨before, span, after, htext, hl, hspan, hstops⟩ := htiled.exists_span _ t ht
  have hsource : source.toList = before ++ (span ++ after) := htext
  have hoffset : t.location.offset = before.length := by
    rw [hl, Location.offset_past]
    exact Nat.zero_add _
  rw [hkind] at hspan hstops
  rw [hsource, hoffset, List.drop_left, hspan.eq_spelling]
  exact takeWhile_isWordChar ho hstops

/-- **The first operator of the lexicon to match is the longest.** At every place of every text,
the operator that is read there is the one that matches and is as long as any that does, and
none is read only where none matches. Where a word begins, the token that is read there is the
whole word, and it is an operator exactly if the word is spelled like one; and an operator in
words among the tokens of a source is a whole word of the source. -/
theorem operator?_longest (source : String) (place : Nat) :
    (∀ o, operator? (source.toList.drop place) = some o ↔ o.MatchesAt source.toList place
        ∧ ∀ o' : Operator, o'.MatchesAt source.toList place →
          o'.spelling.length ≤ o.spelling.length)
      ∧ (operator? (source.toList.drop place) = none ↔
        ∀ o : Operator, ¬ o.MatchesAt source.toList place)
      ∧ (∀ c rest, source.toList.drop place = c :: rest → c.isAlpha = true ∨ c = '_' →
        ∃ lexeme, front (c :: rest) = some (.ok lexeme)
          ∧ lexeme.length = ((c :: rest).takeWhile isWordChar).length
          ∧ ∀ o, lexeme.kind = .operator o ↔
            o.spelling.toList = (c :: rest).takeWhile isWordChar)
      ∧ ∀ tokens, tokenize source = .ok tokens → ∀ t ∈ tokens, ∀ o : Operator,
        t.kind = .operator o → o.isWord = true →
          (source.toList.drop t.location.offset).takeWhile isWordChar = o.spelling.toList := by
  refine ⟨?_, ?_, ?_, ?_⟩
  · intro o
    simp only [operator?_eq_some_iff_le, operatorStands_drop_iff]
  · simp only [operator?_eq_none_iff, operatorStands_drop_iff]
  · intro c rest _ hc
    exact front_word hc
  · intro tokens h t ht o hkind ho
    exact takeWhile_of_tokenize h ht hkind ho

/-- A source with a name that begins like an operator, and a comparison that begins like
another. -/
def naming : String := "na naya<=asatya"

/-- Its `<=` is read in one piece though `<` matches as well, no operator matches where the name
begins, and its operators in words are whole words. -/
theorem operator?_longest_naming : operator? (naming.toList.drop 7) = some .le
    ∧ Operator.lt.MatchesAt naming.toList 7
    ∧ (∀ o : Operator, o.MatchesAt naming.toList 7 → o.spelling.length ≤ 2)
    ∧ (∀ o : Operator, ¬ o.MatchesAt naming.toList 3)
    ∧ ∃ tokens, tokenize naming = .ok tokens ∧ ⟨.operator .wordFalse, ⟨9, 1, 10⟩⟩ ∈ tokens
      ∧ (naming.toList.drop 9).takeWhile isWordChar = "asatya".toList := by
  obtain ⟨hlongest, -, -, hwords⟩ := operator?_longest naming 7
  obtain ⟨-, hnone, -⟩ := operator?_longest naming 3
  have hread : operator? (naming.toList.drop 7) = some .le := by decide
  have hlt : Operator.lt.MatchesAt naming.toList 7 := ⟨"na naya".toList, "=asatya".toList, by decide⟩
  have htokens : tokenize naming = .ok [⟨.operator .wordNot, ⟨0, 1, 1⟩⟩,
      ⟨.identifier "naya", ⟨3, 1, 4⟩⟩, ⟨.operator .le, ⟨7, 1, 8⟩⟩,
      ⟨.operator .wordFalse, ⟨9, 1, 10⟩⟩] := by decide +kernel
  refine ⟨hread, hlt, ((hlongest .le).mp hread).2, hnone.mp (by decide), _, htokens, by simp, ?_⟩
  exact hwords _ htokens ⟨.operator .wordFalse, ⟨9, 1, 10⟩⟩ (by simp) .wordFalse rfl rfl

end Lexeme

end Lipi
