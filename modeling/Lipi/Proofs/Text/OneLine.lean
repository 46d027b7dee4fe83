/-
Texts that stay on one line.

A message is put together from words that stand in this library, from numbers, from
characters and from texts of the source. Only the last could break the line, and a text of
the source is shown as it is only where it is a word, and in quotes everywhere else. Here is
what each of these comes to (`OneLine`): quoting writes every line feed out
(`oneLine_quoted`), and a number is written with digits, a point, a sign and the words for
what is no number (`oneLine_positionalText`, `oneLine_numberText`). A text on one line that
is not empty is its own only line (`lines_eq_of_oneLine`), and texts on one line each can be
told apart again when they are put one below the other (`exists_prefix_of_mem_lines`).
-/
import Lipi.Proofs.Decimal.Layout
import Lipi.Text.Lines
import Lipi.Text.Quoted

set_option autoImplicit false

namespace Lipi.Text

/-- A text without a line feed. -/
def OneLine (text : String) : Prop := '\n' ∉ text.toList

instance (text : String) : Decidable (OneLine text) :=
  inferInstanceAs (Decidable ('\n' ∉ text.toList))

theorem oneLine_append {a b : String} : OneLine (a ++ b) ↔ OneLine a ∧ OneLine b := by
  rw [OneLine, String.toList_append, List.mem_append, not_or]
  exact Iff.rfl

theorem oneLine_ofList {text : List Char} : OneLine (String.ofList text) ↔ '\n' ∉ text := by
  rw [OneLine, String.toList_ofList]

/-- A text between words that stand in this library. -/
theorem oneLine_between {before after : List Char} {text : String} (hbefore : '\n' ∉ before)
    (htext : OneLine text) (hafter : '\n' ∉ after) :
    OneLine (String.ofList before ++ text ++ String.ofList after) :=
  oneLine_append.mpr ⟨oneLine_append.mpr ⟨oneLine_ofList.mpr hbefore, htext⟩,
    oneLine_ofList.mpr hafter⟩

/-- A text after words that stand in this library. -/
theorem oneLine_after {before : List Char} {text : String} (hbefore : '\n' ∉ before)
    (htext : OneLine text) : OneLine (String.ofList before ++ text) :=
  oneLine_append.mpr ⟨oneLine_ofList.mpr hbefore, htext⟩

theorem oneLine_singleton {c : Char} : OneLine (String.singleton c) ↔ c ≠ '\n' := by
  rw [OneLine, String.toList_singleton, List.mem_singleton]
  exact not_congr eq_comm

/-! ## Numbers -/

/-- Digits are written with few characters, whatever the base. -/
theorem not_mem_toDigits {c : Char} (hc : ∀ d : Nat, d.digitChar ≠ c) {base : Nat}
    (hbase : 1 < base) (n : Nat) : c ∉ Nat.toDigits base n := by
  -- The last digit is split off, and what is left is smaller.
  induction n using Nat.strongRecOn with
  | ind n ih =>
    have hdigit : ∀ d : Nat, c ∉ [d.digitChar] := fun d hmem =>
      hc d (List.mem_singleton.mp hmem).symm
    rw [Nat.toDigits_eq_if hbase]
    split
    · exact hdigit n
    · next hle =>
      have hlt : n / base < n := Nat.div_lt_self (by omega) hbase
      rw [List.mem_append, not_or]
      exact ⟨ih _ hlt, hdigit _⟩

theorem lineFeed_not_mem_toDigits {base : Nat} (hbase : 1 < base) (n : Nat) :
    '\n' ∉ Nat.toDigits base n :=
  not_mem_toDigits (fun _ => Nat.digitChar_ne '\n' (by decide)) hbase n

theorem oneLine_toString (n : Nat) : OneLine (toString n) := by
  rw [OneLine, Nat.toString_eq_repr, Nat.toList_repr]
  exact lineFeed_not_mem_toDigits (by decide) n

theorem lineFeed_not_mem_of_isNumberText {text : List Char} (h : IsNumberText text) :
    '\n' ∉ text :=
  fun hmem => absurd (h.forall_isNumeric _ hmem) (by decide)

theorem oneLine_positionalText (x : Float) : OneLine (Decimal.positionalText x) := by
  -- The words for what is no number, or the digits.
  have hbody : ∀ a b : Bool, '\n' ∉
      (if a = true then "NaN".toList else if b = true then "inf".toList
        else (Decimal.shortest (Binary64.magnitude x)).positional) := by
    intro a b
    split
    · decide
    · split
      · decide
      · exact lineFeed_not_mem_of_isNumberText (Decimal.isNumberText_positional _)
  unfold Decimal.positionalText
  rw [oneLine_ofList]
  split
  · rw [List.mem_cons, not_or]
    exact ⟨by decide, hbody _ _⟩
  · exact hbody _ _

theorem oneLine_numberText (x : Float) : OneLine (Value.numberText x) := by
  have hbody : '\n' ∉ Value.magnitudeText (Binary64.magnitude x) :=
    lineFeed_not_mem_of_isNumberText (Value.isNumberText_magnitudeText _)
  unfold Value.numberText
  split
  · decide
  · split
    · split <;> decide
    · split
      · decide
      · dsimp only
        rw [oneLine_ofList]
        split
        · rw [List.mem_cons, not_or]
          exact ⟨by decide, hbody⟩
        · exact hbody

/-! ## Texts in quotes -/

theorem lineFeed_not_mem_escaped (c : Char) : '\n' ∉ escaped c := by
  unfold escaped
  by_cases hfeed : c = '\n'
  · subst hfeed
    decide
  · have hself : '\n' ∉ [c] := by
      rw [List.mem_singleton]
      exact Ne.symm hfeed
    have hhex : '\n' ∉ ['\\', 'u', '\x7b'] ++ hexDigits c.toNat ++ ['\x7d'] := by
      rw [List.mem_append, List.mem_append, not_or, not_or]
      exact ⟨⟨by decide, lineFeed_not_mem_toDigits (by decide) _⟩, by decide⟩
    repeat' split
    all_goals first
      | exact hself
      | exact hhex
      | decide

/-- **Quoting writes every line feed out.** -/
theorem oneLine_quoted (text : String) : OneLine (quoted text) := by
  rw [quoted, oneLine_ofList, List.mem_cons, List.mem_append, List.mem_flatMap, not_or, not_or]
  refine ⟨by decide, ?_, by decide⟩
  rintro ⟨c, -, hmem⟩
  exact lineFeed_not_mem_escaped c hmem

/-! ## Lines -/

theorem linesFrom_cons (reversed : List Char) (c : Char) (rest : List Char) :
    linesFrom reversed (c :: rest)
      = if c = '\n' then endedLine reversed :: linesFrom [] rest
        else linesFrom (c :: reversed) rest := by
  cases reversed <;> rfl

/-- What has no line feed in it goes on with the line. -/
theorem linesFrom_append {text : List Char} (h : '\n' ∉ text) (reversed rest : List Char) :
    linesFrom reversed (text ++ rest) = linesFrom (text.reverse ++ reversed) rest := by
  induction text generalizing reversed with
  | nil => rfl
  | cons c text ih =>
    rw [List.mem_cons, not_or] at h
    rw [List.cons_append, linesFrom_cons, if_neg (Ne.symm h.1), ih h.2, List.reverse_cons,
      List.append_assoc, List.singleton_append]

/-- A text on one line is its only line. -/
theorem lines_eq_of_oneLine {text : String} (h : OneLine text) (hne : text ≠ "") :
    lines text = [text.toList] := by
  have hlines : lines text = linesFrom (text.toList.reverse ++ []) [] := by
    rw [lines, ← linesFrom_append h, List.append_nil]
  rw [hlines, List.append_nil]
  cases hreversed : text.toList.reverse with
  | nil => exact absurd (String.toList_eq_nil_iff.mp (List.reverse_eq_nil_iff.mp hreversed)) hne
  | cons c reversed =>
    show [(c :: reversed).reverse] = _
    rw [← hreversed, List.reverse_reverse]

/-- A line feed takes at most a carriage return off the line that it ends. -/
theorem endedLine_prefix (reversed : List Char) : endedLine reversed <+: reversed.reverse := by
  unfold endedLine
  split
  · rw [List.reverse_cons]
    exact List.prefix_append _ _
  · exact List.prefix_rfl

/-- **Texts on one line each, every one ended by a line feed, are the lines they make up**, but
for carriage returns at their ends. -/
theorem exists_prefix_of_mem_lines {texts : List String} (h : ∀ text ∈ texts, OneLine text)
    {line : List Char} (hline : line ∈ lines (String.join (texts.map (· ++ "\n")))) :
    ∃ text ∈ texts, line <+: text.toList := by
  induction texts with
  | nil => exact absurd hline List.not_mem_nil
  | cons text texts ih =>
    obtain ⟨hfirst, hrest⟩ := List.forall_mem_cons.mp h
    have hlines : lines (String.join ((text :: texts).map (· ++ "\n")))
        = endedLine text.toList.reverse :: lines (String.join (texts.map (· ++ "\n"))) := by
      rw [lines, List.map_cons, String.join_cons, String.toList_append, String.toList_append,
        List.append_assoc, linesFrom_append hfirst, List.append_nil]
      exact (linesFrom_cons _ _ _).trans (if_pos rfl)
    rw [hlines, List.mem_cons] at hline
    rcases hline with rfl | hline
    · refine ⟨text, List.mem_cons_self, ?_⟩
      have := endedLine_prefix text.toList.reverse
      rwa [List.reverse_reverse] at this
    · obtain ⟨text', hmem, hbegins⟩ := ih hrest hline
      exact ⟨text', List.mem_cons_of_mem _ hmem, hbegins⟩

/-- What a line begins with stays at its beginning, unless it ends in a carriage return. -/
theorem exists_mem_linesFrom (c : Char) (hc : c ≠ '\r') (opening later rest : List Char) :
    ∃ line ∈ linesFrom (later ++ c :: opening) rest, (c :: opening).reverse <+: line := by
  have hwhole : (c :: opening).reverse <+: (later ++ c :: opening).reverse := by
    rw [List.reverse_append]
    exact List.prefix_append _ _
  induction rest generalizing later with
  | nil =>
    refine ⟨(later ++ c :: opening).reverse, ?_, hwhole⟩
    cases later <;> exact List.mem_singleton_self _
  | cons d rest ih =>
    rw [linesFrom_cons]
    split
    · refine ⟨_, List.mem_cons_self, ?_⟩
      unfold endedLine
      split
      · next reversed heq =>
        -- The carriage return that is taken off came later.
        cases later with
        | nil =>
          rw [List.nil_append, List.cons.injEq] at heq
          exact absurd heq.1 hc
        | cons d later =>
          rw [List.cons_append, List.cons.injEq] at heq
          rw [← heq.2, List.reverse_append]
          exact List.prefix_append _ _
      · exact hwhole
    · exact ih (d :: later) (by rw [List.reverse_append]; exact List.prefix_append _ _)

/-- A text that opens with words has a line that does. -/
theorem exists_mem_lines_of_prefix {words : List Char} {c : Char} {text : String}
    (hfeed : '\n' ∉ words ++ [c]) (hc : c ≠ '\r') (h : words ++ [c] <+: text.toList) :
    ∃ line ∈ lines text, words ++ [c] <+: line := by
  obtain ⟨rest, hrest⟩ := h
  have := exists_mem_linesFrom c hc words.reverse [] rest
  rw [lines, ← hrest, linesFrom_append hfeed]
  simpa using this

end Lipi.Text
