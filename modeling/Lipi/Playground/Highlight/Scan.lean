/-
Finding the spans of a line with an index.

The characters of a line are numbered, and an index runs over them. Each pass of the loop
looks at the character under the index, runs on to where its span ends and takes the slice
between the two places. An inner loop may run past the end of the line, by a backslash
that is the last character and takes the one behind it along; where it can, the place is
brought back to the end before the slice is taken. A slice outside the line would be the end
of everything, so `slice?` has no answer there, and neither has the loop.

Two facts keep it going. Each pass moves the index on (`lt_next_of_pass?`), which is why
the loop ends; and the place where a span ends is that at which the line is cut
(`skip_eq`, `skipComment_eq`, `skipQuoted_eq`), so every slice is taken inside the line and
the loop finds the spans that the line is cut into (`scan?_eq`).
-/
import Lipi.Playground.Highlight.Cut

set_option autoImplicit false

namespace Lipi.Playground.Scan

/-! ## The inner loops -/

/-- The characters between two places, if both are in the line and in this order
(`collect`). -/
def slice? (chars : Array Char) (start stop : Nat) : Option (List Char) :=
  if start ≤ stop ∧ stop ≤ chars.size then some (chars.extract start stop).toList else none

/-- Runs on over characters that pass a test. -/
def skip (p : Char → Bool) (chars : Array Char) (i : Nat) : Nat :=
  if h : i < chars.size then
    if p chars[i] then skip p chars (i + 1) else i
  else i
termination_by chars.size - i

/-- Runs on to the end of a block comment. -/
def skipComment (chars : Array Char) (i : Nat) : Nat :=
  if h : i < chars.size then
    if chars[i] = '*' ∧ chars[i + 1]? = some '/' then i else skipComment chars (i + 1)
  else i
termination_by chars.size - i

/-- How far a character of a quoted text reaches: a backslash takes the next one along. -/
def stride (c : Char) : Nat := if c = '\\' then 2 else 1

theorem stride_pos (c : Char) : 0 < stride c := by
  unfold stride
  split <;> decide

/-- Runs on to a quote, or past the end of the line. -/
def skipQuoted (quote : Char) (chars : Array Char) (i : Nat) : Nat :=
  if h : i < chars.size then
    if chars[i] = quote then i else skipQuoted quote chars (i + stride chars[i])
  else i
termination_by chars.size - i
decreasing_by
  have := stride_pos chars[i]
  omega

/-! ## A pass of the loop -/

/-- What a pass has found: a span, where the next pass begins unless the loop is left, and
whether a block comment is open then. -/
structure Pass where
  span : Span
  next : Option Nat
  inComment : Bool
deriving DecidableEq, Repr

/-- Takes the characters between two places as a span, whose role they may decide, and goes
on behind it. -/
def take? (chars : Array Char) (start stop : Nat) (role : List Char → Role) (inComment : Bool) :
    Option Pass :=
  (slice? chars start stop).map fun text => ⟨⟨text, role text⟩, some stop, inComment⟩

/-- A pass inside a block comment. -/
def passInside? (chars : Array Char) (i : Nat) : Option Pass :=
  let stop := skipComment chars i
  if stop < chars.size then take? chars i (stop + 2) (fun _ => .comment) false
  else take? chars i stop (fun _ => .comment) true

/-- A pass outside comments, given the character under the index. -/
def passOutside? (chars : Array Char) (i : Nat) (c : Char) : Option Pass :=
  if c = '/' ∧ chars[i + 1]? = some '/' then
    (slice? chars i chars.size).map fun text => ⟨⟨text, .comment⟩, none, false⟩
  else if c = '/' ∧ chars[i + 1]? = some '*' then
    some ⟨⟨['/', '*'], .comment⟩, some (i + 2), true⟩
  else if c = '"' ∨ c = '\'' then
    take? chars i (min (skipQuoted c chars (i + 1) + 1) chars.size) (fun _ => .text) false
  else if c.isDigit then take? chars i (skip isNumberChar chars i) (fun _ => .number) false
  else if c.isAlpha ∨ c = '_' then
    take? chars i (skip Lexeme.isWordChar chars i) (fun word => wordRole (String.ofList word)) false
  else some ⟨⟨[c], signRole c⟩, some (i + 1), false⟩

/-- A pass of the loop, given the character under the index. -/
def pass? (chars : Array Char) (i : Nat) (c : Char) (inComment : Bool) : Option Pass :=
  if inComment then passInside? chars i else passOutside? chars i c

/-! ## Moving on -/

theorem le_skip (p : Char → Bool) (chars : Array Char) (i : Nat) : i ≤ skip p chars i := by
  fun_induction skip p chars i with
  | case1 i h hp ih => omega
  | case2 | case3 => exact Nat.le_refl _

theorem lt_skip {p : Char → Bool} {chars : Array Char} {i : Nat} (h : i < chars.size)
    (hp : p chars[i] = true) : i < skip p chars i := by
  rw [skip, dif_pos h, if_pos hp]
  exact le_skip p chars (i + 1)

theorem le_skipComment (chars : Array Char) (i : Nat) : i ≤ skipComment chars i := by
  fun_induction skipComment chars i with
  | case2 i h hends ih => omega
  | case1 | case3 => exact Nat.le_refl _

theorem le_skipQuoted (quote : Char) (chars : Array Char) (i : Nat) :
    i ≤ skipQuoted quote chars i := by
  fun_induction skipQuoted quote chars i with
  | case2 i h hquote ih => exact Nat.le_trans (Nat.le_add_right i _) ih
  | case1 | case3 => exact Nat.le_refl _

theorem next_of_take? {chars : Array Char} {start stop : Nat} {role : List Char → Role}
    {inComment : Bool} {pass : Pass} (h : take? chars start stop role inComment = some pass) :
    pass.next = some stop := by
  obtain ⟨text, -, rfl⟩ := Option.map_eq_some_iff.mp h
  rfl

theorem lt_next_of_passInside? {chars : Array Char} {i next : Nat} (hi : i < chars.size)
    {pass : Pass} (h : passInside? chars i = some pass) (hnext : pass.next = some next) :
    i < next := by
  have hle := le_skipComment chars i
  unfold passInside? at h
  dsimp only at h
  split at h
  · rw [next_of_take? h, Option.some.injEq] at hnext
    omega
  · rw [next_of_take? h, Option.some.injEq] at hnext
    omega

theorem lt_next_of_passOutside? {chars : Array Char} {i next : Nat} (hi : i < chars.size)
    {pass : Pass} (h : passOutside? chars i chars[i] = some pass) (hnext : pass.next = some next) :
    i < next := by
  unfold passOutside? at h
  split at h
  · -- A comment that runs to the end of the line leaves the loop.
    obtain ⟨text, -, rfl⟩ := Option.map_eq_some_iff.mp h
    cases hnext
  · split at h
    · cases h
      cases hnext
      omega
    · split at h
      · -- The clamp takes nothing back that was passed: the quote itself is in the line.
        have hle := le_skipQuoted chars[i] chars (i + 1)
        rw [next_of_take? h, Option.some.injEq] at hnext
        omega
      · split at h
        · -- The first character of a number continues it, and so with words.
          next hdigit =>
          rw [next_of_take? h, Option.some.injEq] at hnext
          exact hnext ▸ lt_skip hi (isNumberChar_of_isDigit hdigit)
        · split at h
          · next hword =>
            rw [next_of_take? h, Option.some.injEq] at hnext
            exact hnext ▸ lt_skip hi (Lexeme.isWordChar_of_isAlpha hword)
          · cases h
            cases hnext
            omega

/-- **Each pass moves the index on.** -/
theorem lt_next_of_pass? {chars : Array Char} {i next : Nat} (hi : i < chars.size)
    {inComment : Bool} {pass : Pass} (h : pass? chars i chars[i] inComment = some pass)
    (hnext : pass.next = some next) : i < next := by
  cases inComment with
  | true => exact lt_next_of_passInside? hi h hnext
  | false => exact lt_next_of_passOutside? hi h hnext

/-! ## The loop -/

/-- Runs the loop from a place, with the spans found before. -/
def scanFrom? (chars : Array Char) (i : Nat) (inComment : Bool) (spans : Array Span) :
    Option (List Span × Bool) :=
  if hi : i < chars.size then
    match hpass : pass? chars i chars[i] inComment with
    | none => none
    | some pass =>
      match hnext : pass.next with
      | none => some ((spans.push pass.span).toList, pass.inComment)
      | some next => scanFrom? chars next pass.inComment (spans.push pass.span)
  else some (spans.toList, inComment)
termination_by chars.size - i
decreasing_by
  have := lt_next_of_pass? hi hpass hnext
  omega

/-- The spans of a line, and whether a block comment is open at its end
(`highlight_line`). -/
def scan? (inComment : Bool) (line : List Char) : Option (List Span × Bool) :=
  scanFrom? line.toArray 0 inComment #[]

/-! ## What the inner loops find

Each is compared with what is split off what stands behind the index. -/

section Finding

variable {chars : Array Char} {i : Nat}

theorem drop_eq_cons (h : i < chars.size) :
    chars.toList.drop i = chars[i] :: chars.toList.drop (i + 1) := by
  rw [List.drop_eq_getElem_cons (by rwa [Array.length_toList]), Array.getElem_toList]

theorem drop_of_size_le (h : chars.size ≤ i) : chars.toList.drop i = [] :=
  List.drop_of_length_le (by rwa [Array.length_toList])

/-- The character behind the one under the index. -/
theorem getElem?_succ (chars : Array Char) (i : Nat) :
    chars[i + 1]? = (chars.toList.drop (i + 1)).head? := by
  rw [List.head?_drop, Array.getElem?_toList]

theorem skip_eq (p : Char → Bool) (chars : Array Char) (i : Nat) :
    skip p chars i = i + ((chars.toList.drop i).takeWhile p).length := by
  fun_induction skip p chars i with
  | case1 i h hp ih =>
    rw [ih, drop_eq_cons h, List.takeWhile_cons_of_pos hp, List.length_cons]
    omega
  | case2 i h hp =>
    rw [drop_eq_cons h, List.takeWhile_cons_of_neg hp, List.length_nil, Nat.add_zero]
  | case3 i h =>
    rw [drop_of_size_le (Nat.le_of_not_lt h), List.takeWhile_nil, List.length_nil, Nat.add_zero]

/-- The end of a comment is two characters behind the place that is found, or the end of the
line if none is. -/
theorem skipComment_eq (chars : Array Char) (i : Nat) :
    (if skipComment chars i < chars.size then skipComment chars i + 2 else skipComment chars i)
        = i + (splitComment (chars.toList.drop i)).1.length
      ∧ (splitComment (chars.toList.drop i)).2.2 = !decide (skipComment chars i < chars.size) := by
  fun_induction skipComment chars i with
  | case1 i h hends =>
    rw [getElem?_succ] at hends
    rw [drop_eq_cons h, splitComment_cons, if_pos hends, if_pos h, decide_eq_true h]
    exact ⟨rfl, rfl⟩
  | case2 i h hends ih =>
    rw [getElem?_succ] at hends
    rw [drop_eq_cons h, splitComment_cons, if_neg hends, ih.1, List.length_cons]
    exact ⟨by omega, ih.2⟩
  | case3 i h =>
    rw [drop_of_size_le (Nat.le_of_not_lt h), if_neg h, decide_eq_false h]
    exact ⟨rfl, rfl⟩

/-- The end of a quoted text is one character behind the place that is found, brought back to
the end of the line: the place is there if the quote has no partner, and one further if the
last character is a backslash. -/
theorem skipQuoted_eq {quote : Char} (hquote : quote ≠ '\\') (hi : i ≤ chars.size) :
    min (skipQuoted quote chars i + 1) chars.size
      = i + (splitQuoted quote (chars.toList.drop i)).1.length := by
  fun_induction skipQuoted quote chars i with
  | case1 i h hends =>
    rw [drop_eq_cons h, splitQuoted_cons (hends ▸ hquote), if_pos hends, List.length_singleton]
    omega
  | case2 i h hends ih =>
    by_cases hescape : chars[i] = '\\'
    · have htwo : stride chars[i] = 2 := if_pos hescape
      rw [htwo] at ih
      rw [htwo, drop_eq_cons h, hescape]
      by_cases hnext : i + 1 < chars.size
      · rw [ih hnext, drop_eq_cons hnext, splitQuoted_escaped, List.length_cons, List.length_cons,
          Nat.add_assoc, Nat.add_comm 2]
      · -- The backslash is the last character: the index runs past the end.
        have hover : skipQuoted quote chars (i + 2) = i + 2 := by
          rw [skipQuoted, dif_neg (by omega)]
        rw [hover, drop_of_size_le (Nat.le_of_not_lt hnext), splitQuoted_backslash,
          List.length_singleton]
        omega
    · have hone : stride chars[i] = 1 := if_neg hescape
      rw [hone] at ih
      rw [hone, ih h, drop_eq_cons h, splitQuoted_cons hescape, if_neg hends,
        List.length_cons]
      omega
  | case3 i h =>
    rw [drop_of_size_le (Nat.le_of_not_lt h)]
    show min (i + 1) chars.size = i
    omega

end Finding

/-! ## What a pass finds -/

/-- A pass finds what is cut off the line behind the index, and goes on in front of the rest. -/
structure Pass.Finds (chars : Array Char) (pass : Pass) (front : Cut) : Prop where
  span : pass.span = ⟨front.text, front.role⟩
  inComment : pass.inComment = front.inComment
  rest : chars.toList.drop (pass.next.getD chars.size) = front.rest

section Passes

variable {chars : Array Char} {i : Nat} {text rest : List Char}

theorem drop_add (h : chars.toList.drop i = text ++ rest) :
    chars.toList.drop (i + text.length) = rest := by
  rw [← List.drop_drop, h, List.drop_left]

/-- What stands behind an index can be taken as a slice. -/
theorem slice?_eq (hi : i ≤ chars.size) (h : chars.toList.drop i = text ++ rest) :
    slice? chars i (i + text.length) = some text := by
  have hlength := congrArg List.length h
  rw [List.length_drop, Array.length_toList, List.length_append] at hlength
  rw [slice?, if_pos (by omega), Array.toList_extract, List.extract_eq_take_drop,
    Nat.add_sub_cancel_left, h, List.take_left]

theorem finds_take? (hi : i ≤ chars.size) (h : chars.toList.drop i = text ++ rest) {stop : Nat}
    (hstop : stop = i + text.length) (role : List Char → Role) (inComment : Bool) :
    ∃ pass, take? chars i stop role inComment = some pass
      ∧ pass.Finds chars ⟨text, role text, rest, inComment⟩ := by
  refine ⟨⟨⟨text, role text⟩, some stop, inComment⟩, ?_, rfl, rfl, ?_⟩
  · rw [take?, hstop, slice?_eq hi h, Option.map_some]
  · rw [hstop]
    exact drop_add h

theorem finds_passInside? (h : i < chars.size) :
    ∃ pass, passInside? chars i = some pass
      ∧ pass.Finds chars (cut true chars[i] (chars.toList.drop (i + 1))) := by
  have hwhole := splitComment_append (chars.toList.drop i)
  obtain ⟨hstop, hopen⟩ := skipComment_eq chars i
  rw [drop_eq_cons h] at hwhole hstop hopen
  unfold passInside? cut
  dsimp only
  split
  · next hclosed =>
    rw [if_pos hclosed] at hstop
    rw [decide_eq_true hclosed] at hopen
    rw [if_pos rfl, hopen]
    exact finds_take? (Nat.le_of_lt h) (by rw [drop_eq_cons h, hwhole]) hstop _ _
  · next hclosed =>
    rw [if_neg hclosed] at hstop
    rw [decide_eq_false hclosed] at hopen
    rw [if_pos rfl, hopen]
    exact finds_take? (Nat.le_of_lt h) (by rw [drop_eq_cons h, hwhole]) hstop _ _

theorem finds_passOutside? (h : i < chars.size) :
    ∃ pass, passOutside? chars i chars[i] = some pass
      ∧ pass.Finds chars (cutOutside chars[i] (chars.toList.drop (i + 1))) := by
  have hi := Nat.le_of_lt h
  have hdrop := drop_eq_cons h
  unfold passOutside? cutOutside
  rw [getElem?_succ]
  -- Both ask the same questions in the same order, so they are split together.
  split
  · -- A comment that runs to the end of the line.
    have hstop : chars.size = i + (chars.toList.drop i).length := by
      rw [List.length_drop, Array.length_toList]
      omega
    have hslice := slice?_eq hi (List.append_nil (chars.toList.drop i)).symm
    rw [← hstop, hdrop] at hslice
    rw [hslice]
    exact ⟨_, rfl, rfl, rfl, drop_of_size_le (Nat.le_refl _)⟩
  · split
    · -- The two characters that open a comment, which are not taken as a slice.
      refine ⟨_, rfl, rfl, rfl, ?_⟩
      rw [List.tail_drop]
      rfl
    · split
      · -- A quoted text, whose quote is not the character that escapes.
        next hquote =>
        have hescape : chars[i] ≠ '\\' := by
          rcases hquote with hquote | hquote
          · rw [hquote]
            decide
          · rw [hquote]
            decide
        refine finds_take? hi ?_ ?_ _ _
        · rw [List.cons_append, splitQuoted_append, hdrop]
        · have hnext : i + 1 ≤ chars.size := h
          rw [skipQuoted_eq hescape hnext, List.length_cons]
          omega
      · split
        · next hdigit =>
          have hp := isNumberChar_of_isDigit hdigit
          refine finds_take? hi ?_ ?_ _ _
          · rw [List.cons_append, List.takeWhile_append_dropWhile, hdrop]
          · rw [skip_eq, hdrop, List.takeWhile_cons_of_pos hp]
        · split
          · next hword =>
            have hp := Lexeme.isWordChar_of_isAlpha hword
            refine finds_take? hi ?_ ?_ (fun word => wordRole (String.ofList word)) _
            · rw [List.cons_append, List.takeWhile_append_dropWhile, hdrop]
            · rw [skip_eq, hdrop, List.takeWhile_cons_of_pos hp]
          · exact ⟨_, rfl, rfl, rfl, rfl⟩

/-- **A pass cuts the line under the index.** In particular its slice is in the line. -/
theorem finds_pass? (h : i < chars.size) (inComment : Bool) :
    ∃ pass, pass? chars i chars[i] inComment = some pass
      ∧ pass.Finds chars (cut inComment chars[i] (chars.toList.drop (i + 1))) := by
  cases inComment with
  | true => exact finds_passInside? h
  | false => exact finds_passOutside? h

end Passes

/-! ## What the loop finds -/

theorem scanFrom?_eq (chars : Array Char) (i : Nat) (inComment : Bool) (spans : Array Span) :
    scanFrom? chars i inComment spans
      = some (spans.toList ++ (cutLine inComment (chars.toList.drop i)).1,
          (cutLine inComment (chars.toList.drop i)).2) := by
  fun_induction scanFrom? chars i inComment spans with
  | case1 i inComment spans hi hpass =>
    obtain ⟨pass, hfound, -⟩ := finds_pass? hi inComment
    rw [hfound] at hpass
    cases hpass
  | case2 i inComment spans hi pass hpass hnext =>
    -- The loop is left, with nothing behind the span.
    obtain ⟨_, hfound, hspan, hopen, hrest⟩ := finds_pass? hi inComment
    cases hfound.symm.trans hpass
    rw [hnext, Option.getD_none, drop_of_size_le (Nat.le_refl _)] at hrest
    rw [drop_eq_cons hi, cutLine, ← hrest, cutLine, ← hspan, ← hopen, Array.toList_push]
  | case3 i inComment spans hi pass hpass next hnext ih =>
    obtain ⟨_, hfound, hspan, hopen, hrest⟩ := finds_pass? hi inComment
    cases hfound.symm.trans hpass
    rw [hnext, Option.getD_some] at hrest
    rw [ih, drop_eq_cons hi, cutLine, ← hrest, ← hspan, ← hopen, Array.toList_push,
      List.append_assoc, List.singleton_append]
  | case4 i inComment spans hi =>
    rw [drop_of_size_le (Nat.le_of_not_lt hi), cutLine, List.append_nil]

/-- **The loop cuts the line.** It gets to the end, with the spans the line is cut into. -/
theorem scan?_eq (inComment : Bool) (line : List Char) :
    scan? inComment line = some (cutLine inComment line) := by
  rw [scan?, scanFrom?_eq]
  rfl

end Lipi.Playground.Scan
