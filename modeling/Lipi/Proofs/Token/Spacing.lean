/-
What layout is, said without measuring it.

`Layout.Complete` builds layout from blanks and comments, each comment with what ends it:
a line comment with its line feed, a block comment with its closing signs. Only at the end
of a source may a line comment do without (`Layout.Trailing`).

Measuring stops exactly at the end of such layout. Whatever follows complete layout is
measured as if it stood alone, only further on (`Complete.measure`); and if measuring ends
somewhere, then complete layout was passed and something that is no layout comes next, or
the text is over (`measure_ends`). So the layout between two tokens can be taken apart,
put together and replaced without another look at the scanner.
-/
import Lipi.Proofs.Text.Stretch
import Lipi.Proofs.Token.Scanning

set_option autoImplicit false

namespace Lipi

namespace Layout

/-! ## Layout as a text -/

/-- Blanks and complete comments. -/
inductive Complete : List Char → Prop where
  | nil : Complete []
  | blank {c : Char} {rest : List Char} (h : Text.isBlank c = true) (hrest : Complete rest) :
      Complete (c :: rest)
  /-- A comment up to a line feed, which is layout itself. -/
  | line {body rest : List Char} (h : '\n' ∉ body) (hrest : Complete ('\n' :: rest)) :
      Complete ('/' :: '/' :: (body ++ '\n' :: rest))
  /-- A comment that the first closing signs after its opening end. -/
  | block {body rest : List Char} (h : ¬ ['*', '/'] <:+: body) (hrest : Complete rest) :
      Complete ('/' :: '*' :: (body ++ '*' :: '/' :: rest))

/-- Layout at the end of a source, where the last line comment needs no line feed. -/
def Trailing (text : List Char) : Prop :=
  Complete text ∨ ∃ before body, Complete before ∧ '\n' ∉ body
    ∧ text = before ++ '/' :: '/' :: body

/-- Something stands at the front of a text, and it is neither a blank nor the beginning of
a comment. -/
def Clear (text : List Char) : Prop :=
  ∃ c rest, text = c :: rest ∧ Text.isBlank c = false
    ∧ (c = '/' → ∀ more, rest ≠ '/' :: more ∧ rest ≠ '*' :: more)

theorem Complete.append {a b : List Char} (ha : Complete a) (hb : Complete b) :
    Complete (a ++ b) := by
  induction ha with
  | nil => exact hb
  | blank h _ ih => exact .blank h ih
  | line h _ ih =>
    rw [List.cons_append, List.cons_append, List.append_assoc]
    exact .line h ih
  | block h _ ih =>
    rw [List.cons_append, List.cons_append, List.append_assoc]
    exact .block h ih

theorem Complete.append_trailing {a b : List Char} (ha : Complete a) (hb : Trailing b) :
    Trailing (a ++ b) := by
  rcases hb with hb | ⟨before, body, hbefore, hbody, rfl⟩
  · exact .inl (ha.append hb)
  · refine .inr ⟨a ++ before, body, ha.append hbefore, hbody, ?_⟩
    rw [List.append_assoc]

/-! ## Comments -/

theorem forall_ne_lineFeed {body : List Char} (h : '\n' ∉ body) :
    ∀ c ∈ body, (c != '\n') = true :=
  fun _ hc => bne_iff_ne.mpr fun he => h (he ▸ hc)

/-- A body without closing signs is passed up to the closing signs after it. -/
theorem commentLength?_of_body {body : List Char} (h : ¬ ['*', '/'] <:+: body)
    (rest : List Char) (passed : Nat) :
    commentLength? (body ++ '*' :: '/' :: rest) passed = some (passed + body.length + 2) := by
  induction body generalizing passed with
  | nil => rfl
  | cons c body ih =>
    rw [List.infix_cons_iff, not_or] at h
    rw [List.cons_append, commentLength?, ih h.2, List.length_cons]
    · congr 1
      omega
    · -- A star here is not followed by a slash, not even by the closing signs.
      rintro more rfl he
      rcases body with _ | ⟨d, body⟩
      · cases he
      · obtain rfl : d = '/' := (List.cons.inj he).1
        exact h.1 ⟨body, rfl⟩

/-- What is passed to the first closing signs is a body without any, and these. -/
theorem exists_body_of_commentLength? {text : List Char} {passed n : Nat}
    (h : commentLength? text passed = some n) :
    ∃ body rest, text = body ++ '*' :: '/' :: rest ∧ ¬ ['*', '/'] <:+: body
      ∧ n = passed + body.length + 2 := by
  induction text, passed using commentLength?.induct with
  | case1 passed => cases h
  | case2 rest passed =>
    refine ⟨[], rest, rfl, ?_, (Option.some.inj h).symm⟩
    rw [List.infix_nil]
    exact List.cons_ne_nil _ _
  | case3 c rest passed hne ih =>
    rw [commentLength?] at h
    · obtain ⟨body, more, rfl, hbody, rfl⟩ := ih h
      refine ⟨c :: body, more, rfl, ?_, ?_⟩
      · rw [List.infix_cons_iff, not_or]
        refine ⟨?_, hbody⟩
        rintro ⟨tail, he⟩
        obtain ⟨rfl, hslash⟩ := List.cons.inj he
        exact hne (tail ++ '*' :: '/' :: more) rfl (by rw [← hslash]; rfl)
      · rw [List.length_cons]
        omega
    · exact hne

theorem drop_closed (body rest : List Char) :
    (body ++ '*' :: '/' :: rest).drop (0 + body.length + 2) = rest := by
  rw [Nat.zero_add, ← List.drop_drop, List.drop_left]
  rfl

/-! ## Measuring -/

/-- **Complete layout is passed**, and what follows it is measured by itself. -/
theorem Complete.measure {gap : List Char} (h : Complete gap) (text : List Char) (passed : Nat) :
    Layout.measure (gap ++ text) passed = Layout.measure text (passed + gap.length) := by
  induction h generalizing passed with
  | nil => rfl
  | blank h _ ih =>
    rw [List.cons_append, measure_blank h, ih, List.length_cons]
    congr 1
    omega
  | @line body rest h _ ih =>
    have hline : (body ++ '\n' :: (rest ++ text)).takeWhile (· != '\n') = body :=
      takeWhile_stretch (forall_ne_lineFeed h) (by rintro c ⟨⟩; rfl)
    rw [List.cons_append, List.cons_append, List.append_assoc, List.cons_append,
      measure_lineComment, hline, List.drop_left]
    rw [List.cons_append] at ih
    rw [ih]
    simp only [List.length_cons, List.length_append]
    congr 1
    omega
  | @block body rest h _ ih =>
    have hclosed := commentLength?_of_body h (rest ++ text) 0
    rw [List.cons_append, List.cons_append, List.append_assoc, List.cons_append, List.cons_append,
      measure_blockComment hclosed, drop_closed, ih]
    simp only [List.length_cons, List.length_append]
    congr 1
    omega

theorem Clear.measure {text : List Char} (h : Clear text) (passed : Nat) :
    Layout.measure text passed = .ends passed := by
  obtain ⟨c, rest, rfl, hblank, hcomment⟩ := h
  exact measure_other hblank (fun more hc he => (hcomment hc more).1 he)
    (fun more hc he => (hcomment hc more).2 he) passed

/-- Layout at the end of a source is passed to the end. -/
theorem Trailing.measure {text : List Char} (h : Trailing text) (passed : Nat) :
    Layout.measure text passed = .ends (passed + text.length) := by
  rcases h with h | ⟨before, body, hbefore, hbody, rfl⟩
  · have hend := h.measure [] passed
    rw [List.append_nil, measure_nil] at hend
    exact hend
  · have hall : body.takeWhile (· != '\n') = body := by
      have hline := takeWhile_stretch (b := []) (forall_ne_lineFeed hbody) nofun
      rwa [List.append_nil] at hline
    rw [hbefore.measure, measure_lineComment, hall, List.drop_length, measure_nil]
    simp only [List.length_append, List.length_cons]
    congr 1
    omega

/-- Where measuring ends: after complete layout, with something else ahead, or at the end
of a text that is layout to its end. -/
def EndsAt (text : List Char) (n : Nat) : Prop :=
  (∃ gap rest, text = gap ++ rest ∧ n = gap.length ∧ Complete gap ∧ Clear rest)
    ∨ (n = text.length ∧ Trailing text)

/-- Layout in front of a text only puts the end further on. -/
theorem EndsAt.after {gap text : List Char} {n : Nat} (h : EndsAt text n) (hgap : Complete gap) :
    EndsAt (gap ++ text) (gap.length + n) := by
  rcases h with ⟨more, rest, rfl, rfl, hmore, hclear⟩ | ⟨rfl, htrailing⟩
  · refine .inl ⟨gap ++ more, rest, ?_, List.length_append.symm, hgap.append hmore, hclear⟩
    rw [List.append_assoc]
  · exact .inr ⟨List.length_append.symm, hgap.append_trailing htrailing⟩

/-- A comment in front of the line feed that ends it does so too. -/
theorem EndsAt.after_line {body rest : List Char} {n : Nat} (hbody : '\n' ∉ body)
    (h : EndsAt ('\n' :: rest) n) :
    EndsAt ('/' :: '/' :: (body ++ '\n' :: rest)) (body.length + 2 + n) := by
  rcases h with ⟨gap, after, he, rfl, hgap, hclear⟩ | ⟨rfl, htrailing⟩
  · rcases gap with _ | ⟨c, gap⟩
    · -- A line feed is a blank, so layout does not end before it.
      obtain ⟨c, tail, rfl, hblank, -⟩ := hclear
      obtain ⟨rfl, -⟩ := List.cons.inj he
      cases hblank
    · obtain ⟨rfl, rfl⟩ := List.cons.inj he
      refine .inl ⟨_, after, ?_, ?_, .line hbody hgap, hclear⟩
      · simp only [List.cons_append, List.append_assoc]
        rfl
      · simp only [List.length_cons, List.length_append]
        omega
  · refine .inr ⟨?_, ?_⟩
    · simp only [List.length_cons, List.length_append]
      omega
    · rcases htrailing with hcomplete | ⟨before, tail, hbefore, htail, he⟩
      · exact .inl (.line hbody hcomplete)
      · rcases before with _ | ⟨c, before⟩
        · cases he
        · obtain ⟨rfl, rfl⟩ := List.cons.inj he
          refine .inr ⟨_, tail, .line hbody hbefore, htail, ?_⟩
          simp only [List.cons_append, List.append_assoc]
          rfl

/-- **Where measuring ends**, complete layout lies behind and something else ahead, or the
text is over and was layout to its end. -/
theorem measure_ends {text : List Char} {passed n : Nat}
    (h : Layout.measure text passed = .ends n) : ∃ k, n = passed + k ∧ EndsAt text k := by
  induction text, passed using Layout.measure.induct with
  -- A line comment ends at a line feed or with the text.
  | case1 passed rest body ih =>
    rw [measure_lineComment] at h
    obtain ⟨k, rfl, hk⟩ := ih h
    obtain ⟨line, after, rfl, hline, hpass, hafter⟩ := exists_stretch (· != '\n') rest
    have hbody : body = line := hline
    have hfeed : '\n' ∉ line := fun hmem => absurd (hpass _ hmem) (by decide)
    rw [hbody, List.drop_left] at hk
    rw [hbody]
    refine ⟨line.length + 2 + k, by omega, ?_⟩
    rcases after with _ | ⟨c, after⟩
    · rw [List.append_nil]
      rcases hk with ⟨gap, rest, he, -, -, hclear⟩ | ⟨rfl, -⟩
      · obtain ⟨c, tail, rfl, -⟩ := hclear
        exact absurd he (by simp)
      · exact .inr ⟨rfl, .inr ⟨[], line, .nil, hfeed, rfl⟩⟩
    · obtain rfl : c = '\n' := by simpa using hafter c rfl
      exact hk.after_line hfeed
  -- A block comment is passed to its closing signs.
  | case2 passed rest n hn ih =>
    rw [measure_blockComment hn] at h
    obtain ⟨k, rfl, hk⟩ := ih h
    obtain ⟨body, after, rfl, hbody, rfl⟩ := exists_body_of_commentLength? hn
    rw [drop_closed] at hk
    have hcomment : Complete ('/' :: '*' :: (body ++ ['*', '/'])) := .block hbody .nil
    have hall := hk.after hcomment
    have htext : '/' :: '*' :: (body ++ ['*', '/']) ++ after
        = '/' :: '*' :: (body ++ '*' :: '/' :: after) := by simp
    have hlength : ('/' :: '*' :: (body ++ ['*', '/'])).length = 2 + (0 + body.length + 2) := by
      simp only [List.length_cons, List.length_append, List.length_nil]
      omega
    rw [htext, hlength] at hall
    exact ⟨2 + (0 + body.length + 2) + k, by omega, hall⟩
  | case3 passed rest hk =>
    rw [measure_openComment hk] at h
    cases h
  | case4 passed c rest hl hb hblank ih =>
    rw [measure_blank hblank] at h
    obtain ⟨k, rfl, hk⟩ := ih h
    refine ⟨1 + k, by omega, hk.after (.blank hblank .nil)⟩
  | case5 passed c rest hl hb hblank =>
    have hother := Bool.eq_false_iff.mpr hblank
    rw [measure_other hother hl hb] at h
    obtain rfl := Layout.ends.inj h
    exact ⟨0, rfl, .inl ⟨[], c :: rest, rfl, rfl, .nil, c, rest, rfl, hother,
      fun hc more => ⟨fun he => hl more hc he, fun he => hb more hc he⟩⟩⟩
  | case6 passed =>
    rw [measure_nil] at h
    obtain rfl := Layout.ends.inj h
    exact ⟨0, rfl, .inr ⟨rfl, .inl .nil⟩⟩

end Layout

end Lipi
