/-
Clusters: what a reader takes for one character.

A letter and its marks, a syllable of Hangul, a conjunct of an Indic script, a pair of
regional letters and a row of joined pictographs are one cluster each, and a cluster
is drawn as one. The borders are those of extended grapheme clusters in the Unicode
standard. Whether there is one before a character depends on its class, on the class
before it and on three things about what the cluster holds so far, which `Context`
keeps. Cutting a text into clusters loses nothing, and no cluster is empty.
-/
import Lipi.Text.Boundary

set_option autoImplicit false

namespace Lipi.Text

/-- How far a cluster has come towards joining two of a kind: it does not end in one
of them, or it does, or it has also had what joins another to it. -/
inductive Progress where
  | absent
  | present
  | joining
deriving DecidableEq, Repr

/-- What is known of a cluster that is being read. -/
structure Context where
  last : Boundary
  picture : Progress
  conjunct : Progress
  oddRegional : Bool
deriving DecidableEq, Repr

namespace Context

/-- What is known before anything is read. -/
def blank : Context := ⟨.control, .absent, .absent, false⟩

/-- How a pictograph gets on. -/
def pictureAfter (x : Context) (b : Boundary) : Progress :=
  match x.picture, b with
  | _, .pictograph => .present
  | .present, .extending => .present
  | .present, .joiner => .joining
  | _, _ => .absent

/-- How a conjunct gets on. Any mark may stand around the virama, and so may a joiner,
but not the sign that keeps neighbours apart. -/
def conjunctAfter (x : Context) (b : Boundary) (c : Char) : Progress :=
  if isConjunctConsonant c then .present
  else if x.conjunct = .absent then .absent
  else if isVirama c then .joining
  else if (b = .extending ∨ b = .joiner) ∧ c ≠ '\u200C' then x.conjunct
  else .absent

/-- What is known after one more character of the cluster. -/
def next (x : Context) (c : Char) : Context :=
  let b := Boundary.ofChar c
  ⟨b, x.pictureAfter b, x.conjunctAfter b c, b == .regional && !x.oddRegional⟩

/-- Whether a character goes on with the cluster. -/
def goesOn (x : Context) (c : Char) : Bool :=
  match x.last, Boundary.ofChar c with
  | .carriageReturn, .lineFeed => true
  | .carriageReturn, _ | .lineFeed, _ | .control, _ => false
  | _, .carriageReturn | _, .lineFeed | _, .control => false
  | .leadingJamo, .leadingJamo | .leadingJamo, .vowelJamo => true
  | .leadingJamo, .openSyllable | .leadingJamo, .closedSyllable => true
  | .openSyllable, .vowelJamo | .openSyllable, .trailingJamo => true
  | .vowelJamo, .vowelJamo | .vowelJamo, .trailingJamo => true
  | .closedSyllable, .trailingJamo | .trailingJamo, .trailingJamo => true
  | _, .extending | _, .joiner | _, .spacing => true
  | .prepended, _ => true
  | _, .pictograph => x.picture == .joining
  | _, .regional => x.oddRegional
  | _, _ => x.conjunct == .joining && isConjunctConsonant c

end Context

/-- The clusters of a text, given the beginning of the first in reverse. -/
def clustersFrom (x : Context) (reversed : List Char) : List Char → List (List Char)
  | [] => [reversed.reverse]
  | c :: rest =>
    if x.goesOn c then clustersFrom (x.next c) (c :: reversed) rest
    else reversed.reverse :: clustersFrom (Context.blank.next c) [c] rest

/-- The clusters of a text. -/
def clusters : List Char → List (List Char)
  | [] => []
  | c :: rest => clustersFrom (Context.blank.next c) [c] rest

/-! ## Nothing is lost -/

theorem flatten_clustersFrom (x : Context) (reversed text : List Char) :
    (clustersFrom x reversed text).flatten = reversed.reverse ++ text := by
  fun_induction clustersFrom x reversed text with
  | case1 => simp
  | case2 _ _ _ _ _ ih => rw [ih]; simp
  | case3 _ _ _ _ _ ih => rw [List.flatten_cons, ih]; simp

/-- The clusters of a text put together are the text. -/
theorem flatten_clusters (text : List Char) : (clusters text).flatten = text := by
  match text with
  | [] => rfl
  | c :: rest => rw [clusters, flatten_clustersFrom]; simp

theorem ne_nil_of_mem_clustersFrom (x : Context) (reversed text : List Char)
    (h : reversed ≠ []) : ∀ k ∈ clustersFrom x reversed text, k ≠ [] := by
  fun_induction clustersFrom x reversed text with
  | case1 => simpa using h
  | case2 _ _ _ _ _ ih => exact ih (List.cons_ne_nil _ _)
  | case3 _ _ _ _ _ ih =>
    intro k mem
    rcases List.mem_cons.1 mem with rfl | mem
    · simpa using h
    · exact ih (List.cons_ne_nil _ _) k mem

/-- No cluster is empty. -/
theorem ne_nil_of_mem_clusters {text k : List Char} (h : k ∈ clusters text) : k ≠ [] := by
  match text with
  | [] => exact absurd h List.not_mem_nil
  | c :: rest => exact ne_nil_of_mem_clustersFrom _ _ _ (List.cons_ne_nil _ _) k h

end Lipi.Text
