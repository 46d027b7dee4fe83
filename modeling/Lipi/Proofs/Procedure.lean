/-
Procedures that change a state and may fail.

Lowering counts guards, evaluating changes an environment and running changes a sandbox,
and each may end in an error that loses nothing of the state. They are all one kind of
procedure (`Procedure`), and what is said of them here is said once.

A statement about one run relates the state before to the state after, whatever the
outcome (`Keeps`); it goes through a sequence of steps if the relation is transitive. Or
it says what a value must be like, if one comes out at all (`Yields`), or what an error must
be like (`Raises`). A statement about two runs says that from related states they come to
related outcomes and related states (`Alike`). Both are built along the procedure, one lemma
for each way of putting procedures together, so a proof about a program's text never looks
at a state.
-/

set_option autoImplicit false

namespace Lipi

/-- A procedure on a state that may end in an error. -/
abbrev Procedure (σ ε α : Type) := ExceptT ε (StateM σ) α

/-- Two outcomes of which both are values, and related, or both errors, and related. -/
inductive Agree {ε α β : Type} (q : ε → ε → Prop) (r : α → β → Prop) :
    Except ε α → Except ε β → Prop where
  | ok {a : α} {b : β} (h : r a b) : Agree q r (.ok a) (.ok b)
  | error {e f : ε} (h : q e f) : Agree q r (.error e) (.error f)

/-- Outcomes that agree still agree after something is made of their values. -/
theorem Agree.map {ε α β γ δ : Type} {q : ε → ε → Prop} {r : α → β → Prop} {r' : γ → δ → Prop}
    {x : Except ε α} {y : Except ε β} {f : α → γ} {g : β → δ} (h : Agree q r x y)
    (hfg : ∀ a b, r a b → r' (f a) (g b)) : Agree q r' (x.map f) (y.map g) := by
  cases h with
  | ok h => exact .ok (hfg _ _ h)
  | error h => exact .error h

namespace Procedure

variable {σ ε α β γ δ : Type}

/-! ## Steps -/

theorem bind_apply (x : Procedure σ ε α) (f : α → Procedure σ ε β) (s : σ) :
    (x >>= f) s = match x s with
      | (.ok a, t) => f a t
      | (.error e, t) => (.error e, t) := by
  show (match x s with | (a, t) => ExceptT.bindCont f a t) = _
  cases x s with
  | mk outcome t => cases outcome <;> rfl

/-- Making something of a value leaves the state as it is. -/
theorem snd_bind_pure (x : Procedure σ ε α) (g : α → β) (s : σ) :
    ((x >>= fun a => pure (g a)) s).2 = (x s).2 := by
  rw [bind_apply]
  cases x s with
  | mk outcome t => cases outcome <;> rfl

/-- Two steps come to a value if the first comes to one and the second goes on from there. -/
theorem bind_eq_ok_iff {x : Procedure σ ε α} {f : α → Procedure σ ε β} {s u : σ} {b : β} :
    (x >>= f) s = (.ok b, u) ↔ ∃ a t, x s = (.ok a, t) ∧ f a t = (.ok b, u) := by
  rw [bind_apply]
  cases x s with
  | mk outcome t =>
    cases outcome with
    | error e =>
      refine ⟨nofun, ?_⟩
      rintro ⟨a, t', ⟨⟩, -⟩
    | ok a =>
      constructor
      · intro h
        exact ⟨a, t, rfl, h⟩
      · rintro ⟨_, _, ⟨⟩, h⟩
        exact h

/-- What does not look at the state leaves it as it is. -/
theorem liftM_eq_ok {x : Except ε α} {s t : σ} {a : α}
    (h : (liftM x : Procedure σ ε α) s = (.ok a, t)) : x = .ok a ∧ s = t :=
  Prod.mk.inj h

theorem liftM_bind_eq_ok {x : Except ε α} {f : α → Procedure σ ε β} {s u : σ} {b : β}
    (h : ((liftM x : Procedure σ ε α) >>= f) s = (.ok b, u)) :
    ∃ a, x = .ok a ∧ f a s = (.ok b, u) := by
  obtain ⟨a, t, hx, h⟩ := bind_eq_ok_iff.mp h
  obtain ⟨rfl, rfl⟩ := liftM_eq_ok hx
  exact ⟨a, rfl, h⟩

/-! ## One run -/

/-- However a procedure ends, the state after it is related to the one before. -/
def Keeps (R : σ → σ → Prop) (x : Procedure σ ε α) : Prop :=
  ∀ s, R s (x s).2

section Keeps

variable {R : σ → σ → Prop}

theorem keeps_pure (hrefl : ∀ s, R s s) (a : α) : Keeps R (pure a : Procedure σ ε α) := hrefl

theorem keeps_throw (hrefl : ∀ s, R s s) (e : ε) : Keeps R (throw e : Procedure σ ε α) := hrefl

theorem Keeps.bind (htrans : ∀ {s t u}, R s t → R t u → R s u) {x : Procedure σ ε α}
    {f : α → Procedure σ ε β} (hx : Keeps R x) (hf : ∀ a, Keeps R (f a)) :
    Keeps R (x >>= f) := by
  intro s
  have hfirst := hx s
  rw [bind_apply]
  cases hs : x s with
  | mk outcome t =>
    rw [hs] at hfirst
    cases outcome with
    | error e => exact hfirst
    | ok a => exact htrans hfirst (hf a t)

end Keeps

/-- Where a procedure ends in a value, the value is one of some kind. -/
def Yields (p : α → Prop) (x : Procedure σ ε α) : Prop :=
  ∀ s a, (x s).1 = .ok a → p a

section Yields

variable {p : α → Prop} {p' : β → Prop}

theorem yields_any (x : Procedure σ ε α) : Yields (fun _ => True) x := fun _ _ _ => trivial

theorem yields_pure {a : α} (h : p a) : Yields p (pure a : Procedure σ ε α) := by
  intro s b hb
  cases hb
  exact h

theorem yields_liftM {x : Except ε α} (h : ∀ a, x = .ok a → p a) :
    Yields p (liftM x : Procedure σ ε α) :=
  fun _ a ha => h a ha

theorem Yields.bind {x : Procedure σ ε α} {f : α → Procedure σ ε β} (hx : Yields p x)
    (hf : ∀ a, p a → Yields p' (f a)) : Yields p' (x >>= f) := by
  intro s b hb
  obtain ⟨a, t, ha, hb⟩ := bind_eq_ok_iff.mp (Prod.ext hb rfl)
  exact hf a (hx s a (congrArg Prod.fst ha)) t b (congrArg Prod.fst hb)

end Yields

/-- Where a procedure ends in an error, the error is of some kind. -/
def Raises (p : ε → Prop) (x : Procedure σ ε α) : Prop :=
  ∀ s e, (x s).1 = .error e → p e

section Raises

variable {p : ε → Prop}

theorem raises_pure (a : α) : Raises p (pure a : Procedure σ ε α) := nofun

theorem raises_liftM {x : Except ε α} (h : ∀ e, x = .error e → p e) :
    Raises p (liftM x : Procedure σ ε α) :=
  fun _ e he => h e he

theorem Raises.bind {x : Procedure σ ε α} {f : α → Procedure σ ε β} (hx : Raises p x)
    (hf : ∀ a, Raises p (f a)) : Raises p (x >>= f) := by
  intro s e he
  rw [bind_apply] at he
  cases hs : x s with
  | mk outcome t =>
    rw [hs] at he
    cases outcome with
    | error e' =>
      cases he
      exact hx s e (congrArg Prod.fst hs)
    | ok a => exact hf a t e he

end Raises

/-! ## Two runs -/

/-- From related states two procedures come to related outcomes and states. -/
def Alike (R : σ → σ → Prop) (q : ε → ε → Prop) (r : α → β → Prop) (x : Procedure σ ε α)
    (y : Procedure σ ε β) : Prop :=
  ∀ s t, R s t → Agree q r (x s).1 (y t).1 ∧ R (x s).2 (y t).2

section Alike

variable {R : σ → σ → Prop} {q : ε → ε → Prop} {r : α → β → Prop} {r' : γ → δ → Prop}

theorem alike_pure {a : α} {b : β} (h : r a b) :
    Alike R q r (pure a : Procedure σ ε α) (pure b) :=
  fun _ _ hst => ⟨.ok h, hst⟩

theorem alike_throw {e f : ε} (h : q e f) : Alike R q r (throw e : Procedure σ ε α) (throw f) :=
  fun _ _ hst => ⟨.error h, hst⟩

theorem alike_liftM {x : Except ε α} {y : Except ε β} (h : Agree q r x y) :
    Alike R q r (liftM x : Procedure σ ε α) (liftM y) :=
  fun _ _ hst => ⟨h, hst⟩

/-- Procedures that go on alike from related values are alike. -/
theorem Alike.bind {x : Procedure σ ε α} {y : Procedure σ ε β} {f : α → Procedure σ ε γ}
    {g : β → Procedure σ ε δ} (hx : Alike R q r x y)
    (hf : ∀ a b, r a b → Alike R q r' (f a) (g b)) : Alike R q r' (x >>= f) (y >>= g) := by
  intro s t hst
  have hfirst := hx s t hst
  rw [bind_apply, bind_apply]
  cases hs : x s with
  | mk outcome s' =>
    cases ht : y t with
    | mk outcome' t' =>
      rw [hs, ht] at hfirst
      obtain ⟨houtcome, hstate⟩ := hfirst
      cases houtcome with
      | error h => exact ⟨.error h, hstate⟩
      | ok h => exact hf _ _ h s' t' hstate

/-- A procedure that is like both of two others shows that these are alike. -/
theorem Alike.through {R R' S : σ → σ → Prop} {r : α → γ → Prop} {r' : β → γ → Prop}
    {r'' : α → β → Prop} {x : Procedure σ ε α} {y : Procedure σ ε β} {z : Procedure σ ε γ}
    (hxz : Alike R q r x z) (hyz : Alike R' q r' y z)
    (hq : ∀ {e f g}, q e g → q f g → q e f) (hr : ∀ {a b c}, r a c → r' b c → r'' a b)
    (hstart : ∀ s t, S s t → ∃ u, R s u ∧ R' t u) (hend : ∀ {s t u}, R s u → R' t u → S s t) :
    Alike S q r'' x y := by
  intro s t hst
  obtain ⟨u, hsu, htu⟩ := hstart s t hst
  obtain ⟨hx, hxstate⟩ := hxz s u hsu
  obtain ⟨hy, hystate⟩ := hyz t u htu
  refine ⟨?_, hend hxstate hystate⟩
  generalize (x s).1 = outcome, (y t).1 = outcome', (z u).1 = outcome'' at hx hy ⊢
  cases hx with
  | ok h =>
    cases hy with
    | ok h' => exact .ok (hr h h')
  | error h =>
    cases hy with
    | error h' => exact .error (hq h h')

end Alike

end Procedure

end Lipi
