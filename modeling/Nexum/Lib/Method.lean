import Mathlib.Tactic.Common

/-!
# Fallible methods on a mutable receiver

A method that takes its receiver by mutable reference and returns a `Result` does two things
when it fails: it reports an error, and it **keeps** whatever it had already written. `Method`
is that shape — a state transformer whose error exit carries the state it failed in.

`Method.Ends m s Q` says that the one way `m` ends from `s`, by value or by error, satisfies
`Q`. The rules below push it through sequencing and through the primitive operations, so a
fact about a method is proved by walking its body once; the error exits are ordinary exits and
come out as goals of their own.
-/

namespace Nexum.Lib

variable {σ ε α β : Type}

/-- A method on a receiver of type `σ`: its result, and the receiver it leaves behind. -/
abbrev Method (σ ε α : Type) := ExceptT ε (StateM σ) α

namespace Method

variable {m : Method σ ε α} {f : α → Method σ ε β}

/-- Run a method: how it ended, and the receiver afterwards. -/
def call (m : Method σ ε α) (s : σ) : Except ε α × σ :=
  (ExceptT.run m).run s

/-- The receiver `m` leaves behind, however it ended. -/
def after (m : Method σ ε α) (s : σ) : σ :=
  (m.call s).2

/-- However `m` ends from `s`, its result and the receiver it leaves satisfy `Q`. -/
def Ends (m : Method σ ε α) (s : σ) (Q : Except ε α → σ → Prop) : Prop :=
  Q (m.call s).1 (m.call s).2

/-- Fail with `e` when `c` holds. -/
def failIf (c : Prop) [Decidable c] (e : ε) : Method σ ε Unit :=
  if c then throw e else pure ()

/-- Do `m` when `c` holds. -/
def doIf (c : Prop) [Decidable c] (m : Method σ ε Unit) : Method σ ε Unit :=
  if c then m else pure ()

@[congr] theorem failIf_congr {c d : Prop} [Decidable c] [Decidable d] {e e' : ε} (hc : c ↔ d)
    (he : e = e') : (failIf c e : Method σ ε Unit) = failIf d e' := by
  simp only [failIf, hc, he]

@[simp] theorem ends_pure (a : α) (s : σ) (Q : Except ε α → σ → Prop) :
    Ends (pure a) s Q ↔ Q (.ok a) s := Iff.rfl

@[simp] theorem ends_throw (e : ε) (s : σ) (Q : Except ε α → σ → Prop) :
    Ends (throw e) s Q ↔ Q (.error e) s := Iff.rfl

@[simp] theorem ends_get (s : σ) (Q : Except ε σ → σ → Prop) :
    Ends get s Q ↔ Q (.ok s) s := Iff.rfl

@[simp] theorem ends_set (s' s : σ) (Q : Except ε PUnit → σ → Prop) :
    Ends (set s') s Q ↔ Q (.ok ⟨⟩) s' := Iff.rfl

@[simp] theorem ends_modify (f : σ → σ) (s : σ) (Q : Except ε PUnit → σ → Prop) :
    Ends (modify f) s Q ↔ Q (.ok ⟨⟩) (f s) := Iff.rfl

theorem call_get_bind (f : σ → Method σ ε β) (s : σ) : (get >>= f).call s = (f s).call s := rfl

/-- **Sequencing.** The second half runs from where a successful first half ended; a failed
    first half is the end of the whole. -/
theorem ends_bind (m : Method σ ε α) (f : α → Method σ ε β) (s : σ)
    (Q : Except ε β → σ → Prop) :
    Ends (m >>= f) s Q ↔
      Ends m s fun r s' =>
        match r with
        | .ok a => Ends (f a) s' Q
        | .error e => Q (.error e) s' := by
  simp only [Ends, call, ExceptT.run_bind, StateT.run_bind]
  cases h : StateT.run (ExceptT.run m) s with
  | mk r s' => cases r <;> rfl

/-- A method that ends somewhere satisfying `Q` ends somewhere satisfying anything weaker. -/
theorem Ends.mono {s : σ} {Q Q' : Except ε α → σ → Prop}
    (h : m.Ends s Q) (hw : ∀ r s', Q r s' → Q' r s') : m.Ends s Q' :=
  hw _ _ h

/-- The same, as a rule: what the first half ensures is where the second half starts. -/
theorem Ends.bind {s : σ} {R : Except ε α → σ → Prop} {Q : Except ε β → σ → Prop} (hm : m.Ends s R)
    (hok : ∀ a s', R (.ok a) s' → (f a).Ends s' Q)
    (herr : ∀ e s', R (.error e) s' → Q (.error e) s') : (m >>= f).Ends s Q := by
  rw [ends_bind]
  unfold Ends at hm ⊢
  cases h : (m.call s).1 with
  | ok a => rw [h] at hm; exact hok a _ hm
  | error e => rw [h] at hm; exact herr e _ hm

@[simp] theorem ends_ite (c : Prop) [Decidable c] (m n : Method σ ε α) (s : σ)
    (Q : Except ε α → σ → Prop) :
    Ends (if c then m else n) s Q ↔ (c → m.Ends s Q) ∧ (¬ c → n.Ends s Q) := by
  by_cases hc : c <;> simp [hc]

@[simp] theorem ends_failIf (c : Prop) [Decidable c] (e : ε) (s : σ)
    (Q : Except ε Unit → σ → Prop) :
    Ends (failIf c e) s Q ↔ (c → Q (.error e) s) ∧ (¬ c → Q (.ok ()) s) := by
  simp [failIf]

@[simp] theorem ends_doIf (c : Prop) [Decidable c] (m : Method σ ε Unit) (s : σ)
    (Q : Except ε Unit → σ → Prop) :
    Ends (doIf c m) s Q ↔ (c → m.Ends s Q) ∧ (¬ c → Q (.ok ()) s) := by
  simp [doIf]

/-! ## Frames

Most helpers of a method touch a part of the receiver that a given property does not look at.
`FrameOn p P m` says so once: from a receiver whose view `p` satisfies `P`, the method leaves the
view as it was, on every exit. Since the view is unchanged, `P` still holds for what comes next,
so frames compose without side conditions. -/

def FrameOn {τ : Type} (p : σ → τ) (P : τ → Prop) (m : Method σ ε α) : Prop :=
  ∀ s, P (p s) → m.Ends s fun _ s' => p s' = p s

section Frame

variable {τ : Type} {p : σ → τ} {P : τ → Prop}

theorem FrameOn.pure (a : α) : FrameOn p P (Pure.pure a : Method σ ε α) := fun _ _ => rfl

theorem FrameOn.throw (e : ε) : FrameOn p P (MonadExcept.throw e : Method σ ε α) :=
  fun _ _ => rfl

theorem FrameOn.get : FrameOn p P (MonadState.get : Method σ ε σ) := fun _ _ => rfl

theorem FrameOn.bind (hm : FrameOn p P m)
    (hf : ∀ a, FrameOn p P (f a)) : FrameOn p P (m >>= f) := by
  intro s hs
  refine (hm s hs).bind ?_ ?_
  · intro a s' h
    have hs' : P (p s') := by rw [h]; exact hs
    exact (hf a s' hs').mono fun _ _ h' => h'.trans h
  · intro e s' h
    exact h

theorem FrameOn.ite {c : Prop} [Decidable c] {m n : Method σ ε α} (hm : FrameOn p P m)
    (hn : FrameOn p P n) : FrameOn p P (if c then m else n) := by
  split
  · exact hm
  · exact hn

theorem FrameOn.failIf (c : Prop) [Decidable c] (e : ε) :
    FrameOn p P (Method.failIf c e : Method σ ε Unit) :=
  FrameOn.ite (FrameOn.throw e) (FrameOn.pure ())

end Frame

/-! ## All or nothing

A method is atomic if it leaves the receiver as it was whenever it fails. The usual shape is a
row of checks, which write nothing, and then writes, which cannot fail. -/

/-- Nothing is written. -/
abbrev Reads (m : Method σ ε α) : Prop := FrameOn id (fun _ => True) m

/-- Called on `s`, the method succeeds. -/
def Succeeds (m : Method σ ε α) (s : σ) : Prop :=
  m.Ends s fun r _ => ∀ e, r ≠ .error e

/-- Called on `s`, the method succeeds or leaves it as it is. -/
def Whole (m : Method σ ε α) (s : σ) : Prop :=
  m.Ends s fun r s' => ∀ e, r = .error e → s' = s

/-- There is no error. -/
def Total (m : Method σ ε α) : Prop :=
  ∀ s, Succeeds m s

def Atomic (m : Method σ ε α) : Prop :=
  ∀ s, Whole m s

theorem Total.pure (a : α) : Total (Pure.pure a : Method σ ε α) := fun _ _ => nofun

theorem Total.get : Total (MonadState.get : Method σ ε σ) := fun _ _ => nofun

theorem Total.modify (f : σ → σ) : Total (modifyGet fun s => (⟨⟩, f s) : Method σ ε PUnit) :=
  fun _ _ => nofun

theorem Total.doIf {c : Prop} [Decidable c] {m : Method σ ε Unit} (hm : Total m) :
    Total (Method.doIf c m) := by
  unfold Method.doIf
  split
  · exact hm
  · exact Total.pure ()

theorem Total.bind (hm : Total m) (hf : ∀ a, Total (f a)) : Total (m >>= f) := by
  intro s
  refine (hm s).bind (fun a s' _ => hf a s') ?_
  intro e s' herr
  exact absurd rfl (herr e)

theorem succeeds_bind_total (hf : ∀ a, Total (f a))
    (s : σ) : Succeeds (m >>= f) s ↔ Succeeds m s := by
  unfold Succeeds
  rw [ends_bind]
  unfold Ends
  cases h : (m.call s).1 with
  | ok a => exact iff_of_true (hf a _) nofun
  | error e => exact iff_of_false (fun h => h e rfl) fun h => h e rfl

theorem Atomic.of_reads (h : Reads m) : Atomic m :=
  fun s => (h s trivial).mono fun _ _ hs _ _ => hs

theorem Atomic.of_total (h : Total m) : Atomic m :=
  fun s => (h s).mono fun _ _ hne e he => absurd he (hne e)

/-- Checks in front. -/
theorem whole_reads_bind (hm : Reads m) (s : σ) :
    Whole (m >>= f) s ↔ m.Ends s fun r _ => ∀ a, r = .ok a → Whole (f a) s := by
  have hs : (m.call s).2 = s := hm s trivial
  unfold Whole
  rw [ends_bind]
  unfold Ends
  rw [hs]
  cases h : (m.call s).1 with
  | ok a =>
    constructor
    · intro hf a' ha'
      cases ha'
      exact hf
    · intro hf
      exact hf a rfl
  | error e => simp

/-- Nothing after it that can fail. -/
theorem whole_bind_total (hf : ∀ a, Total (f a)) (s : σ) : Whole (m >>= f) s ↔ Whole m s := by
  unfold Whole
  rw [ends_bind]
  unfold Ends
  cases h : (m.call s).1 with
  | ok a =>
    constructor
    · intro _ e he
      cases he
    · intro _ e he
      exact absurd he (hf a _ e)
  | error e => simp

/-- A first half that failed without an effect is the end. -/
theorem whole_failed_bind {s : σ} {e : ε} (hm : m.call s = (.error e, s)) : Whole (m >>= f) s := by
  rw [Whole, ends_bind, Ends, hm]
  exact fun _ _ => rfl

/-- A first half that wrote nothing can be left out. -/
theorem whole_idle_bind {s : σ} {a : α}
    (hm : m.call s = (.ok a, s)) : Whole (m >>= f) s ↔ Whole (f a) s := by
  rw [Whole, ends_bind, Ends, hm]
  rfl

/-- After a write, to fail is to fail with an effect. -/
theorem whole_write_bind {s s' : σ} {a : α}
    (hm : m.call s = (.ok a, s')) (hne : s' ≠ s) (hf : Atomic (f a)) :
    Whole (m >>= f) s ↔ Succeeds (f a) s' := by
  rw [Whole, ends_bind, Ends, hm]
  constructor
  · intro hwhole e he
    have hkept : ((f a).call s').2 = s' := hf s' e he
    exact hne (hkept.symm.trans (hwhole e he))
  · intro hok e he
    exact absurd he (hok e)

theorem Atomic.reads_bind (hm : Reads m) (hf : ∀ a, Atomic (f a)) : Atomic (m >>= f) :=
  fun s => (whole_reads_bind hm s).mpr fun a _ => hf a s

theorem Atomic.bind_total (hm : Atomic m) (hf : ∀ a, Total (f a)) : Atomic (m >>= f) :=
  fun s => (whole_bind_total hf s).mpr (hm s)

/-- The method without what it returns. -/
def silent (m : Method σ ε α) : Method σ ε Unit := do
  let _ ← m
  pure ()

@[simp] theorem ends_silent (m : Method σ ε α) (s : σ) (Q : Except ε Unit → σ → Prop) :
    (silent m).Ends s Q ↔ m.Ends s fun r s' => Q (r.map fun _ => ()) s' := by
  unfold silent
  rw [ends_bind]
  unfold Ends
  cases (m.call s).1 <;> rfl

theorem whole_silent (m : Method σ ε α) (s : σ) : Whole (silent m) s ↔ Whole m s :=
  whole_bind_total (fun _ => Total.pure ()) s

end Method

end Nexum.Lib
