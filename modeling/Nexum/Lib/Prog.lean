import Mathlib.Tactic.Common

/-!
# Programs that talk to services

A *program* here is a sequential piece of code that talks to its surroundings — databases,
remote services, the clock — one call at a time and decides what to do next from the replies.
`C` is the type of calls, `Out c` what a successful call `c` answers; **every call may also fail,
with an error of type `ε`**. Programs are data (a free monad), so the same text can be run on its
own, run a step at a time among others, or stopped between any two of its calls.

Reasoning about a program never looks at its text twice. `Rules` says which calls may be made in
an abstract state and how a reply moves that state; `wp` pushes a postcondition back through a
program under such rules, on every path. The state can be a real one — the contents of the
services, giving the usual weakest precondition — or a bookkeeping one that says where in some
protocol the program is.
-/

namespace Nexum.Lib

/-- A program over the calls `C`, returning an `α` or failing with an `ε`. -/
inductive Prog (C : Type) (Out : C → Type) (ε α : Type) : Type
  | ret (a : α)
  | fail (e : ε)
  | call (c : C) (k : Except ε (Out c) → Prog C Out ε α)

namespace Prog

variable {C : Type} {Out : C → Type} {ε α β : Type}

/-! ## 1. Building programs -/

/-- `p`, then `f` on what it returned; a failure of `p` ends the whole. -/
def bind (p : Prog C Out ε α) (f : α → Prog C Out ε β) : Prog C Out ε β :=
  match p with
  | ret a => f a
  | fail e => fail e
  | call c k => call c fun r => (k r).bind f

instance : Monad (Prog C Out ε) where
  pure := ret
  bind := bind

/-- Make a call and look at how it went. -/
def attempt (c : C) : Prog C Out ε (Except ε (Out c)) :=
  call c ret

/-- What was returned, or the failure. -/
def ofExcept : Except ε α → Prog C Out ε α
  | .ok a => ret a
  | .error e => fail e

/-- Make a call whose failure is the program's own. -/
def perform (c : C) : Prog C Out ε (Out c) :=
  call c ofExcept

/-- Make a call whose failure, reworded by `f`, is the program's own. -/
def performOr (c : C) (f : ε → ε) : Prog C Out ε (Out c) :=
  call c fun r => ofExcept (r.mapError f)

def failIf (c : Prop) [Decidable c] (e : ε) : Prog C Out ε Unit :=
  if c then fail e else ret ()

/-- The value, or the failure `e` when there is none. -/
def okOr (o : Option α) (e : ε) : Prog C Out ε α :=
  match o with
  | some a => ret a
  | none => fail e

/-- Make a call, and again as long as it fails and `attempts` are left; the last failure is the
    program's own. -/
def retry (c : C) (exhausted : ε) : (attempts : Nat) → Prog C Out ε (Out c)
  | 0 => fail exhausted
  | 1 => perform c
  | n + 2 => call c fun r =>
    match r with
    | .ok a => ret a
    | .error _ => retry c exhausted (n + 1)

/-- Run `p` to its end and hand on how it ended, as a value. -/
def reify (p : Prog C Out ε α) : Prog C Out ε (Except ε α) :=
  match p with
  | ret a => ret (.ok a)
  | fail e => ret (.error e)
  | call c k => call c fun r => (k r).reify

/-! ## 2. Weakest preconditions -/

/-- Which calls may be made in a state, and where each reply may lead. -/
structure Rules (C : Type) (Out : C → Type) (ε γ : Type) where
  may : γ → C → Prop
  does : γ → (c : C) → Except ε (Out c) → γ → Prop

variable {γ : Type} (S : Rules C Out ε γ)

/-- Started in `g`, the program only makes calls it may make, and however it ends, `Q` holds. -/
def wp (p : Prog C Out ε α) (Q : Except ε α → γ → Prop) (g : γ) : Prop :=
  match p with
  | ret a => Q (.ok a) g
  | fail e => Q (.error e) g
  | call c k => S.may g c ∧ ∀ r g', S.does g c r g' → wp (k r) Q g'

variable {S}
variable {p : Prog C Out ε α} {f : α → Prog C Out ε β}

@[simp] theorem wp_pure {a : α} {Q : Except ε α → γ → Prop} {g : γ} :
    wp S (pure a : Prog C Out ε α) Q g ↔ Q (.ok a) g := Iff.rfl

@[simp] theorem wp_ret {a : α} {Q : Except ε α → γ → Prop} {g : γ} :
    wp S (ret a : Prog C Out ε α) Q g ↔ Q (.ok a) g := Iff.rfl

@[simp] theorem wp_fail {e : ε} {Q : Except ε α → γ → Prop} {g : γ} :
    wp S (fail e : Prog C Out ε α) Q g ↔ Q (.error e) g := Iff.rfl

theorem wp_call {c : C} {k : Except ε (Out c) → Prog C Out ε α} {Q : Except ε α → γ → Prop}
    {g : γ} : wp S (call c k) Q g ↔ S.may g c ∧ ∀ r g', S.does g c r g' → wp S (k r) Q g' :=
  Iff.rfl

@[simp] theorem wp_attempt {c : C} {Q : Except ε (Except ε (Out c)) → γ → Prop} {g : γ} :
    wp S (attempt c) Q g ↔ S.may g c ∧ ∀ r g', S.does g c r g' → Q (.ok r) g' := Iff.rfl

@[simp] theorem wp_ofExcept {x : Except ε α} {Q : Except ε α → γ → Prop} {g : γ} :
    wp S (ofExcept x) Q g ↔ Q x g := by
  cases x <;> rfl

@[simp] theorem wp_perform {c : C} {Q : Except ε (Out c) → γ → Prop} {g : γ} :
    wp S (perform c) Q g ↔ S.may g c ∧ ∀ r g', S.does g c r g' → Q r g' := by
  simp only [perform, wp_call, wp_ofExcept]

@[simp] theorem wp_performOr {c : C} {f : ε → ε} {Q : Except ε (Out c) → γ → Prop} {g : γ} :
    wp S (performOr c f) Q g ↔
      S.may g c ∧ ∀ r g', S.does g c r g' → Q (r.mapError f) g' := by
  simp only [performOr, wp_call, wp_ofExcept]

@[simp] theorem wp_failIf {c : Prop} [Decidable c] {e : ε} {Q : Except ε Unit → γ → Prop}
    {g : γ} : wp S (failIf c e) Q g ↔ (c → Q (.error e) g) ∧ (¬ c → Q (.ok ()) g) := by
  unfold failIf
  split
  · simp_all
  · simp_all

@[simp] theorem wp_okOr {o : Option α} {e : ε} {Q : Except ε α → γ → Prop} {g : γ} :
    wp S (okOr o e) Q g ↔
      (o = none → Q (.error e) g) ∧ (∀ a, o = some a → Q (.ok a) g) := by
  cases o <;> simp [okOr]

/-- **Sequencing.** -/
theorem wp_bind {Q : Except ε β → γ → Prop} {g : γ} :
    wp S (p >>= f) Q g ↔ wp S p (fun r g' =>
        match r with
        | .ok a => wp S (f a) Q g'
        | .error e => Q (.error e) g') g := by
  show wp S (p.bind f) Q g ↔ _
  induction p generalizing g with
  | ret a => rfl
  | fail e => rfl
  | call c k ih =>
    simp only [bind, wp_call]
    exact and_congr_right fun _ => forall₃_congr fun r g' _ => ih r

@[simp] theorem wp_reify {Q : Except ε (Except ε α) → γ → Prop} {g : γ} :
    wp S p.reify Q g ↔ wp S p (fun r g' => Q (.ok r) g') g := by
  induction p generalizing g with
  | ret a => rfl
  | fail e => rfl
  | call c k ih => exact and_congr_right fun _ => forall₃_congr fun r g' _ => ih r

theorem wp_mono {Q Q' : Except ε α → γ → Prop} {g : γ}
    (h : wp S p Q g) (hw : ∀ r g', Q r g' → Q' r g') : wp S p Q' g := by
  induction p generalizing g with
  | ret a => exact hw _ _ h
  | fail e => exact hw _ _ h
  | call c k ih => exact ⟨h.1, fun r g' hd => ih r (h.2 r g' hd)⟩

/-- The sequencing rule: what the first half ensures is where the second half starts. -/
theorem wp_seq {R : Except ε α → γ → Prop} {Q : Except ε β → γ → Prop} {g : γ} (hp : wp S p R g)
    (hok : ∀ a g', R (.ok a) g' → wp S (f a) Q g')
    (herr : ∀ e g', R (.error e) g' → Q (.error e) g') : wp S (p >>= f) Q g := by
  rw [wp_bind]
  refine wp_mono hp ?_
  intro r g' hr
  cases r with
  | ok a => exact hok a g' hr
  | error e => exact herr e g' hr

/-! ## 3. What a program ensures when it returns

Most facts about a program are about the runs in which it returns: a failure is allowed at any
point and promises nothing. The rules below follow the text of a program and ask nothing about
its failures. -/

/-- The program only makes calls it may make, and when it returns, `R` holds. -/
def Ensures (S : Rules C Out ε γ) (p : Prog C Out ε α) (g : γ) (R : α → γ → Prop) : Prop :=
  wp S p (fun r g' => ∀ a, r = .ok a → R a g') g

namespace Ensures

variable {R : α → γ → Prop} {Q : β → γ → Prop} {g : γ}

theorem pure {a : α} (h : R a g) : Ensures S (Pure.pure a : Prog C Out ε α) g R := by
  rintro _ ⟨⟩
  exact h

theorem fail {e : ε} : Ensures S (Prog.fail e : Prog C Out ε α) g R := by
  rintro _ ⟨⟩

theorem mono {R' : α → γ → Prop} (hp : Ensures S p g R)
    (h : ∀ a g', R a g' → R' a g') : Ensures S p g R' :=
  wp_mono hp fun _ _ hr a ha => h a _ (hr a ha)

theorem bind (hp : Ensures S p g R)
    (hf : ∀ a g', R a g' → Ensures S (f a) g' Q) : Ensures S (p >>= f) g Q := by
  refine Prog.wp_seq hp ?_ ?_
  · intro a g' ha
    exact hf a g' (ha a rfl)
  · rintro e g' - _ ⟨⟩

theorem ofExcept {x : Except ε α} (h : ∀ a, x = .ok a → R a g) :
    Ensures S (Prog.ofExcept x) g R :=
  wp_ofExcept.mpr h

theorem okOr {o : Option α} {e : ε} (h : ∀ a, o = some a → R a g) :
    Ensures S (Prog.okOr o e) g R := by
  refine wp_okOr.mpr ⟨?_, ?_⟩
  · rintro - _ ⟨⟩
  · rintro a ho _ ⟨⟩
    exact h a ho

theorem failIf {c : Prop} [Decidable c] {e : ε} {R : Unit → γ → Prop} (h : ¬ c → R () g) :
    Ensures S (Prog.failIf c e) g R := by
  refine wp_failIf.mpr ⟨?_, ?_⟩
  · rintro - _ ⟨⟩
  · rintro hc _ ⟨⟩
    exact h hc

theorem perform {c : C} {R : Out c → γ → Prop} (hmay : S.may g c)
    (h : ∀ a g', S.does g c (.ok a) g' → R a g') : Ensures S (Prog.perform c) g R := by
  refine wp_perform.mpr ⟨hmay, ?_⟩
  rintro r g' hd a rfl
  exact h a g' hd

theorem performOr {c : C} {f : ε → ε} {R : Out c → γ → Prop} (hmay : S.may g c)
    (h : ∀ a g', S.does g c (.ok a) g' → R a g') : Ensures S (Prog.performOr c f) g R := by
  refine wp_performOr.mpr ⟨hmay, ?_⟩
  rintro (e | b) g' hd a ⟨⟩
  exact h _ g' hd

theorem attempt {c : C} {R : Except ε (Out c) → γ → Prop} (hmay : S.may g c)
    (h : ∀ r g', S.does g c r g' → R r g') : Ensures S (Prog.attempt c) g R := by
  refine wp_attempt.mpr ⟨hmay, ?_⟩
  rintro r g' hd _ ⟨⟩
  exact h r g' hd

/-! The same in front of a program. -/

theorem ofExcept_bind {x : Except ε α}
    (h : ∀ a, x = .ok a → Ensures S (f a) g Q) : Ensures S (Prog.ofExcept x >>= f) g Q :=
  (Ensures.ofExcept (R := fun a g' => x = .ok a ∧ g' = g) fun _ ha => ⟨ha, rfl⟩).bind
    fun a _ ⟨ha, hg⟩ => hg ▸ h a ha

theorem okOr_bind {o : Option α} {e : ε}
    (h : ∀ a, o = some a → Ensures S (f a) g Q) : Ensures S (Prog.okOr o e >>= f) g Q :=
  (Ensures.okOr (R := fun a g' => o = some a ∧ g' = g) fun _ ha => ⟨ha, rfl⟩).bind
    fun a _ ⟨ha, hg⟩ => hg ▸ h a ha

theorem failIf_bind {c : Prop} [Decidable c] {e : ε} {f : Unit → Prog C Out ε β}
    (h : ¬ c → Ensures S (f ()) g Q) : Ensures S (Prog.failIf c e >>= f) g Q :=
  (Ensures.failIf (R := fun _ g' => ¬ c ∧ g' = g) fun hc => ⟨hc, rfl⟩).bind
    fun _ _ ⟨hc, hg⟩ => hg ▸ h hc

theorem perform_bind {c : C} {f : Out c → Prog C Out ε β} (hmay : S.may g c)
    (h : ∀ a g', S.does g c (.ok a) g' → Ensures S (f a) g' Q) :
    Ensures S (Prog.perform c >>= f) g Q :=
  (Ensures.perform hmay fun _ _ hd => hd).bind h

theorem performOr_bind {c : C} {w : ε → ε} {f : Out c → Prog C Out ε β} (hmay : S.may g c)
    (h : ∀ a g', S.does g c (.ok a) g' → Ensures S (f a) g' Q) :
    Ensures S (Prog.performOr c w >>= f) g Q :=
  (Ensures.performOr hmay fun _ _ hd => hd).bind h

theorem attempt_bind {c : C} {f : Except ε (Out c) → Prog C Out ε β} (hmay : S.may g c)
    (h : ∀ r g', S.does g c r g' → Ensures S (f r) g' Q) :
    Ensures S (Prog.attempt c >>= f) g Q :=
  (Ensures.attempt hmay fun _ _ hd => hd).bind h

/-- A part whose end the program looks at; here its failures matter too. -/
theorem reify_bind {f : Except ε α → Prog C Out ε β} {P : Except ε α → γ → Prop} (hp : wp S p P g)
    (hf : ∀ r g', P r g' → Ensures S (f r) g' Q) : Ensures S (p.reify >>= f) g Q := by
  have hr : Ensures S p.reify g P := by
    refine wp_reify.mpr (wp_mono hp ?_)
    rintro r g' h _ ⟨⟩
    exact h
  exact hr.bind hf

end Ensures

/-! ## 4. Footprints

Many parts of a program only make calls that a given set of rules does not care about. `Only A p
R` is the fact about such a part that holds under *any* rules: it makes no calls outside `A`, and
what it returns satisfies `R`. -/

/-- Calls in `A` are allowed, and every reply is possible. -/
def only (A : C → Prop) : Rules C Out ε Unit where
  may _ c := A c
  does _ _ _ _ := True

/-- `p` makes no calls outside `A`, and if it returns, it returns something in `R`. -/
def Only (A : C → Prop) (p : Prog C Out ε α) (R : α → Prop) : Prop :=
  Ensures (only A) p () fun a _ => R a

/-- In the state `g` the rules allow every call in `A`, and its replies change nothing. -/
def Rules.IgnoresAt (S : Rules C Out ε γ) (g : γ) (A : C → Prop) : Prop :=
  ∀ c, A c → S.may g c ∧ ∀ r g', S.does g c r g' → g' = g

/-- The same in any state. -/
def Rules.Ignores (S : Rules C Out ε γ) (A : C → Prop) : Prop :=
  ∀ g, S.IgnoresAt g A

variable {A : C → Prop} {R : α → Prop}

/-- A part whose calls keep an invariant keeps it to its end, also when it fails. -/
theorem Only.keeps {I : γ → Prop} {g : γ} (h : Only A p R)
    (hS : ∀ g c, A c → I g → S.may g c ∧ ∀ r g', S.does g c r g' → I g') (hg : I g) :
    Prog.wp S p (fun r g' => I g' ∧ ∀ a, r = .ok a → R a) g := by
  induction p generalizing g with
  | ret a => exact ⟨hg, h⟩
  | fail e => exact ⟨hg, h⟩
  | call c k ih =>
    obtain ⟨hA, hk⟩ := h
    obtain ⟨hmay, hkeep⟩ := hS g c hA hg
    exact ⟨hmay, fun r g' hd => ih r (hk r () trivial) (hkeep r g' hd)⟩

/-- A part that stays inside what the rules ignore leaves the state alone, also when it fails. -/
theorem Only.wpAt {g : γ} (h : Only A p R) (hS : S.IgnoresAt g A) :
    Prog.wp S p (fun r g' => g' = g ∧ ∀ a, r = .ok a → R a) g := by
  refine h.keeps (I := (· = g)) ?_ rfl
  rintro _ c hc rfl
  exact hS c hc

theorem Only.wp (h : Only A p R) (hS : S.Ignores A) (g : γ) :
    Prog.wp S p (fun r g' => g' = g ∧ ∀ a, r = .ok a → R a) g :=
  h.wpAt (hS g)

theorem Only.ensures (h : Only A p R) (hS : S.Ignores A) (g : γ) :
    Ensures S p g fun a g' => g' = g ∧ R a :=
  wp_mono (h.wp hS g) fun _ _ hr a ha => ⟨hr.1, hr.2 a ha⟩

/-- Such a part in front of a program. -/
theorem Only.ensures_bind {Q : β → γ → Prop}
    {g : γ} (h : Only A p R) (hS : S.Ignores A) (hok : ∀ a, R a → Ensures S (f a) g Q) :
    Ensures S (p >>= f) g Q := by
  refine (h.ensures hS g).bind ?_
  rintro a g' ⟨rfl, hr⟩
  exact hok a hr

theorem Only.mono {B : C → Prop} (h : Only A p R) (hAB : ∀ c, A c → B c) : Only B p R := by
  have hS : (only B : Rules C Out ε Unit).Ignores A := fun _ c hc => ⟨hAB c hc, fun _ _ _ => rfl⟩
  exact (h.ensures hS ()).mono fun _ _ hr => hr.2

/-- Trying again makes no other calls. -/
theorem Only.retry {c : C} {exhausted : ε} {R : Out c → Prop} (hA : A c) (hR : ∀ a, R a)
    (n : Nat) : Only A (Prog.retry c exhausted n) R := by
  induction n using Prog.retry.induct with
  | case1 => exact .fail
  | case2 => exact .perform hA fun a _ _ => hR a
  | case3 n ih =>
    refine ⟨hA, ?_⟩
    rintro (e | a) ⟨⟩ -
    · exact ih
    · rintro _ ⟨⟩
      exact hR a

/-! ## 5. The ideal run

What a program does when nothing goes wrong: every call succeeds, with the answer an oracle
gives. -/

/-- How the program ends when every call `c` is answered `o c`, and the calls it makes. -/
def ideal (o : (c : C) → Out c) : Prog C Out ε α → Except ε α × List C
  | ret a => (.ok a, [])
  | fail e => (.error e, [])
  | call c k => (((k (.ok (o c))).ideal o).1, c :: ((k (.ok (o c))).ideal o).2)

section
variable {o : (c : C) → Out c}

@[simp] theorem ideal_ofExcept {x : Except ε α} :
    (ofExcept x : Prog C Out ε α).ideal o = (x, []) := by
  cases x <;> rfl

@[simp] theorem ideal_perform {c : C} :
    (perform c : Prog C Out ε (Out c)).ideal o = (.ok (o c), [c]) := rfl

/-- A sequence whose ideal run returns is the ideal runs of its halves. -/
theorem ideal_bind {b : β} (h : ((p >>= f).ideal o).1 = .ok b) :
    ∃ a, (p.ideal o).1 = .ok a ∧ ((f a).ideal o).1 = .ok b
      ∧ ((p >>= f).ideal o).2 = (p.ideal o).2 ++ ((f a).ideal o).2 := by
  induction p with
  | ret a => exact ⟨a, rfl, h, rfl⟩
  | fail e => cases h
  | call c k ih =>
    obtain ⟨a, ha, hb, hcalls⟩ := ih (.ok (o c)) h
    exact ⟨a, ha, hb, congrArg (c :: ·) hcalls⟩

theorem Only.ideal (h : Only A p R) : ∀ c ∈ (p.ideal o).2, A c := by
  induction p with
  | ret a => simp [Prog.ideal]
  | fail e => simp [Prog.ideal]
  | call c k ih =>
    obtain ⟨hA, hk⟩ := h
    exact List.forall_mem_cons.mpr ⟨hA, ih (.ok (o c)) (hk _ () trivial)⟩

/-- **Where the rules admit no other answers than the oracle's, a program ends as it does
    ideally.** -/
theorem Only.wp_ideal {g : γ} (h : Only A p R) (hS : S.IgnoresAt g A)
    (ho : ∀ c r g', S.does g c r g' → r = .ok (o c)) :
    Prog.wp S p (fun x g' => x = (p.ideal o).1 ∧ g' = g) g := by
  induction p with
  | ret a => exact ⟨rfl, rfl⟩
  | fail e => exact ⟨rfl, rfl⟩
  | call c k ih =>
    obtain ⟨hA, hk⟩ := h
    obtain ⟨hmay, hsame⟩ := hS c hA
    refine ⟨hmay, fun r g' hd => ?_⟩
    obtain rfl := ho c r g' hd
    rw [hsame _ g' hd]
    exact ih _ (hk _ () trivial)

end

/-! ## 6. What a program leaves, also when it fails

For code that has to be resumable the failures matter as much as the returns: `Leaves` asks for
one thing on return and another, the same everywhere, on every failure. -/

/-- The program only makes calls it may make; when it returns, `R` holds, and when it fails,
    `E`. -/
def Leaves (S : Rules C Out ε γ) (p : Prog C Out ε α) (g : γ) (R : α → γ → Prop)
    (E : γ → Prop) : Prop :=
  wp S p (fun x g' =>
    match x with
    | .ok a => R a g'
    | .error _ => E g') g

namespace Leaves

variable {R : α → γ → Prop} {Q : β → γ → Prop} {E : γ → Prop} {g : γ}

theorem pure {a : α} (h : R a g) : Leaves S (Pure.pure a : Prog C Out ε α) g R E := h

theorem fail {e : ε} (h : E g) : Leaves S (Prog.fail e : Prog C Out ε α) g R E := h

theorem mono {R' : α → γ → Prop} (hp : Leaves S p g R E)
    (h : ∀ a g', R a g' → R' a g') : Leaves S p g R' E := by
  refine wp_mono hp ?_
  rintro (e | a) g' hr
  · exact hr
  · exact h a g' hr

theorem bind (hp : Leaves S p g R E)
    (hf : ∀ a g', R a g' → Leaves S (f a) g' Q E) : Leaves S (p >>= f) g Q E :=
  wp_seq hp hf fun _ _ he => he

theorem ofExcept_bind {x : Except ε α} (he : E g)
    (h : ∀ a, x = .ok a → Leaves S (f a) g Q E) : Leaves S (Prog.ofExcept x >>= f) g Q E := by
  cases x with
  | ok a => exact h a rfl
  | error e => exact he

theorem okOr_bind {o : Option α} {e : ε} (he : E g)
    (h : ∀ a, o = some a → Leaves S (f a) g Q E) : Leaves S (Prog.okOr o e >>= f) g Q E := by
  cases o with
  | some a => exact h a rfl
  | none => exact he

theorem attempt_bind {c : C} {f : Except ε (Out c) → Prog C Out ε β} (hmay : S.may g c)
    (h : ∀ r g', S.does g c r g' → Leaves S (f r) g' Q E) :
    Leaves S (Prog.attempt c >>= f) g Q E :=
  ⟨hmay, h⟩

theorem perform_bind {c : C} {f : Out c → Prog C Out ε β} (hmay : S.may g c)
    (he : ∀ e g', S.does g c (.error e) g' → E g')
    (h : ∀ a g', S.does g c (.ok a) g' → Leaves S (f a) g' Q E) :
    Leaves S (Prog.perform c >>= f) g Q E := by
  refine ⟨hmay, ?_⟩
  rintro (e | a) g' hd
  · exact he e g' hd
  · exact h a g' hd

theorem perform {c : C} {R : Out c → γ → Prop} (hmay : S.may g c)
    (he : ∀ e g', S.does g c (.error e) g' → E g')
    (h : ∀ a g', S.does g c (.ok a) g' → R a g') : Leaves S (Prog.perform c) g R E := by
  refine ⟨hmay, ?_⟩
  rintro (e | a) g' hd
  · exact he e g' hd
  · exact h a g' hd

/-- A part whose calls keep an invariant, in front of a program. -/
theorem keeps_bind {R : α → Prop} {I : γ → Prop} (hp : Only A p R)
    (hS : ∀ g c, A c → I g → S.may g c ∧ ∀ r g', S.does g c r g' → I g') (hg : I g)
    (he : ∀ g', I g' → E g') (h : ∀ a g', I g' → R a → Leaves S (f a) g' Q E) :
    Leaves S (p >>= f) g Q E :=
  wp_seq (hp.keeps hS hg) (fun a g' hr => h a g' hr.1 (hr.2 a rfl)) fun _ g' hr => he g' hr.1

/-- A part the rules ignore, in front of a program. -/
theorem only_bind {R : α → Prop} (hp : Only A p R) (hS : S.IgnoresAt g A) (he : E g)
    (h : ∀ a, R a → Leaves S (f a) g Q E) : Leaves S (p >>= f) g Q E := by
  refine keeps_bind (I := (· = g)) hp ?_ rfl ?_ ?_
  · rintro _ c hc rfl
    exact hS c hc
  · rintro _ rfl
    exact he
  · rintro a _ rfl hr
    exact h a hr

/-- A part the rules ignore, on its own. -/
theorem only {R' : α → Prop} (hp : Only A p R') (hS : S.IgnoresAt g A)
    (he : E g) (h : ∀ a, R' a → R a g) : Leaves S p g R E := by
  refine wp_mono (hp.wpAt hS) ?_
  rintro (e | a) _ ⟨rfl, hr⟩
  · exact he
  · exact h a (hr a rfl)

/-- A part whose end the program looks at, in front of the rest. -/
theorem reify_bind {f : Except ε α → Prog C Out ε β}
    {P : Except ε α → γ → Prop} (hp : wp S p P g) (hf : ∀ r g', P r g' → Leaves S (f r) g' Q E) :
    Leaves S (p.reify >>= f) g Q E := by
  have hr : Leaves S p.reify g P E := wp_reify.mpr (wp_mono hp fun _ _ h => h)
  exact hr.bind hf

end Leaves

/-- The definition, for the places where programs are run. -/
theorem leaves_iff {g : γ} {R : α → γ → Prop} {E : γ → Prop} :
    Leaves S p g R E ↔ Prog.wp S p (fun x g' =>
      match x with
      | .ok a => R a g'
      | .error _ => E g') g :=
  Iff.rfl

/-- The definition, for the places where programs are run. -/
theorem ensures_iff {g : γ} {R : α → γ → Prop} :
    Ensures S p g R ↔ Prog.wp S p (fun r g' => ∀ a, r = .ok a → R a g') g :=
  Iff.rfl

-- From here on a program is looked at through the rules above. Without this, elaborating a goal
-- about a long program evaluates the program.
attribute [irreducible] wp Ensures Leaves

end Prog

end Nexum.Lib
