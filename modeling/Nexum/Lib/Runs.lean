import Nexum.Lib.Prog

/-!
# Running programs: alone, and among others

`Runs` is a program on its own, from a state of the services to its result and the state it
leaves. `Pool` is any number of programs sharing the services: at every step one of them makes
its next call, or a new one is started, or one ends, or **one simply stops** — a crash, between
any two calls. The log keeps what happened, newest first.

Both come with one induction, done here once. A bookkeeping state per program (`Rules`) and an
invariant that ties the bookkeeping to the services are carried along every step; what a
particular development has to prove is what a *single call* does to the invariant. Everything
else — other programs' bookkeeping, starts, ends, crashes — is a condition on the invariant that
says nothing about program texts.
-/

namespace Nexum.Lib

variable {C : Type} {Out : C → Type} {ε α σ γ : Type}

/-- How services in state `s` may answer a call, and the state they are in afterwards. -/
abbrev Services (C : Type) (Out : C → Type) (ε σ : Type) : Type :=
  σ → (c : C) → Except ε (Out c) → σ → Prop

/-! ## 1. One program -/

/-- `Runs exec s p x s'`: started on services in state `s`, the program can end with `x`, leaving
    them in state `s'`. -/
inductive Runs (exec : Services C Out ε σ) :
    σ → Prog C Out ε α → Except ε α → σ → Prop
  | ret {s : σ} {a : α} : Runs exec s (.ret a) (.ok a) s
  | fail {s : σ} {e : ε} : Runs exec s (.fail e) (.error e) s
  | call {s s' s'' : σ} {c : C} {k : Except ε (Out c) → Prog C Out ε α} {r : Except ε (Out c)}
      {x : Except ε α} (hexec : exec s c r s') (hrest : Runs exec s' (k r) x s'') :
      Runs exec s (.call c k) x s''

/-- Services that answer in more ways allow more runs. -/
theorem Runs.mono {exec exec' : Services C Out ε σ}
    (h : ∀ s c r s', exec s c r s' → exec' s c r s') {p : Prog C Out ε α} {s s' : σ}
    {x : Except ε α} (hrun : Runs exec s p x s') : Runs exec' s p x s' := by
  induction hrun with
  | ret => exact .ret
  | fail => exact .fail
  | call hexec _ ih => exact .call (h _ _ _ _ hexec) ih

/-- **Bookkeeping along a run.** An invariant that every single call keeps holds at the end of
    the run, of a bookkeeping state that satisfies the postcondition. -/
theorem Runs.inv {exec : Services C Out ε σ} {S : Prog.Rules C Out ε γ} {Inv : σ → γ → Prop}
    (hcall : ∀ s g c r s', Inv s g → S.may g c → exec s c r s' →
      ∃ g', S.does g c r g' ∧ Inv s' g')
    {p : Prog C Out ε α} {Q : Except ε α → γ → Prop} {s s' : σ} {g : γ} {x : Except ε α}
    (hrun : Runs exec s p x s') (hp : Prog.wp S p Q g) (hinv : Inv s g) :
    ∃ g', Q x g' ∧ Inv s' g' := by
  induction hrun generalizing g with
  | ret => exact ⟨g, Prog.wp_ret.mp hp, hinv⟩
  | fail => exact ⟨g, Prog.wp_fail.mp hp, hinv⟩
  | call hexec _ ih =>
    obtain ⟨hmay, hk⟩ := Prog.wp_call.mp hp
    obtain ⟨g', hdoes, hinv'⟩ := hcall _ _ _ _ _ hinv hmay hexec
    exact ih (hk _ g' hdoes) hinv'

/-- The services themselves as rules: nothing is forbidden, and the state is the real one. -/
def Services.rules (exec : Services C Out ε σ) : Prog.Rules C Out ε σ where
  may _ _ := True
  does := exec

theorem Runs.post {exec : Services C Out ε σ} {p : Prog C Out ε α}
    {Q : Except ε α → σ → Prop} {s s' : σ} {x : Except ε α} (hrun : Runs exec s p x s')
    (hp : Prog.wp exec.rules p Q s) : Q x s' := by
  have hcall : ∀ (s g : σ) (c : C) (r : Except ε (Out c)) (s' : σ), s = g →
      exec.rules.may g c → exec s c r s' → ∃ g', exec.rules.does g c r g' ∧ s' = g' := by
    rintro s g c r s' rfl _ hexec
    exact ⟨s', hexec, rfl⟩
  obtain ⟨g', hq, rfl⟩ := hrun.inv hcall hp rfl
  exact hq

section
variable {β : Type} {exec : Services C Out ε σ} {s s' : σ} {b : β}

/-- A call in front of a program that returns has succeeded. -/
theorem Runs.perform_bind {c : C} {f : Out c → Prog C Out ε β}
    (h : Runs exec s (Prog.perform c >>= f) (.ok b) s') :
    ∃ a s₁, exec s c (.ok a) s₁ ∧ Runs exec s₁ (f a) (.ok b) s' := by
  cases h with
  | call hexec hrest =>
    rename_i s₁ r
    cases r with
    | ok a => exact ⟨a, s₁, hexec, hrest⟩
    | error e => cases hrest

theorem Runs.okOr_bind {o : Option α} {e : ε} {f : α → Prog C Out ε β}
    (h : Runs exec s (Prog.okOr o e >>= f) (.ok b) s') :
    ∃ a, o = some a ∧ Runs exec s (f a) (.ok b) s' := by
  cases o with
  | none => cases h
  | some a => exact ⟨a, rfl, h⟩

end

/-! ## 2. A pool of programs -/

variable {Q : Type}

/-- What is under way after one flow was taken out was under way before. -/
theorem of_update_none {β : Type} {G : Nat → Option β} {i j : Nat} {x : β}
    (h : Function.update G i none j = some x) : G j = some x := by
  by_cases hij : j = i
  · subst hij
    rw [Function.update_self] at h
    cases h
  · rwa [Function.update_of_ne hij] at h

/-- What is under way after one flow moved: that flow, or one that did not. -/
theorem of_update_some {β : Type} {G : Nat → Option β} {i j : Nat} {x y : β}
    (h : Function.update G i (some y) j = some x) : j = i ∧ y = x ∨ j ≠ i ∧ G j = some x := by
  by_cases hij : j = i
  · subst hij
    rw [Function.update_self] at h
    exact .inl ⟨rfl, Option.some.inj h⟩
  · rw [Function.update_of_ne hij] at h
    exact .inr ⟨hij, h⟩

/-- One thing that happened in a pool, to the flow numbered `i` serving the request `q`. -/
inductive Entry (Q C : Type) (Out : C → Type) (ε α : Type)
  | start (i : Nat) (q : Q)
  | did (i : Nat) (q : Q) (c : C) (r : Except ε (Out c))
  | done (i : Nat) (q : Q) (x : Except ε α)
  | crash (i : Nat) (q : Q)

/-- The flow it happened to. -/
def Entry.flow : Entry Q C Out ε α → Nat
  | start i _ | did i _ _ _ | done i _ _ | crash i _ => i

/-- The request it was about. -/
def Entry.request : Entry Q C Out ε α → Q
  | start _ q | did _ q _ _ | done _ q _ | crash _ q => q

/-- Shared services, the flows under way, and what happened so far (newest first). -/
structure Pool (σ Q C : Type) (Out : C → Type) (ε α : Type) where
  state : σ
  flows : Nat → Option (Q × Prog C Out ε α)
  log : List (Entry Q C Out ε α)

/-- What a pool is made of: the program behind each request, how the services answer, and what
    anybody else may do to them in between. -/
structure System (σ Q C : Type) (Out : C → Type) (ε α : Type) where
  prog : Q → Prog C Out ε α
  exec : Services C Out ε σ
  ext : σ → σ → Prop

variable (sys : System σ Q C Out ε α)

namespace Pool

/-- One step of one flow. A number is given to one flow only, ever. -/
inductive Step : Pool σ Q C Out ε α → Entry Q C Out ε α → Pool σ Q C Out ε α → Prop
  | start {p : Pool σ Q C Out ε α} (i : Nat) (q : Q) (hnew : ∀ e ∈ p.log, e.flow ≠ i) :
      Step p (.start i q)
        ⟨p.state, Function.update p.flows i (some (q, sys.prog q)), .start i q :: p.log⟩
  | did {p : Pool σ Q C Out ε α} {i : Nat} {q : Q} {c : C}
      {k : Except ε (Out c) → Prog C Out ε α} (r : Except ε (Out c)) (s' : σ)
      (hflow : p.flows i = some (q, .call c k)) (hexec : sys.exec p.state c r s') :
      Step p (.did i q c r)
        ⟨s', Function.update p.flows i (some (q, k r)), .did i q c r :: p.log⟩
  | done {p : Pool σ Q C Out ε α} {i : Nat} {q : Q} {a : α}
      (hflow : p.flows i = some (q, .ret a)) :
      Step p (.done i q (.ok a))
        ⟨p.state, Function.update p.flows i none, .done i q (.ok a) :: p.log⟩
  | failed {p : Pool σ Q C Out ε α} {i : Nat} {q : Q} {e : ε}
      (hflow : p.flows i = some (q, .fail e)) :
      Step p (.done i q (.error e))
        ⟨p.state, Function.update p.flows i none, .done i q (.error e) :: p.log⟩
  | crash {p : Pool σ Q C Out ε α} {i : Nat} {q : Q} {prog : Prog C Out ε α}
      (hflow : p.flows i = some (q, prog)) :
      Step p (.crash i q) ⟨p.state, Function.update p.flows i none, .crash i q :: p.log⟩

/-- The pools reached from services in state `s₀` and no flows, by steps that all meet `ok` — a
    condition on the state and the log before the step, and on what the step does. -/
inductive Run (ok : σ → List (Entry Q C Out ε α) → Entry Q C Out ε α → Prop) (s₀ : σ) :
    Pool σ Q C Out ε α → Prop
  | init : Run ok s₀ ⟨s₀, fun _ => none, []⟩
  | step {p p' : Pool σ Q C Out ε α} {e : Entry Q C Out ε α} (hrun : Run ok s₀ p)
      (hstep : Step sys p e p') (hok : ok p.state p.log e) : Run ok s₀ p'
  | ext {p : Pool σ Q C Out ε α} {s' : σ} (hrun : Run ok s₀ p) (hext : sys.ext p.state s') :
      Run ok s₀ { p with state := s' }

/-- No condition on the steps. -/
abbrev anyStep : σ → List (Entry Q C Out ε α) → Entry Q C Out ε α → Prop :=
  fun _ _ _ => True

/-- **What has to be shown for an invariant of a pool.** `S` is the protocol the flows follow,
    `g₀ q` where a flow serving `q` starts in it, `Post q` what it guarantees when it ends.
    `Inv` speaks of the services, the log, and the bookkeeping of the flows under way. -/
structure Invariant (ok : σ → List (Entry Q C Out ε α) → Entry Q C Out ε α → Prop)
    (S : Prog.Rules C Out ε γ) (g₀ : Q → γ) (Post : Q → Except ε α → γ → Prop)
    (Inv : σ → List (Entry Q C Out ε α) → (Nat → Option (Q × γ)) → Prop) : Prop where
  follows : ∀ q, Prog.wp S (sys.prog q) (Post q) (g₀ q)
  start : ∀ {s l G i q}, Inv s l G → G i = none → (∀ e ∈ l, e.flow ≠ i) →
    ok s l (.start i q) → Inv s (.start i q :: l)
      (Function.update G i (some (q, g₀ q)))
  did : ∀ {s l G i q g c r s'}, Inv s l G → G i = some (q, g) → S.may g c →
    sys.exec s c r s' → ok s l (.did i q c r) →
    ∃ g', S.does g c r g' ∧ Inv s' (.did i q c r :: l) (Function.update G i (some (q, g')))
  done : ∀ {s l G i q g x}, Inv s l G → G i = some (q, g) → Post q x g →
    ok s l (.done i q x) → Inv s (.done i q x :: l) (Function.update G i none)
  crash : ∀ {s l G i q g}, Inv s l G → G i = some (q, g) →
    Inv s (.crash i q :: l) (Function.update G i none)
  ext : ∀ {s l G s'}, Inv s l G → sys.ext s s' → Inv s' l G

/-- The bookkeeping `G` fits the flows: each flow still follows the protocol from where its
    bookkeeping says it is. -/
def Fits (S : Prog.Rules C Out ε γ) (Post : Q → Except ε α → γ → Prop)
    (flows : Nat → Option (Q × Prog C Out ε α)) (G : Nat → Option (Q × γ)) : Prop :=
  ∀ i, (flows i = none ∧ G i = none) ∨
    ∃ q prog g, flows i = some (q, prog) ∧ G i = some (q, g) ∧ Prog.wp S prog (Post q) g

theorem Fits.update {S : Prog.Rules C Out ε γ} {Post : Q → Except ε α → γ → Prop}
    {flows : Nat → Option (Q × Prog C Out ε α)} {G : Nat → Option (Q × γ)}
    (h : Fits S Post flows G) {i : Nat} {q : Q} {prog : Prog C Out ε α} {g : γ}
    (hw : Prog.wp S prog (Post q) g) :
    Fits S Post (Function.update flows i (some (q, prog)))
      (Function.update G i (some (q, g))) := by
  intro j
  by_cases hj : j = i
  · subst hj
    simp only [Function.update_self]
    exact .inr ⟨q, prog, g, rfl, rfl, hw⟩
  · simp only [Function.update_of_ne hj]
    exact h j

theorem Fits.remove {S : Prog.Rules C Out ε γ} {Post : Q → Except ε α → γ → Prop}
    {flows : Nat → Option (Q × Prog C Out ε α)} {G : Nat → Option (Q × γ)}
    (h : Fits S Post flows G) (i : Nat) :
    Fits S Post (Function.update flows i none) (Function.update G i none) := by
  intro j
  by_cases hj : j = i
  · subst hj
    exact .inl ⟨Function.update_self .., Function.update_self ..⟩
  · simp only [Function.update_of_ne hj]
    exact h j

theorem Fits.get {S : Prog.Rules C Out ε γ} {Post : Q → Except ε α → γ → Prop}
    {flows : Nat → Option (Q × Prog C Out ε α)} {G : Nat → Option (Q × γ)}
    (h : Fits S Post flows G) {i : Nat} {q : Q} {prog : Prog C Out ε α}
    (hi : flows i = some (q, prog)) : ∃ g, G i = some (q, g) ∧ Prog.wp S prog (Post q) g := by
  rcases h i with ⟨hnone, -⟩ | ⟨q', prog', g, hf, hg, hw⟩
  · rw [hi] at hnone
    exact absurd hnone (by simp)
  · rw [hi] at hf
    injection hf with hf
    injection hf with hq hp
    subst hq hp
    exact ⟨g, hg, hw⟩

variable {sys}

/-- Whatever is under way has been logged. -/
theorem Run.logged {ok : σ → List (Entry Q C Out ε α) → Entry Q C Out ε α → Prop} {s₀ : σ}
    {p : Pool σ Q C Out ε α} (hrun : Run sys ok s₀ p) {i : Nat} (hi : p.flows i ≠ none) :
    ∃ e ∈ p.log, e.flow = i := by
  induction hrun with
  | init => exact absurd rfl hi
  | ext _ _ ih => exact ih hi
  | step hrun hstep _ ih =>
    -- a step concerns one flow, which it logs; every other flow was there before
    have hcase : ∀ {p : Pool σ Q C Out ε α} {e : Entry Q C Out ε α} {j : Nat}
        {x : Option (Q × Prog C Out ε α)}, e.flow = j →
        (p.flows i ≠ none → ∃ e ∈ p.log, e.flow = i) →
        Function.update p.flows j x i ≠ none → ∃ e' ∈ e :: p.log, e'.flow = i := by
      intro p e j x hj ih hi
      by_cases hij : i = j
      · exact ⟨e, List.mem_cons_self, hj.trans hij.symm⟩
      · rw [Function.update_of_ne hij] at hi
        obtain ⟨e', he', hflow⟩ := ih hi
        exact ⟨e', List.mem_cons_of_mem _ he', hflow⟩
    cases hstep with
    | start j q hnew => exact hcase rfl ih hi
    | did r s' hflow hexec => exact hcase rfl ih hi
    | done hflow => exact hcase rfl ih hi
    | failed hflow => exact hcase rfl ih hi
    | crash hflow => exact hcase rfl ih hi

/-- **An invariant of a pool holds in every pool reached.** -/
theorem Run.inv {ok : σ → List (Entry Q C Out ε α) → Entry Q C Out ε α → Prop}
    {S : Prog.Rules C Out ε γ} {g₀ : Q → γ} {Post : Q → Except ε α → γ → Prop}
    {Inv : σ → List (Entry Q C Out ε α) → (Nat → Option (Q × γ)) → Prop}
    (h : Invariant sys ok S g₀ Post Inv) {s₀ : σ} (hinit : Inv s₀ [] fun _ => none)
    {p : Pool σ Q C Out ε α} (hrun : Run sys ok s₀ p) :
    ∃ G, Inv p.state p.log G ∧ Fits S Post p.flows G := by
  induction hrun with
  | init => exact ⟨fun _ => none, hinit, fun _ => .inl ⟨rfl, rfl⟩⟩
  | ext _ hext ih =>
    obtain ⟨G, hinv, hfits⟩ := ih
    exact ⟨G, h.ext hinv hext, hfits⟩
  | step hrun hstep hok ih =>
    obtain ⟨G, hinv, hfits⟩ := ih
    cases hstep with
    | start i q hnew =>
      have hG : G i = none := by
        rcases hfits i with ⟨-, hg⟩ | ⟨q', prog, g, hf, -, -⟩
        · exact hg
        · obtain ⟨e, he, hflow⟩ := hrun.logged (i := i) (by simp [hf])
          exact absurd hflow (hnew e he)
      exact ⟨_, h.start hinv hG hnew hok, hfits.update (h.follows q)⟩
    | did r s' hflow hexec =>
      obtain ⟨g, hG, hwp⟩ := hfits.get hflow
      obtain ⟨hmay, hk⟩ := Prog.wp_call.mp hwp
      obtain ⟨g', hdoes, hinv'⟩ := h.did hinv hG hmay hexec hok
      exact ⟨_, hinv', hfits.update (hk r g' hdoes)⟩
    | done hflow =>
      obtain ⟨g, hG, hwp⟩ := hfits.get hflow
      exact ⟨_, h.done hinv hG (Prog.wp_ret.mp hwp) hok, hfits.remove _⟩
    | failed hflow =>
      obtain ⟨g, hG, hwp⟩ := hfits.get hflow
      exact ⟨_, h.done hinv hG (Prog.wp_fail.mp hwp) hok, hfits.remove _⟩
    | crash hflow =>
      obtain ⟨g, hG, -⟩ := hfits.get hflow
      exact ⟨_, h.crash hinv hG, hfits.remove _⟩

end Pool

end Nexum.Lib
