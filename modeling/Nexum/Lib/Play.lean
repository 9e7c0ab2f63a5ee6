import Nexum.Lib.Runs

/-!
# Playing programs

`Runs` and `Pool.Run` say what *can* happen. Here it is made to happen: given a way of answering
every call (a `Player`), a program is played to its end by recursion on its text, and a pool by
following a list of acts — start a flow, let one make some of its calls, close it, stop it dead.
What is played is a run (`play_runs`, `follow_run`), so a fact about a run can be established by
evaluation.

A program always ends: playing needs no bound on the number of calls.
-/

namespace Nexum.Lib

variable {C : Type} {Out : C → Type} {ε α σ M Q : Type}

/-- A way of answering calls that the services admit, in one of the modes `M`. -/
structure Player (exec : Services C Out ε σ) (M : Type) where
  answer : M → σ → (c : C) → Except ε (Out c) × σ
  sound : ∀ m s c, exec s c (answer m s c).1 (answer m s c).2

variable {exec : Services C Out ε σ}

/-! ## 1. One program -/

/-- Play the program to its end; its call number `n` is answered in the mode `plan n`. -/
def Prog.play (P : Player exec M) (plan : Nat → M) : Prog C Out ε α → Nat → σ → Except ε α × σ
  | .ret a, _, s => (.ok a, s)
  | .fail e, _, s => (.error e, s)
  | .call c k, n, s =>
    let x := P.answer (plan n) s c
    (k x.1).play P plan (n + 1) x.2

theorem Prog.play_runs (P : Player exec M) (plan : Nat → M) (p : Prog C Out ε α) (n : Nat)
    (s : σ) : Runs exec s p (p.play P plan n s).1 (p.play P plan n s).2 := by
  induction p generalizing n s with
  | ret a => exact .ret
  | fail e => exact .fail
  | call c k ih => exact .call (P.sound (plan n) s c) (ih _ (n + 1) _)

/-- Play the program as long as `chk` lets its replies through. -/
def Prog.playIf (P : Player exec M) (plan : Nat → M) (chk : (c : C) → Except ε (Out c) → Bool) :
    Prog C Out ε α → Nat → σ → Option (Except ε α × σ)
  | .ret a, _, s => some (.ok a, s)
  | .fail e, _, s => some (.error e, s)
  | .call c k, n, s =>
    let x := P.answer (plan n) s c
    if chk c x.1 then (k x.1).playIf P plan chk (n + 1) x.2 else none

theorem Prog.playIf_runs {P : Player exec M} {plan : Nat → M}
    {chk : (c : C) → Except ε (Out c) → Bool} {p : Prog C Out ε α} {n : Nat} {s : σ}
    {f : Except ε α × σ → Bool} (h : (p.playIf P plan chk n s).any f = true) :
    ∃ x s', Runs (fun s c r s' => exec s c r s' ∧ chk c r = true) s p x s' ∧ f (x, s') = true := by
  induction p generalizing n s with
  | ret a => exact ⟨_, _, .ret, h⟩
  | fail e => exact ⟨_, _, .fail, h⟩
  | call c k ih =>
    simp only [Prog.playIf] at h
    split at h
    · rename_i hchk
      obtain ⟨x, s', hrun, hf⟩ := ih _ h
      exact ⟨x, s', .call ⟨P.sound (plan n) s c, hchk⟩ hrun, hf⟩
    · cases h

/-- Run the program on services that answer by a function of their state. -/
def Prog.eval (ans : σ → (c : C) → Except ε (Out c) × σ) :
    Prog C Out ε α → σ → Except ε α × σ
  | .ret a, s => (.ok a, s)
  | .fail e, s => (.error e, s)
  | .call c k, s => (k (ans s c).1).eval ans (ans s c).2

section
variable {β γ : Type} {ans : σ → (c : C) → Except ε (Out c) × σ}

theorem Prog.eval_runs (p : Prog C Out ε α) (s : σ) :
    Runs (fun s c r s' => ans s c = (r, s')) s p (p.eval ans s).1 (p.eval ans s).2 := by
  induction p generalizing s with
  | ret a => exact .ret
  | fail e => exact .fail
  | call c k ih => exact .call rfl (ih _ _)

/-- A sequence whose first half returns. -/
theorem Prog.eval_bind {p : Prog C Out ε α} {f : α → Prog C Out ε β} {a : α} {s s' : σ}
    (h : p.eval ans s = (.ok a, s')) : (p >>= f).eval ans s = (f a).eval ans s' := by
  induction p generalizing s with
  | ret b =>
    cases h
    rfl
  | fail e => cases h
  | call c k ih => exact ih _ h

theorem Prog.eval_ok_bind {p : Prog C Out ε α} {f : α → Prog C Out ε β} {a : α} {s s' : σ}
    {x : Except ε β × σ} (h : p.eval ans s = (.ok a, s')) (hf : (f a).eval ans s' = x) :
    (p >>= f).eval ans s = x :=
  (Prog.eval_bind h).trans hf

theorem Prog.eval_ofExcept {e : Except ε α} {a : α} (h : e = .ok a) (s : σ) :
    (Prog.ofExcept e : Prog C Out ε α).eval ans s = (.ok a, s) := by
  subst h
  rfl

theorem Prog.eval_perform {c : C} {a : Out c} {s s' : σ} (h : ans s c = (.ok a, s')) :
    (Prog.perform c : Prog C Out ε (Out c)).eval ans s = (.ok a, s') := by
  simp only [Prog.perform, Prog.eval, h]
  rfl

theorem Prog.eval_failIf {c : Prop} [Decidable c] (h : ¬ c) {e : ε} (s : σ) :
    (Prog.failIf c e : Prog C Out ε Unit).eval ans s = (.ok (), s) := by
  unfold Prog.failIf
  rw [if_neg h]
  rfl

/-- The calls the program makes, in order. -/
def Prog.calls (ans : σ → (c : C) → Except ε (Out c) × σ) : Prog C Out ε α → σ → List C
  | .ret _, _ => []
  | .fail _, _ => []
  | .call c k, s => c :: (k (ans s c).1).calls ans (ans s c).2

theorem Prog.calls_left {p : Prog C Out ε α} {f : α → Prog C Out ε β} {s : σ} {c : C}
    (h : c ∈ p.calls ans s) : c ∈ (p >>= f).calls ans s := by
  induction p generalizing s with
  | ret a => exact absurd h List.not_mem_nil
  | fail e => exact absurd h List.not_mem_nil
  | call c' k ih =>
    rcases List.mem_cons.mp h with rfl | h
    · exact List.mem_cons_self
    · exact List.mem_cons_of_mem _ (ih _ h)

theorem Prog.calls_right {p : Prog C Out ε α} {f : α → Prog C Out ε β} {a : α} {s s' : σ} {c : C}
    (hp : p.eval ans s = (.ok a, s')) (h : c ∈ (f a).calls ans s') :
    c ∈ (p >>= f).calls ans s := by
  induction p generalizing s with
  | ret b =>
    cases hp
    exact h
  | fail e => cases hp
  | call c' k ih => exact List.mem_cons_of_mem _ (ih _ hp)

/-- Bookkeeping along the one run there is. -/
theorem Prog.eval_inv {S : Prog.Rules C Out ε γ} {Inv : σ → γ → Prop}
    (hcall : ∀ s g c, Inv s g → S.may g c →
      ∃ g', S.does g c (ans s c).1 g' ∧ Inv (ans s c).2 g')
    {p : Prog C Out ε α} {Q : Except ε α → γ → Prop} {s : σ} {g : γ} (hp : Prog.wp S p Q g)
    (hinv : Inv s g) : ∃ g', Q (p.eval ans s).1 g' ∧ Inv (p.eval ans s).2 g' := by
  refine (p.eval_runs s).inv ?_ hp hinv
  intro s g c r s' hi hmay heq
  obtain ⟨hr, hs⟩ := Prod.mk.inj heq
  subst hr hs
  exact hcall s g c hi hmay

end

/-! ## 2. A pool of programs -/

/-- What a pool is told to do. -/
inductive Act (Q M : Type)
  | start (i : Nat) (q : Q)
  | calls (i : Nat) (modes : List M)
  | close (i : Nat)
  | crash (i : Nat)

namespace Pool

variable {sys : System σ Q C Out ε α} (P : Player sys.exec M)
  (chk : σ → List (Entry Q C Out ε α) → Entry Q C Out ε α → Bool)

/-- Let the flow `i` make its next call. -/
def next (i : Nat) (p : Pool σ Q C Out ε α) (m : M) : Option (Pool σ Q C Out ε α) :=
  match p.flows i with
  | some (q, .call c k) =>
    let x := P.answer m p.state c
    if chk p.state p.log (.did i q c x.1) then
      some ⟨x.2, Function.update p.flows i (some (q, k x.1)), .did i q c x.1 :: p.log⟩
    else none
  | _ => none

/-- One act; `none` if it is not possible, or if `chk` forbids it. -/
def act (p : Pool σ Q C Out ε α) : Act Q M → Option (Pool σ Q C Out ε α)
  | .start i q =>
    if (p.log.all fun e => e.flow ≠ i) ∧ chk p.state p.log (.start i q) then
      some ⟨p.state, Function.update p.flows i (some (q, sys.prog q)), .start i q :: p.log⟩
    else none
  | .calls i modes => modes.foldlM (next P chk i) p
  | .close i =>
    match p.flows i with
    | some (q, .ret a) =>
      if chk p.state p.log (.done i q (.ok a)) then
        some ⟨p.state, Function.update p.flows i none, .done i q (.ok a) :: p.log⟩
      else none
    | some (q, .fail e) =>
      if chk p.state p.log (.done i q (.error e)) then
        some ⟨p.state, Function.update p.flows i none, .done i q (.error e) :: p.log⟩
      else none
    | _ => none
  | .crash i =>
    match p.flows i with
    | some (q, _) =>
      if chk p.state p.log (.crash i q) then
        some ⟨p.state, Function.update p.flows i none, .crash i q :: p.log⟩
      else none
    | none => none

/-- Follow a list of acts from services in state `s` and no flows. -/
def follow (s : σ) (acts : List (Act Q M)) : Option (Pool σ Q C Out ε α) :=
  acts.foldlM (act P chk) ⟨s, fun _ => none, []⟩

variable {P chk} {ok : σ → List (Entry Q C Out ε α) → Entry Q C Out ε α → Prop} {s₀ : σ}
  {p p' : Pool σ Q C Out ε α}

theorem next_step {i : Nat} {m : M} (h : next P chk i p m = some p') :
    ∃ e, Step sys p e p' ∧ chk p.state p.log e = true := by
  unfold next at h
  split at h
  · rename_i q c k hflow
    dsimp only at h
    split at h
    · rename_i hc
      cases h
      exact ⟨_, .did _ _ hflow (P.sound m p.state c), hc⟩
    · cases h
  · cases h

theorem next_run (hok : ∀ s l e, chk s l e = true → ok s l e) {i : Nat} {m : M}
    (hrun : Run sys ok s₀ p) (h : next P chk i p m = some p') : Run sys ok s₀ p' := by
  obtain ⟨e, hstep, hc⟩ := next_step h
  exact hrun.step hstep (hok _ _ _ hc)

/-- A property every single application keeps is kept by the fold. -/
theorem foldlM_some {β γ : Type} {f : β → γ → Option β} {R : β → Prop}
    (hf : ∀ b c b', R b → f b c = some b' → R b') {b b' : β} {l : List γ} (hb : R b)
    (h : l.foldlM f b = some b') : R b' := by
  induction l generalizing b with
  | nil =>
    cases h
    exact hb
  | cons c l ih =>
    simp only [List.foldlM_cons, Option.bind_eq_bind, Option.bind_eq_some_iff] at h
    obtain ⟨b₁, hb₁, h⟩ := h
    exact ih (hf b c b₁ hb hb₁) h

theorem act_run (hok : ∀ s l e, chk s l e = true → ok s l e) {a : Act Q M}
    (hrun : Run sys ok s₀ p) (h : act P chk p a = some p') : Run sys ok s₀ p' := by
  cases a with
  | start i q =>
    simp only [act] at h
    split at h
    · rename_i hc
      cases h
      have hnew : ∀ e ∈ p.log, e.flow ≠ i := by simpa using hc.1
      exact hrun.step (.start i q hnew) (hok _ _ _ hc.2)
    · cases h
  | calls i modes =>
    exact foldlM_some (R := Run sys ok s₀) (fun _ _ _ hr hn => next_run hok hr hn) hrun h
  | close i =>
    simp only [act] at h
    split at h
    · rename_i hflow
      split at h
      · rename_i hc
        cases h
        exact hrun.step (.done hflow) (hok _ _ _ hc)
      · cases h
    · rename_i hflow
      split at h
      · rename_i hc
        cases h
        exact hrun.step (.failed hflow) (hok _ _ _ hc)
      · cases h
    · cases h
  | crash i =>
    simp only [act] at h
    split at h
    · rename_i hflow
      split at h
      · rename_i hc
        cases h
        exact hrun.step (.crash hflow) (hok _ _ _ hc)
      · cases h
    · cases h

/-- **What was followed is a run**, here together with whatever was found out about its end. -/
theorem follow_run (hok : ∀ s l e, chk s l e = true → ok s l e) {acts : List (Act Q M)}
    {f : Pool σ Q C Out ε α → Bool} (h : (follow P chk s₀ acts).any f = true) :
    ∃ p, Run sys ok s₀ p ∧ f p = true := by
  cases hp : follow P chk s₀ acts with
  | none =>
    rw [hp] at h
    cases h
  | some p =>
    rw [hp] at h
    exact ⟨p, foldlM_some (R := Run sys ok s₀) (fun _ _ _ hr ha => act_run hok hr ha) .init hp, h⟩

end Pool

end Nexum.Lib
