import Mathlib.Tactic.Common

/-!
# Checks that fail with a text

Validation code is a sequence of guards, each with its own error. Here such code is a plain
`Except`; the lemmas say what it means for a sequence of guards to have succeeded, so that
nothing downstream has to unfold one.
-/

namespace Nexum.Lib

variable {ε α β : Type}

namespace Check

/-- Fail with `e` when `c` holds. -/
def failIf (c : Prop) [Decidable c] (e : ε) : Except ε Unit :=
  if c then .error e else .ok ()

/-- The value, or the error `e` when there is none. -/
def okOr (o : Option α) (e : ε) : Except ε α :=
  match o with
  | some a => .ok a
  | none => .error e

/-- A sequence succeeds exactly when its halves do. -/
theorem bind_eq_ok {x : Except ε α} {f : α → Except ε β} {b : β} :
    (x >>= f) = .ok b ↔ ∃ a, x = .ok a ∧ f a = .ok b := by
  cases x with
  | ok a => simp [bind, Except.bind]
  | error e => simp [bind, Except.bind]

@[simp] theorem failIf_eq_ok {c : Prop} [Decidable c] {e : ε} {u : Unit} :
    failIf c e = .ok u ↔ ¬ c := by
  by_cases h : c <;> simp [failIf, h]

@[simp] theorem okOr_eq_ok {o : Option α} {e : ε} {a : α} :
    okOr o e = .ok a ↔ o = some a := by
  cases o <;> simp [okOr]

@[simp] theorem pure_eq_ok {a b : α} : (pure a : Except ε α) = .ok b ↔ a = b := by
  simp [pure, Except.pure]

@[simp] theorem mapError_eq_ok {ε' : Type} {x : Except ε α} {f : ε → ε'} {a : α} :
    x.mapError f = .ok a ↔ x = .ok a := by
  cases x <;> simp [Except.mapError]

/-- A guard has only one way to succeed. -/
theorem exists_unit {p : Unit → Prop} : (∃ u, p u) ↔ p () :=
  ⟨fun ⟨⟨⟩, h⟩ => h, fun h => ⟨(), h⟩⟩

/-- What has succeeded has a value. -/
theorem exists_of_isOk {x : Except ε α} (h : x.isOk = true) : ∃ a, x = .ok a := by
  cases x with
  | error e => cases h
  | ok a => exact ⟨a, rfl⟩

/-- A check over a list succeeds exactly when it succeeds on every member. -/
theorem forM_eq_ok {f : α → Except ε Unit} {xs : List α} :
    xs.forM f = .ok () ↔ ∀ x ∈ xs, f x = .ok () := by
  induction xs with
  | nil => simp [List.forM, pure, Except.pure]
  | cons x xs ih =>
    have hcons : (x :: xs).forM f = (f x >>= fun _ => xs.forM f) := rfl
    rw [hcons, bind_eq_ok]
    constructor
    · rintro ⟨⟨⟩, hx, hxs⟩
      exact List.forall_mem_cons.mpr ⟨hx, ih.mp hxs⟩
    · intro h
      obtain ⟨hx, hxs⟩ := List.forall_mem_cons.mp h
      exact ⟨(), hx, ih.mpr hxs⟩

/-! ## Loops that look back -/

section
variable {κ : Type}

/-- A check of every item, given the keys of the items before it. -/
def seenM (f : List κ → α → Except ε κ) : List κ → List α → Except ε (List κ)
  | seen, [] => pure seen
  | seen, a :: rest => do
    let key ← f seen a
    seenM f (seen ++ [key]) rest

/-- **Such a loop succeeds exactly if every item is in order and their keys are apart**, from each
    other and from those seen before. -/
theorem seenM_eq_ok (f : List κ → α → Except ε κ) (P : α → Prop) (key : α → κ)
    (Apart : κ → κ → Prop) (hf : ∀ seen a k, f seen a = .ok k ↔
      P a ∧ (∀ k' ∈ seen, Apart k' (key a)) ∧ k = key a) {seen out : List κ} {items : List α} :
    seenM f seen items = .ok out ↔ (∀ a ∈ items, P a) ∧ (∀ k ∈ seen, ∀ a ∈ items, Apart k (key a))
      ∧ (items.map key).Pairwise Apart ∧ out = seen ++ items.map key := by
  induction items generalizing seen with
  | nil =>
    rw [seenM, pure_eq_ok]
    simp [eq_comm]
  | cons a items ih =>
    simp only [seenM, bind_eq_ok, hf, ih, List.forall_mem_cons, List.map_cons,
      List.pairwise_cons, List.mem_append, List.mem_singleton, List.mem_map]
    constructor
    · rintro ⟨k, ⟨hP, hseen, rfl⟩, hall, hapart, hpairs, hout⟩
      refine ⟨⟨hP, hall⟩, fun k hk => ⟨hseen k hk, fun b hb => hapart k (.inl hk) b hb⟩,
        ⟨?_, hpairs⟩, by simpa using hout⟩
      rintro _ ⟨b, hb, rfl⟩
      exact hapart (key a) (.inr rfl) b hb
    · rintro ⟨⟨hP, hall⟩, hseen, ⟨hhead, hpairs⟩, hout⟩
      refine ⟨key a, ⟨hP, fun k hk => (hseen k hk).1, rfl⟩, hall, ?_, hpairs, by simpa using hout⟩
      rintro k (hk | rfl) b hb
      · exact (hseen k hk).2 b hb
      · exact hhead _ ⟨b, hb, rfl⟩

end

end Check

end Nexum.Lib
