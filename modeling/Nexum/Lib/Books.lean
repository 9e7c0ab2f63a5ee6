import Nexum.Lib.Runs

/-!
# Books kept from the log

The bookkeeping of one program is often a function of its own calls and their answers. Then it can
be read back from the log of a pool: a flow's book is the fold over its own entries, and **every
call in the log is one its flow was allowed to make, given its book at that point**. What is left
to prove is a statement about each program alone (`Run.obeys`).

The other half of an argument about a pool is about the services alone: an invariant of their
state and the log that every single answer keeps (`Run.world`).
-/

namespace Nexum.Lib

variable {C : Type} {Out : C → Type} {ε α σ Q γ : Type}

/-- Rules with books that are kept by `step`. -/
def keeping (step : γ → (c : C) → Except ε (Out c) → γ) (may : γ → C → Prop) :
    Prog.Rules C Out ε γ where
  may := may
  does g c r g' := g' = step g c r

/-- What is under way after one flow was taken out is another flow. -/
theorem ne_of_update_none {β : Type} {G : Nat → Option β} {i j : Nat} {x : β}
    (h : Function.update G i none j = some x) : j ≠ i ∧ G j = some x := by
  refine ⟨?_, of_update_none h⟩
  rintro rfl
  rw [Function.update_self] at h
  cases h

namespace Pool

variable (step : γ → (c : C) → Except ε (Out c) → γ)

/-- The book of the flow `i`, opened as `g`. -/
def book (g : γ) (i : Nat) : List (Entry Q C Out ε α) → γ
  | [] => g
  | .did j _ c r :: l => if j = i then step (book g i l) c r else book g i l
  | _ :: l => book g i l

/-- Every call in the log was allowed by its flow's book. -/
def Obeys (may : γ → C → Prop) (g₀ : Q → γ) : List (Entry Q C Out ε α) → Prop
  | [] => True
  | .did i q c _ :: l => may (book step (g₀ q) i l) c ∧ Obeys may g₀ l
  | _ :: l => Obeys may g₀ l

/-- Every flow that ended did so as its book had it. -/
def Ends (post : Q → Except ε α → γ → Prop) (g₀ : Q → γ) : List (Entry Q C Out ε α) → Prop
  | [] => True
  | .done i q x :: l => post q x (book step (g₀ q) i l) ∧ Ends post g₀ l
  | _ :: l => Ends post g₀ l

variable {step} {may : γ → C → Prop} {post : Q → Except ε α → γ → Prop} {g₀ : Q → γ}
variable {l : List (Entry Q C Out ε α)}

theorem book_fresh {g : γ} {i : Nat} (h : ∀ e ∈ l, e.flow ≠ i) : book step g i l = g := by
  induction l with
  | nil => rfl
  | cons e l ih =>
    obtain ⟨he, hl⟩ := List.forall_mem_cons.mp h
    cases e with
    | did j q c r =>
      have hj : j ≠ i := he
      simp only [book, if_neg hj, ih hl]
    | _ => exact ih hl

@[simp] theorem book_did_self {g : γ} {i : Nat} {q : Q} {c : C} {r : Except ε (Out c)} :
    book step g i (.did i q c r :: l) = step (book step g i l) c r :=
  if_pos rfl

theorem book_did_of_ne {g : γ} {i j : Nat} {q : Q} {c : C} {r : Except ε (Out c)} (h : j ≠ i) :
    book step g j (.did i q c r :: l) = book step g j l :=
  if_neg h.symm

theorem Obeys.split {l₁ l₂ : List (Entry Q C Out ε α)} {i : Nat} {q : Q} {c : C}
    {r : Except ε (Out c)} (h : Obeys step may g₀ (l₁ ++ .did i q c r :: l₂)) :
    may (book step (g₀ q) i l₂) c := by
  induction l₁ with
  | nil => exact h.1
  | cons e l₁ ih =>
    cases e with
    | did j q' c' r' => exact ih h.2
    | _ => exact ih h

variable {sys : System σ Q C Out ε α}
  {ok : σ → List (Entry Q C Out ε α) → Entry Q C Out ε α → Prop} {s₀ : σ}
  {p : Pool σ Q C Out ε α}

/-- **What every program obeys, and how it ends, is in the log.** -/
theorem Run.books (h : ∀ q, Prog.wp (keeping step may) (sys.prog q) (post q) (g₀ q))
    (hrun : Run sys ok s₀ p) : Obeys step may g₀ p.log ∧ Ends step post g₀ p.log := by
  let Inv : σ → List (Entry Q C Out ε α) → (Nat → Option (Q × γ)) → Prop := fun _ l G =>
    (Obeys step may g₀ l ∧ Ends step post g₀ l)
      ∧ ∀ i q g, G i = some (q, g) → g = book step (g₀ q) i l
  have hinv : Invariant sys ok (keeping step may) g₀ post Inv := {
    follows := h
    start := by
      intro s l G i q hi _ hnew _
      refine ⟨hi.1, fun j q' g hj => ?_⟩
      rcases of_update_some hj with ⟨rfl, hx⟩ | ⟨-, hj⟩
      · cases hx
        exact (book_fresh hnew).symm
      · exact hi.2 j q' g hj
    did := by
      intro s l G i q g c r s' hi hG hmay _ _
      obtain rfl := hi.2 i q g hG
      refine ⟨_, rfl, ⟨⟨hmay, hi.1.1⟩, hi.1.2⟩, fun j q' g' hj => ?_⟩
      rcases of_update_some hj with ⟨rfl, hx⟩ | ⟨hne, hj⟩
      · cases hx
        simp only [book, if_true]
      · have hne : ¬ i = j := fun heq => hne heq.symm
        simp only [book, if_neg hne]
        exact hi.2 j q' g' hj
    done := by
      intro s l G i q g x hi hG hpost _
      obtain rfl := hi.2 i q g hG
      exact ⟨⟨hi.1.1, hpost, hi.1.2⟩, fun j q' g' hj => hi.2 j q' g' (of_update_none hj)⟩
    crash := by
      intro s l G i q g hi _
      exact ⟨hi.1, fun j q' g' hj => hi.2 j q' g' (of_update_none hj)⟩
    ext := fun hi _ => hi }
  have hinit : Inv s₀ [] fun _ => none := by
    refine ⟨⟨trivial, trivial⟩, fun i q g hi => ?_⟩
    cases hi
  obtain ⟨G, hlog, -⟩ := hrun.inv hinv hinit
  exact hlog.1

theorem Run.obeys (h : ∀ q, Prog.wp (keeping step may) (sys.prog q) (fun _ _ => True) (g₀ q))
    (hrun : Run sys ok s₀ p) : Obeys step may g₀ p.log :=
  (hrun.books h).1

/-- An invariant of the services and the log. -/
theorem Run.world {I : σ → List (Entry Q C Out ε α) → Prop} (hinit : I s₀ [])
    (hdid : ∀ s l i q c r s', I s l → sys.exec s c r s' → ok s l (.did i q c r) →
      I s' (.did i q c r :: l))
    (hrest : ∀ s l e, I s l → (∀ i q c r, e ≠ .did i q c r) → I s (e :: l))
    (hext : ∀ s l s', I s l → sys.ext s s' → I s' l) (hrun : Run sys ok s₀ p) :
    I p.state p.log := by
  induction hrun with
  | init => exact hinit
  | ext _ he ih => exact hext _ _ _ ih he
  | step _ hstep hok ih =>
    cases hstep with
    | start i q hnew => exact hrest _ _ _ ih (by simp)
    | did r s' hflow hexec => exact hdid _ _ _ _ _ _ _ ih hexec hok
    | done hflow => exact hrest _ _ _ ih (by simp)
    | failed hflow => exact hrest _ _ _ ih (by simp)
    | crash hflow => exact hrest _ _ _ ih (by simp)

/-- Every entry of the log was made from a pool that had been reached then. -/
theorem Run.before {e : Entry Q C Out ε α} {l₁ l₂ : List (Entry Q C Out ε α)}
    (hrun : Run sys ok s₀ p) (hlog : p.log = l₁ ++ e :: l₂) :
    ∃ p', Run sys ok s₀ p' ∧ p'.log = l₂ ∧ ok p'.state l₂ e := by
  induction hrun generalizing l₁ with
  | init => cases l₁ <;> cases hlog
  | ext _ _ ih => exact ih hlog
  | @step p p' e' hrun hstep hok ih =>
    have hcons : p'.log = e' :: p.log := by cases hstep <;> rfl
    rw [hcons] at hlog
    cases l₁ with
    | nil =>
      obtain ⟨rfl, rfl⟩ := List.cons.inj hlog
      exact ⟨p, hrun, rfl, hok⟩
    | cons x l₁ => exact ih (List.cons.inj hlog).2

/-! ## Flows under way -/

/-- It ends the flow `i`. -/
def ends (i : Nat) : Entry Q C Out ε α → Bool
  | .done j _ _ => j == i
  | .crash j _ => j == i
  | _ => false

/-- The flow `i` has not ended. -/
def Live (i : Nat) (l : List (Entry Q C Out ε α)) : Prop :=
  l.any (ends i) = false

instance (i : Nat) (l : List (Entry Q C Out ε α)) : Decidable (Live i l) :=
  inferInstanceAs (Decidable (l.any (ends i) = false))

theorem live_cons {i : Nat} {e : Entry Q C Out ε α} :
    Live i (e :: l) ↔ ends i e = false ∧ Live i l := by
  simp only [Live, List.any_cons, Bool.or_eq_false_iff]

/-- Nothing that ended the flow is in the log of one that has not ended. -/
theorem Live.ends_mem {i : Nat} {e : Entry Q C Out ε α}
    (h : Live i l) (he : e ∈ l) : ends i e = false := by
  simpa using List.any_eq_false.mp h e he

theorem live_fresh {i : Nat} (h : ∀ e ∈ l, e.flow ≠ i) : Live i l := by
  refine List.any_eq_false.mpr fun e he => ?_
  have hne := h e he
  cases e with
  | done j q x => simpa [ends, Entry.flow] using hne
  | crash j q => simpa [ends, Entry.flow] using hne
  | _ => simp [ends]

/-- What holds of every flow that has not begun holds of all flows if it holds of those in the log:
    conditions on the other flows of a step are decided this way. -/
theorem forall_flow_iff {P : Nat → Prop} (hfresh : ∀ i, (∀ e ∈ l, e.flow ≠ i) → P i) :
    (∀ i, P i) ↔ ∀ i ∈ l.map Entry.flow, P i := by
  refine ⟨fun hall i _ => hall i, fun hall i => ?_⟩
  by_cases hi : i ∈ l.map Entry.flow
  · exact hall i hi
  · exact hfresh i fun e he heq => hi (List.mem_map.mpr ⟨e, he, heq⟩)

/-- The books of the flows under way are those that the log gives. -/
def Booked (step : γ → (c : C) → Except ε (Out c) → γ) (g₀ : Q → γ)
    (l : List (Entry Q C Out ε α)) (G : Nat → Option (Q × γ)) : Prop :=
  ∀ i q g, G i = some (q, g) → g = book step (g₀ q) i l ∧ Live i l

section
variable {G : Nat → Option (Q × γ)} {i : Nat} {q : Q}

theorem booked_nil : Booked step g₀ ([] : List (Entry Q C Out ε α)) fun _ => none := by
  intro i q g hi
  cases hi

theorem Booked.start (h : Booked step g₀ l G) (hnew : ∀ e ∈ l, e.flow ≠ i) :
    Booked step g₀ (.start i q :: l) (Function.update G i (some (q, g₀ q))) := by
  intro j q' g hj
  rcases of_update_some hj with ⟨rfl, hx⟩ | ⟨-, hj⟩
  · cases hx
    exact ⟨(book_fresh hnew).symm, live_cons.mpr ⟨rfl, live_fresh hnew⟩⟩
  · obtain ⟨hbook, hlive⟩ := h j q' g hj
    exact ⟨hbook, live_cons.mpr ⟨rfl, hlive⟩⟩

theorem Booked.did {g : γ} {c : C} {r : Except ε (Out c)} (h : Booked step g₀ l G)
    (hG : G i = some (q, g)) :
    Booked step g₀ (.did i q c r :: l) (Function.update G i (some (q, step g c r))) := by
  intro j q' g' hj
  rcases of_update_some hj with ⟨rfl, hx⟩ | ⟨hne, hj⟩
  · cases hx
    obtain ⟨rfl, hlive⟩ := h j q g hG
    exact ⟨by simp only [book, if_true], live_cons.mpr ⟨rfl, hlive⟩⟩
  · obtain ⟨hbook, hlive⟩ := h j q' g' hj
    have hne : ¬ i = j := fun heq => hne heq.symm
    simp only [book, if_neg hne]
    exact ⟨hbook, live_cons.mpr ⟨rfl, hlive⟩⟩

/-- A flow that has ended is no longer in the books. -/
theorem Booked.done {x : Except ε α} (h : Booked step g₀ l G) :
    Booked step g₀ (.done i q x :: l) (Function.update G i none) := by
  intro j q' g hj
  obtain ⟨hne, hj⟩ := ne_of_update_none hj
  obtain ⟨hbook, hlive⟩ := h j q' g hj
  exact ⟨hbook, live_cons.mpr ⟨by simpa [ends] using hne.symm, hlive⟩⟩

theorem Booked.crash (h : Booked step g₀ l G) :
    Booked step g₀ (.crash i q :: l) (Function.update G i none) := by
  intro j q' g hj
  obtain ⟨hne, hj⟩ := ne_of_update_none hj
  obtain ⟨hbook, hlive⟩ := h j q' g hj
  exact ⟨hbook, live_cons.mpr ⟨by simpa [ends] using hne.symm, hlive⟩⟩

end

/-- **An invariant of the services and the log, where the books are read from the log.** A call is
    made by a flow that has not ended and was allowed to make it. -/
theorem Run.inv_books (step : γ → (c : C) → Except ε (Out c) → γ) (may : γ → C → Prop)
    (post : Q → Except ε α → γ → Prop) (g₀ : Q → γ) {I : σ → List (Entry Q C Out ε α) → Prop}
    (h : ∀ q, Prog.wp (keeping step may) (sys.prog q) (post q) (g₀ q)) (hinit : I s₀ [])
    (hstart : ∀ s l i q, I s l → (∀ e ∈ l, e.flow ≠ i) → ok s l (.start i q) →
      I s (.start i q :: l))
    (hdid : ∀ s l i q c r s', I s l → Live i l → may (book step (g₀ q) i l) c →
      sys.exec s c r s' → ok s l (.did i q c r) → I s' (.did i q c r :: l))
    (hdone : ∀ s l i q x, I s l → Live i l → post q x (book step (g₀ q) i l) →
      ok s l (.done i q x) → I s (.done i q x :: l))
    (hcrash : ∀ s l i q, I s l → Live i l → I s (.crash i q :: l))
    (hext : ∀ s l s', I s l → sys.ext s s' → I s' l) (hrun : Run sys ok s₀ p) :
    I p.state p.log := by
  let Inv : σ → List (Entry Q C Out ε α) → (Nat → Option (Q × γ)) → Prop := fun s l G =>
    I s l ∧ Booked step g₀ l G
  have hinv : Invariant sys ok (keeping step may) g₀ post Inv := {
    follows := h
    start := by
      intro s l G i q hi _ hnew hok
      exact ⟨hstart s l i q hi.1 hnew hok, hi.2.start hnew⟩
    did := by
      intro s l G i q g c r s' hi hG hmay hexec hok
      obtain ⟨rfl, hlive⟩ := hi.2 i q g hG
      exact ⟨_, rfl, hdid s l i q c r s' hi.1 hlive hmay hexec hok, hi.2.did hG⟩
    done := by
      intro s l G i q g x hi hG hpost hok
      obtain ⟨rfl, hlive⟩ := hi.2 i q g hG
      exact ⟨hdone s l i q x hi.1 hlive hpost hok, hi.2.done⟩
    crash := by
      intro s l G i q g hi hG
      exact ⟨hcrash s l i q hi.1 (hi.2 i q g hG).2, hi.2.crash⟩
    ext := fun hi he => ⟨hext _ _ _ hi.1 he, hi.2⟩ }
  obtain ⟨G, hlog, -⟩ := hrun.inv hinv ⟨hinit, booked_nil⟩
  exact hlog.1

end Pool

end Nexum.Lib
