import Mathlib.Data.List.Induction

/-!
# Histories of atomic calls

A server that handles one call at a time is a function: a call finds a state, gets a reply and
leaves a state. However many clients there are, and however their requests interleave, what they
do to such a server is **one list of calls**, its history. What holds of every state it can be in
is proved along the history, with the calls of the past at hand: a fact may be about what was
called before (which receipts were drawn, which messages were accepted) and not only about what is
stored now.
-/

namespace Nexum.Lib

variable {σ ι ο : Type}

structure Server (σ ι ο : Type) where
  serve : σ → ι → ο × σ

namespace Server

variable (S : Server σ ι ο)

/-- The state after a history. -/
def after (s : σ) (calls : List ι) : σ :=
  calls.foldl (fun s call => (S.serve s call).2) s

/-- The reply to a call after a history. -/
def reply (s : σ) (calls : List ι) (call : ι) : ο :=
  (S.serve (S.after s calls) call).1

@[simp] theorem after_nil (s : σ) : S.after s [] = s := rfl

@[simp] theorem after_snoc (s : σ) (calls : List ι) (call : ι) :
    S.after s (calls ++ [call]) = (S.serve (S.after s calls) call).2 := by
  simp [after]

theorem after_append (s : σ) (calls later : List ι) :
    S.after s (calls ++ later) = S.after (S.after s calls) later :=
  List.foldl_append

/-- What is noted down along a history, call by call, with the state each call finds. -/
def collect {κ : Type} (note : σ → ι → List κ) (s : σ) : List ι → List κ
  | [] => []
  | call :: calls => note s call ++ collect note (S.serve s call).2 calls

@[simp] theorem collect_nil {κ : Type} (note : σ → ι → List κ) (s : σ) :
    S.collect note s [] = [] := rfl

theorem collect_append {κ : Type} (note : σ → ι → List κ) (s : σ) (calls later : List ι) :
    S.collect note s (calls ++ later)
      = S.collect note s calls ++ S.collect note (S.after s calls) later := by
  induction calls generalizing s with
  | nil => rfl
  | cons first calls ih =>
    show note s first ++ S.collect note (S.serve s first).2 (calls ++ later) = _
    rw [ih, ← List.append_assoc]
    rfl

@[simp] theorem collect_snoc {κ : Type} (note : σ → ι → List κ) (s : σ) (calls : List ι)
    (call : ι) :
    S.collect note s (calls ++ [call])
      = S.collect note s calls ++ note (S.after s calls) call := by
  rw [collect_append]
  simp [collect]

/-- Every call of the history meets the condition in the state it finds. -/
def Along (ok : σ → ι → Prop) (s : σ) : List ι → Prop
  | [] => True
  | call :: calls => ok s call ∧ Along ok (S.serve s call).2 calls

instance decidableAlong (ok : σ → ι → Prop) [∀ s call, Decidable (ok s call)] :
    ∀ (s : σ) (calls : List ι), Decidable (S.Along ok s calls)
  | _, [] => isTrue trivial
  | s, call :: calls =>
    have := decidableAlong ok (S.serve s call).2 calls
    inferInstanceAs (Decidable (ok s call ∧ S.Along ok (S.serve s call).2 calls))

theorem along_append {ok : σ → ι → Prop} {s : σ} {calls later : List ι} :
    S.Along ok s (calls ++ later) ↔ S.Along ok s calls ∧ S.Along ok (S.after s calls) later := by
  induction calls generalizing s with
  | nil => simp [Along]
  | cons first calls ih =>
    show ok s first ∧ S.Along ok (S.serve s first).2 (calls ++ later) ↔ _
    rw [ih, ← and_assoc]
    rfl

theorem along_snoc {ok : σ → ι → Prop} {s : σ} {calls : List ι} {call : ι} :
    S.Along ok s (calls ++ [call]) ↔ S.Along ok s calls ∧ ok (S.after s calls) call := by
  rw [along_append]
  simp [Along]

/-- What each call keeps under the condition holds along the history. -/
theorem invariant {ok : σ → ι → Prop} {P : σ → Prop}
    (hstep : ∀ s call, ok s call → P s → P (S.serve s call).2) {s : σ} (hs : P s)
    (calls : List ι) (h : S.Along ok s calls) : P (S.after s calls) := by
  induction calls generalizing s with
  | nil => exact hs
  | cons call calls ih => exact ih (hstep s call h.1 hs) h.2

end Server

/-- **Along a history.** `Legal` says which histories are considered; the past of one that is, is
    one too. -/
theorem history_induction {Legal P : List ι → Prop}
    (hpast : ∀ calls call, Legal (calls ++ [call]) → Legal calls) (hnil : P [])
    (hstep : ∀ calls call, Legal (calls ++ [call]) → P calls → P (calls ++ [call]))
    (calls : List ι) (h : Legal calls) : P calls := by
  induction calls using List.reverseRecOn with
  | nil => exact hnil
  | append_singleton calls call ih => exact hstep calls call h (ih (hpast calls call h))

/-- A part of a list without repetition is what a filter that knows its members keeps. -/
theorem filter_eq_of_sublist {κ : Type} {keep : κ → Bool} {part whole : List κ}
    (hpart : part.Sublist whole) (hnodup : whole.Nodup)
    (hkeep : ∀ x ∈ whole, keep x = true ↔ x ∈ part) : whole.filter keep = part := by
  induction hpart with
  | slnil => rfl
  | @cons part whole x hpart ih =>
    have hx := List.nodup_cons.mp hnodup
    have hdrop : keep x = false := by
      rw [← Bool.not_eq_true, hkeep x List.mem_cons_self]
      intro hmem
      exact hx.1 (hpart.subset hmem)
    rw [List.filter_cons_of_neg (by simp [hdrop])]
    exact ih hx.2 fun y hy => hkeep y (List.mem_cons_of_mem x hy)
  | @cons_cons part whole x hpart ih =>
    have hx := List.nodup_cons.mp hnodup
    rw [List.filter_cons_of_pos ((hkeep x List.mem_cons_self).mpr List.mem_cons_self)]
    congr 1
    refine ih hx.2 ?_
    intro y hy
    have hne : y ≠ x := by
      intro heq
      exact hx.1 (heq ▸ hy)
    rw [hkeep y (List.mem_cons_of_mem x hy), List.mem_cons]
    simp [hne]

end Nexum.Lib
