import Mathlib.Tactic.Common

/-!
# Numbered by place

A sender that counts gives everything it sends the number of its place. Then a receiver that has
taken a first part of what was sent, in order, and asks for the next number takes the next thing:
no other thing that was sent has it (`Numbered.next`).
-/

namespace Nexum.Lib

variable {χ : Type} {num : χ → Nat} {x : χ}

/-- Newest first: everything has the number of its place, from one. -/
def Numbered (num : χ → Nat) : List χ → Prop
  | [] => True
  | x :: earlier => num x = earlier.length + 1 ∧ Numbered num earlier

theorem Numbered.le {l : List χ} (h : Numbered num l) (hx : x ∈ l) : num x ≤ l.length := by
  induction l with
  | nil => cases hx
  | cons y earlier ih =>
    rcases List.mem_cons.mp hx with rfl | hx
    · exact Nat.le_of_eq h.1
    · exact Nat.le_succ_of_le (ih h.2 hx)

/-- The oldest ones are numbered as well. -/
theorem Numbered.suffix {l a : List χ} (h : Numbered num l) (ha : a <:+ l) : Numbered num a := by
  induction l with
  | nil =>
    obtain rfl := List.suffix_nil.mp ha
    exact h
  | cons y earlier ih =>
    rcases List.suffix_cons_iff.mp ha with rfl | ha
    · exact h
    · exact ih h.2 ha

/-- **The next one is the one with the next number.** -/
theorem Numbered.next {l a : List χ} (h : Numbered num l) (ha : a <:+ l) (hx : x ∈ l)
    (hnum : num x = a.length + 1) : x :: a <:+ l := by
  induction l with
  | nil => cases hx
  | cons y earlier ih =>
    rcases List.mem_cons.mp hx with rfl | hx
    · -- it is the newest, so what comes before it is all of the rest
      have hlen : a.length = earlier.length := by
        have := h.1
        omega
      rcases List.suffix_cons_iff.mp ha with rfl | ha
      · simp at hlen
      · have hall := ha.eq_of_length hlen
        subst hall
        exact List.suffix_refl _
    · have hle := h.2.le hx
      rcases List.suffix_cons_iff.mp ha with rfl | ha
      · simp only [List.length_cons] at hnum
        omega
      · exact (ih h.2 ha hx).trans (List.suffix_cons y earlier)

end Nexum.Lib
