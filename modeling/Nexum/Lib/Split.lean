import Mathlib.Data.List.Infix
import Mathlib.Data.List.TakeWhile

/-!
# Pieces between separators

Two texts that are joined with a separator can be taken apart in more than one way as soon as the
separator occurs in them (`append_sep_eq_iff`). And what holds no separator itself lies in one of
the pieces between them (`infix_iff_pieces`). What is trimmed off a text can be put back
(`trimMatches_spec`).
-/

namespace Nexum.Lib

variable {α : Type}

/-- **Two ways to join one text**: they are the same, or one goes on past the other's separator. -/
theorem append_sep_eq_iff {sep : α} {a a' b b' : List α} :
    a ++ sep :: b = a' ++ sep :: b' ↔ (a = a' ∧ b = b')
      ∨ (∃ rest, a' = a ++ sep :: rest ∧ b = rest ++ sep :: b')
      ∨ ∃ rest, a = a' ++ sep :: rest ∧ b' = rest ++ sep :: b := by
  constructor
  · intro h
    rcases List.append_eq_append_iff.mp h with ⟨more, ha, hb⟩ | ⟨more, ha, hb⟩
    · cases more with
      | nil =>
        cases hb
        exact .inl ⟨by simpa using ha.symm, rfl⟩
      | cons x rest =>
        cases hb
        exact .inr (.inl ⟨rest, ha, rfl⟩)
    · cases more with
      | nil =>
        cases hb
        exact .inl ⟨by simpa using ha, rfl⟩
      | cons x rest =>
        cases hb
        exact .inr (.inr ⟨rest, ha, rfl⟩)
  · rintro (⟨rfl, rfl⟩ | ⟨rest, rfl, rfl⟩ | ⟨rest, rfl, rfl⟩)
    · rfl
    · simp
    · simp

/-- Both ends stripped of what meets the condition. -/
def trimMatches (p : α → Bool) (cs : List α) : List α :=
  ((cs.dropWhile p).reverse.dropWhile p).reverse

theorem dropWhile_front {p : α → Bool} {l m r : List α} (hl : ∀ c ∈ l, p c = true)
    (hne : m ≠ []) (hm : ∀ c, m.head? = some c → p c = false) :
    (l ++ (m ++ r)).dropWhile p = m ++ r := by
  rw [List.dropWhile_append_of_pos hl]
  obtain ⟨x, m, rfl⟩ := List.exists_cons_of_ne_nil hne
  exact List.dropWhile_cons_of_neg (by simp [hm x rfl])

theorem trimMatches_framed {p : α → Bool} {l m r : List α} (hl : ∀ c ∈ l, p c = true)
    (hr : ∀ c ∈ r, p c = true) (hne : m ≠ [])
    (hm : ∀ c, m.head? = some c ∨ m.getLast? = some c → p c = false) :
    trimMatches p (l ++ (m ++ r)) = m := by
  have hback : (r.reverse ++ (m.reverse ++ [])).dropWhile p = m.reverse ++ [] :=
    dropWhile_front (by simpa using hr) (by simpa using hne) fun c hc =>
      hm c (.inr (by rwa [List.head?_reverse] at hc))
  rw [List.append_nil] at hback
  rw [trimMatches, dropWhile_front hl hne fun c hc => hm c (.inl hc), List.reverse_append, hback,
    List.reverse_reverse]

theorem trimMatches_spec (p : α → Bool) (cs : List α) :
    ∃ l r, cs = l ++ (trimMatches p cs ++ r) ∧ (∀ c ∈ l, p c = true) ∧ ∀ c ∈ r, p c = true := by
  refine ⟨cs.takeWhile p, ((cs.dropWhile p).reverse.takeWhile p).reverse, ?_, ?_, ?_⟩
  · rw [trimMatches, ← List.reverse_append, List.takeWhile_append_dropWhile, List.reverse_reverse,
      List.takeWhile_append_dropWhile]
  · exact fun c hc => List.mem_takeWhile_imp hc
  · exact fun c hc => List.mem_takeWhile_imp (List.mem_reverse.mp hc)

/-- What is left begins and ends with something else. -/
theorem trimMatches_ends (p : α → Bool) (cs : List α) {c : α}
    (h : (trimMatches p cs).head? = some c ∨ (trimMatches p cs).getLast? = some c) :
    p c = false := by
  have hhead : ∀ {l : List α}, (l.dropWhile p).head? = some c → p c = false := by
    intro l hl
    have hnot := List.head?_dropWhile_not p l
    rwa [hl] at hnot
  rcases h with hfirst | hlast
  · obtain ⟨rest, hrest⟩ : trimMatches p cs <+: cs.dropWhile p := by
      have hsuffix := List.dropWhile_suffix p (l := (cs.dropWhile p).reverse)
      simpa [trimMatches] using List.reverse_prefix.mpr hsuffix
    apply hhead
    rw [← hrest, List.head?_append, hfirst, Option.some_or]
  · rw [trimMatches, List.getLast?_reverse] at hlast
    exact hhead hlast

theorem sep_not_mem_piece {sep : α → Bool} {cs p : List α} (h : p ∈ cs.splitOnP sep) :
    ∀ c ∈ p, sep c = false := by
  induction cs generalizing p with
  | nil =>
    simp only [List.splitOnP_nil, List.mem_singleton] at h
    rw [h]
    nofun
  | cons c cs ih =>
    obtain ⟨q, qs, hq⟩ := List.exists_cons_of_ne_nil (List.splitOnP_ne_nil sep cs)
    rw [List.splitOnP_cons_eq_if_modifyHead, hq] at h
    rw [hq] at ih
    split at h
    · rcases List.mem_cons.mp h with rfl | hrest
      · nofun
      · exact ih hrest
    · rename_i hc
      rw [List.modifyHead_cons] at h
      rcases List.mem_cons.mp h with rfl | hrest
      · intro x hx
        rcases List.mem_cons.mp hx with rfl | hx
        · simpa using hc
        · exact ih List.mem_cons_self x hx
      · exact ih (List.mem_cons_of_mem q hrest)

/-- What holds no separator and begins the text begins the first piece. -/
theorem begins_iff_piece {sep : α → Bool} {t cs p : List α} {ps : List (List α)}
    (ht : ∀ c ∈ t, sep c = false) (hp : cs.splitOnP sep = p :: ps) : t <+: cs ↔ t <+: p := by
  induction cs generalizing t p ps with
  | nil =>
    cases hp
    rfl
  | cons c cs ih =>
    rw [List.splitOnP_cons_eq_if_modifyHead] at hp
    cases t with
    | nil => simp
    | cons x t =>
      have hx := ht x List.mem_cons_self
      by_cases hc : sep c = true
      · rw [if_pos hc] at hp
        cases hp
        refine iff_of_false (fun hbegins => ?_) (by simp)
        obtain ⟨rfl, -⟩ := List.cons_prefix_cons.mp hbegins
        simp [hc] at hx
      · obtain ⟨q, qs, hq⟩ := List.exists_cons_of_ne_nil (List.splitOnP_ne_nil sep cs)
        rw [if_neg hc, hq] at hp
        cases hp
        rw [List.cons_prefix_cons, List.cons_prefix_cons,
          ih (fun y hy => ht y (List.mem_cons_of_mem x hy)) hq]

/-- **What holds no separator lies in one piece.** -/
theorem infix_iff_pieces (sep : α → Bool) {t : List α} (hne : t ≠ [])
    (ht : ∀ c ∈ t, sep c = false) (cs : List α) :
    t <:+: cs ↔ ∃ p ∈ cs.splitOnP sep, t <:+: p := by
  induction cs with
  | nil => simp
  | cons c cs ih =>
    obtain ⟨q, qs, hq⟩ := List.exists_cons_of_ne_nil (List.splitOnP_ne_nil sep cs)
    have hpieces : (c :: cs).splitOnP sep = if sep c then [] :: cs.splitOnP sep
        else (cs.splitOnP sep).modifyHead (List.cons c) := List.splitOnP_cons_eq_if_modifyHead ..
    rw [List.infix_cons_iff, ih, hq]
    by_cases hc : sep c = true
    · rw [if_pos hc] at hpieces
      rw [begins_iff_piece ht hpieces, hpieces, hq]
      simp [hne]
    · rw [if_neg hc, hq] at hpieces
      rw [begins_iff_piece ht hpieces, hpieces]
      simp [List.infix_cons_iff, or_assoc]

/-- The same for pieces that are joined with a separator. -/
theorem infix_intercalate [DecidableEq α] {x : α} {t : List α} (hne : t ≠ []) (ht : x ∉ t)
    {ps : List (List α)} (hps : ∀ p ∈ ps, x ∉ p) :
    t <:+: [x].intercalate ps ↔ ∃ p ∈ ps, t <:+: p := by
  cases ps with
  | nil => simp [hne]
  | cons p ps =>
    have hsplit := List.splitOn_intercalate x hps (List.cons_ne_nil p ps)
    rw [List.splitOn] at hsplit
    rw [infix_iff_pieces (· == x) hne, hsplit]
    intro c hc
    rw [beq_eq_false_iff_ne]
    intro heq
    exact ht (heq ▸ hc)

end Nexum.Lib
