import Mathlib.Data.List.Nodup
import Mathlib.Data.List.Pairwise

/-!
# Tables with a key

A database table that is read as a whole is the list of its rows. Writing a row under a key means
inserting it or, **where the key is taken, changing the row that holds it**; the rows of such a
table stay pairwise apart in whatever sense implies that their keys differ.
-/

namespace Nexum.Lib

variable {α : Type}

/-- The only row that is asked for is the one that is found. -/
theorem find?_eq_some_of_unique {p : α → Bool} {rows : List α} {r : α} (hmem : r ∈ rows)
    (hp : p r = true) (hone : ∀ r' ∈ rows, p r' = true → r' = r) : rows.find? p = some r := by
  cases hfind : rows.find? p with
  | none => exact absurd hp (List.find?_eq_none.mp hfind r hmem)
  | some r' => rw [hone r' (List.mem_of_find?_eq_some hfind) (List.find?_some hfind)]

/-- `INSERT new ON CONFLICT DO UPDATE`: the rows that clash with the new one are merged. -/
def upsert (clashes : α → Bool) (merge : α → α) (new : α) (rows : List α) : List α :=
  if rows.any clashes then rows.map fun r => if clashes r then merge r else r
  else rows ++ [new]

section
variable {clashes : α → Bool} {new : α} {rows : List α}

/-- Where the new row replaces the old one, a row of the table is the new one or an old one that
    did not clash. -/
theorem mem_upsert {r : α} (h : r ∈ upsert clashes (fun _ => new) new rows) :
    r = new ∨ r ∈ rows ∧ clashes r = false := by
  unfold upsert at h
  split at h
  · obtain ⟨old, hold, rfl⟩ := List.mem_map.mp h
    by_cases hc : clashes old = true
    · left
      rw [if_pos hc]
    · right
      rw [if_neg hc]
      exact ⟨hold, by simpa using hc⟩
  · rename_i hnone
    rcases List.mem_append.mp h with hold | hnew
    · right
      refine ⟨hold, ?_⟩
      simp only [List.any_eq_true, not_exists, not_and, Bool.not_eq_true] at hnone
      exact hnone r hold
    · left
      exact List.mem_singleton.mp hnew

/-- Asked for what clashes with it, the table answers with the new row. -/
theorem find?_upsert (hnew : clashes new = true) :
    (upsert clashes (fun _ => new) new rows).find? clashes = some new := by
  refine find?_eq_some_of_unique ?_ hnew ?_
  · unfold upsert
    split
    · rename_i hany
      obtain ⟨r, hr, hc⟩ := List.any_eq_true.mp hany
      exact List.mem_map.mpr ⟨r, hr, if_pos hc⟩
    · exact List.mem_append_right _ List.mem_cons_self
  · intro r hr hc
    refine (mem_upsert hr).resolve_right ?_
    intro hold
    rw [hc] at hold
    exact absurd hold.2 (by decide)

/-- Asked for something else, it answers as before. -/
theorem find?_upsert_of_ne {p : α → Bool} (hnew : p new = false)
    (hother : ∀ r, clashes r = true → p r = false) :
    (upsert clashes (fun _ => new) new rows).find? p = rows.find? p := by
  unfold upsert
  split
  · clear * - hnew hother
    induction rows with
    | nil => rfl
    | cons r rows ih =>
      rw [List.map_cons]
      by_cases hc : clashes r = true
      · rw [if_pos hc, List.find?_cons_of_neg (by simp [hnew]),
          List.find?_cons_of_neg (by simp [hother r hc]), ih]
      · rw [if_neg hc]
        by_cases hp : p r = true
        · rw [List.find?_cons_of_pos hp, List.find?_cons_of_pos hp]
        · rw [List.find?_cons_of_neg hp, List.find?_cons_of_neg hp, ih]
  · rw [List.find?_append, List.find?_cons_of_neg (by simp [hnew])]
    simp

/-- Rows that are apart stay apart when the new row is apart from every row it does not replace,
    and it replaces one at most. -/
theorem pairwise_upsert {R : α → α → Prop} (hsymm : ∀ r r', R r r' → R r' r)
    (hone : ∀ r r', clashes r = true → clashes r' = true → ¬ R r r') (h : rows.Pairwise R)
    (hnew : ∀ r ∈ rows, clashes r = false → R r new) :
    (upsert clashes (fun _ => new) new rows).Pairwise R := by
  unfold upsert
  split
  · refine List.pairwise_map.mpr (h.imp_of_mem ?_)
    intro r r' hr hr' hrr
    by_cases hc : clashes r = true
    · have hc' : clashes r' = false := by
        rw [← Bool.not_eq_true]
        intro hc'
        exact hone r r' hc hc' hrr
      rw [if_pos hc, hc']
      exact hsymm _ _ (hnew r' hr' hc')
    · rw [if_neg hc]
      split
      · exact hnew r hr (by simpa using hc)
      · exact hrr
  · rename_i hnone
    simp only [List.any_eq_true, not_exists, not_and, Bool.not_eq_true] at hnone
    refine List.pairwise_append.mpr ⟨h, List.pairwise_singleton .., ?_⟩
    intro r hr r' hr'
    obtain rfl := List.mem_singleton.mp hr'
    exact hnew r hr (hnone r hr)

end

/-- A row with a new key. -/
theorem nodup_map_snoc {κ : Type} {key : α → κ} {rows : List α} {new : α}
    (hkeys : (rows.map key).Nodup) (hnew : ∀ r ∈ rows, key r ≠ key new) :
    ((rows ++ [new]).map key).Nodup := by
  rw [List.map_append, List.nodup_append]
  refine ⟨hkeys, List.nodup_singleton _, ?_⟩
  intro k hk k' hk' heq
  obtain ⟨r, hr, rfl⟩ := List.mem_map.mp hk
  rw [List.map_singleton, List.mem_singleton] at hk'
  exact hnew r hr (heq.trans hk')

/-! ## Replacing a row -/

/-- `UPDATE … SET … WHERE …` where one row is meant. -/
def replaceRow (isRow : α → Bool) (new : α) (rows : List α) : List α :=
  rows.map fun r => if isRow r then new else r

section
variable {isRow : α → Bool} {new row r : α} {rows : List α}

/-- What the new row has in common with the old one, the table keeps. -/
theorem map_replaceRow {β : Type} {g : α → β} (h : ∀ r ∈ rows, isRow r = true → g new = g r) :
    (replaceRow isRow new rows).map g = rows.map g := by
  rw [replaceRow, List.map_map]
  refine List.map_congr_left ?_
  intro r hr
  show g (if isRow r then new else r) = g r
  split
  · rename_i hrow
    exact h r hr hrow
  · rfl

theorem mem_replaceRow (h : r ∈ replaceRow isRow new rows) :
    r = new ∨ r ∈ rows ∧ isRow r = false := by
  obtain ⟨old, hold, rfl⟩ := List.mem_map.mp h
  cases hc : isRow old with
  | true => exact .inl rfl
  | false => exact .inr ⟨hold, hc⟩

theorem mem_replaceRow_of_ne (h : r ∈ rows) (hne : isRow r = false) :
    r ∈ replaceRow isRow new rows :=
  List.mem_map.mpr ⟨r, h, by rw [hne]; rfl⟩

/-- **Counting after a replacement**: the new row counts instead of the old one. -/
theorem countP_replaceRow (p : α → Bool) (new : α) (hnodup : rows.Nodup) (hmem : row ∈ rows)
    (hone : ∀ r ∈ rows, isRow r = true ↔ r = row) :
    (replaceRow isRow new rows).countP p + (if p row then 1 else 0)
      = rows.countP p + if p new then 1 else 0 := by
  induction rows with
  | nil => cases hmem
  | cons r rows ih =>
    obtain ⟨hr, hnodup⟩ := List.nodup_cons.mp hnodup
    have htail : ∀ r' ∈ rows, isRow r' = true ↔ r' = row :=
      fun r' hr' => hone r' (List.mem_cons_of_mem r hr')
    show (List.countP p ((if isRow r then new else r) :: replaceRow isRow new rows)) + _ = _
    rw [List.countP_cons, List.countP_cons]
    by_cases hrow : r = row
    · -- nothing is replaced behind the row
      have hsame : replaceRow isRow new rows = rows := by
        unfold replaceRow
        conv_rhs => rw [← List.map_id rows]
        refine List.map_congr_left ?_
        intro r' hr'
        have hne : ¬ isRow r' = true := by
          rw [htail r' hr']
          intro heq
          exact hr (hrow ▸ heq ▸ hr')
        simp [hne]
      rw [if_pos ((hone r List.mem_cons_self).mpr hrow), hsame, hrow]
      omega
    · have hne : ¬ isRow r = true := by
        rw [hone r List.mem_cons_self]
        exact hrow
      have ih := ih hnodup ((List.mem_cons.mp hmem).resolve_left (Ne.symm hrow)) htail
      rw [if_neg hne]
      omega

end

/-! ## Tables of values -/

section
variable {κ β : Type} [BEq κ] [LawfulBEq κ] {table : List (κ × β)}

theorem mem_of_lookup {k : κ} {b : β} (h : table.lookup k = some b) : (k, b) ∈ table := by
  induction table with
  | nil => cases h
  | cons x table ih =>
    rw [List.lookup_cons] at h
    split at h
    · rename_i heq
      cases h
      rw [beq_iff_eq.mp heq]
      exact List.mem_cons_self
    · exact List.mem_cons_of_mem x (ih h)

/-- **A table of prescribed values keeps a function injective**, when the values differ from each
    other and from all that the function has. -/
theorem lookup_getD_injective {f : κ → β} (hf : Function.Injective f)
    (happart : ∀ x ∈ table, ∀ k, x.2 ≠ f k) (hpair : table.Pairwise fun x y => x.2 ≠ y.2) :
    Function.Injective fun k => (table.lookup k).getD (f k) := by
  have hshared : ∀ {k k' b}, (k, b) ∈ table → (k', b) ∈ table → k = k' := by
    intro k k' b hk hk'
    by_contra hne
    have hsym : Std.Symm fun x y : κ × β => x.2 ≠ y.2 := ⟨fun _ _ h => h.symm⟩
    exact hpair.forall hk hk' (fun heq => hne (congrArg Prod.fst heq)) rfl
  intro k k' hkk
  dsimp only at hkk
  cases hk : table.lookup k with
  | none =>
    cases hk' : table.lookup k' with
    | none =>
      rw [hk, hk'] at hkk
      exact hf hkk
    | some b =>
      rw [hk, hk'] at hkk
      exact absurd hkk.symm (happart _ (mem_of_lookup hk') k)
  | some b =>
    cases hk' : table.lookup k' with
    | none =>
      rw [hk, hk'] at hkk
      exact absurd hkk (happart _ (mem_of_lookup hk) k')
    | some b' =>
      rw [hk, hk'] at hkk
      have hbb : b = b' := hkk
      subst hbb
      exact hshared (mem_of_lookup hk) (mem_of_lookup hk')

end

/-! ## Tables with keys -/

section Lookup

variable {κ β : Type} [DecidableEq κ] {table : List (κ × β)}

theorem lookup_eq_find (k : κ) : table.lookup k = (table.find? (·.1 = k)).map Prod.snd := by
  induction table with
  | nil => rfl
  | cons x table ih =>
    by_cases hk : x.1 = k
    · have hbeq : (k == x.1) = true := beq_iff_eq.mpr hk.symm
      rw [List.lookup_cons, hbeq, List.find?_cons_of_pos (by simp [hk])]
      rfl
    · have hbeq : (k == x.1) = false := beq_eq_false_iff_ne.mpr (Ne.symm hk)
      rw [List.lookup_cons, hbeq, List.find?_cons_of_neg (by simpa using hk)]
      exact ih

theorem lookup_upsert (key k : κ) (b : β) :
    (upsert (·.1 = key) (fun _ => (key, b)) (key, b) table).lookup k
      = if k = key then some b else table.lookup k := by
  rw [lookup_eq_find, lookup_eq_find]
  by_cases hk : k = key
  · subst hk
    rw [if_pos rfl, find?_upsert (by simp)]
    rfl
  · rw [if_neg hk, find?_upsert_of_ne (by simpa using Ne.symm hk)]
    intro r hr
    rw [of_decide_eq_true hr]
    exact decide_eq_false (Ne.symm hk)

theorem lookup_filter (hkeys : (table.map Prod.fst).Nodup) (p : κ × β → Bool) (k : κ) :
    (table.filter p).lookup k = (table.lookup k).filter fun b => p (k, b) := by
  rw [lookup_eq_find, lookup_eq_find]
  induction table with
  | nil => rfl
  | cons x table ih =>
    obtain ⟨hfirst, hrest⟩ := List.nodup_cons.mp hkeys
    by_cases hk : x.1 = k
    · subst hk
      have hnone : (table.filter p).find? (·.1 = x.1) = none := by
        refine List.find?_eq_none.mpr fun y hy heq => hfirst ?_
        exact List.mem_map.mpr ⟨y, List.mem_of_mem_filter hy, of_decide_eq_true heq⟩
      by_cases hp : p x = true
      · rw [List.filter_cons_of_pos hp, List.find?_cons_of_pos (by simp),
          List.find?_cons_of_pos (by simp), Option.map_some, Option.filter_some, if_pos hp]
      · rw [List.filter_cons_of_neg hp, hnone, List.find?_cons_of_pos (by simp), Option.map_some,
          Option.filter_some, if_neg hp]
        rfl
    · rw [List.find?_cons_of_neg (by simpa using hk), ← ih hrest]
      by_cases hp : p x = true
      · rw [List.filter_cons_of_pos hp, List.find?_cons_of_neg (by simpa using hk)]
      · rw [List.filter_cons_of_neg hp]

end Lookup

end Nexum.Lib
