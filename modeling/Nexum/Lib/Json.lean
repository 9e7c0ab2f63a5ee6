import Mathlib.Data.List.Sort
import Mathlib.Data.String.Basic
import Nexum.Lib.Text

/-!
# JSON values and their canonical form

A canonical form puts the members of every object in the order of their keys, at every depth. What
is needed of it is that **it forgets nothing but that order**: two records with the same keys have
one canonical form exactly if their members do, one by one (`canonicalizeJson_record`).

Lists, too, are made canonical by sorting where their order means nothing; two lists are sorted to
the same list exactly if they are permutations of each other (`insertionSort_eq_iff`).
-/

namespace Nexum.Lib

/-! ## 1. Sorting -/

section
variable {α : Type} (r : α → α → Prop) [DecidableRel r] [Std.Total r] [IsTrans α r] [Std.Antisymm r]

/-- **Sorting forgets the order, and nothing else.** -/
theorem insertionSort_eq_iff {l l' : List α} :
    l.insertionSort r = l'.insertionSort r ↔ l.Perm l' := by
  constructor
  · intro h
    have hl := List.perm_insertionSort r l
    rw [h] at hl
    exact hl.symm.trans (List.perm_insertionSort r l')
  · intro h
    have hperm := ((List.perm_insertionSort r l).trans h).trans (List.perm_insertionSort r l').symm
    refine List.Perm.eq_of_pairwise ?_ (List.pairwise_insertionSort r l)
      (List.pairwise_insertionSort r l') hperm
    intro a b _ _ hab hba
    exact antisymm hab hba

end

/-! ## 2. Values -/

inductive JsonValue
  | null
  | bool (b : Bool)
  | num (n : Nat)
  | str (s : String)
  | arr (items : List JsonValue)
  | obj (members : List (String × JsonValue))

/-- The members in the order of their keys. -/
def sortMembers (members : List (String × JsonValue)) : List (String × JsonValue) :=
  ((members.map Prod.fst).insertionSort (· ≤ ·)).filterMap fun key =>
    (members.lookup key).map (key, ·)

mutual

/-- Every object with its members in order. -/
def canonicalizeJson : JsonValue → JsonValue
  | .obj members => .obj (sortMembers (canonicalizeMembers members))
  | .arr items => .arr (canonicalizeItems items)
  | .null => .null
  | .bool b => .bool b
  | .num n => .num n
  | .str s => .str s

def canonicalizeItems : List JsonValue → List JsonValue
  | [] => []
  | v :: rest => canonicalizeJson v :: canonicalizeItems rest

def canonicalizeMembers : List (String × JsonValue) → List (String × JsonValue)
  | [] => []
  | member :: rest => canonicalizeMember member :: canonicalizeMembers rest

def canonicalizeMember : String × JsonValue → String × JsonValue
  | (key, v) => (key, canonicalizeJson v)

end

theorem canonicalizeItems_eq (items : List JsonValue) :
    canonicalizeItems items = items.map canonicalizeJson := by
  induction items with
  | nil => rfl
  | cons v rest ih => rw [canonicalizeItems, ih, List.map_cons]

theorem canonicalizeMembers_eq (members : List (String × JsonValue)) :
    canonicalizeMembers members = members.map (Prod.map id canonicalizeJson) := by
  induction members with
  | nil => rfl
  | cons member rest ih =>
    obtain ⟨key, v⟩ := member
    rw [canonicalizeMembers, ih, List.map_cons, canonicalizeMember]
    rfl

/-! ## 3. What the canonical form keeps -/

theorem lookup_filterMap_keys {keys : List String} {members : List (String × JsonValue)}
    {key : String} (h : key ∈ keys) :
    (keys.filterMap fun key => (members.lookup key).map (key, ·)).lookup key
      = members.lookup key := by
  induction keys with
  | nil => cases h
  | cons k keys ih =>
    by_cases hk : key = k
    · subst hk
      cases hv : members.lookup key with
      | some v => simp [hv]
      | none =>
        -- a key without a member gives none later either
        have hnone : ∀ keys : List String,
            (keys.filterMap fun key => (members.lookup key).map (key, ·)).lookup key = none := by
          intro keys
          rw [List.lookup_eq_none_iff]
          intro p hp
          obtain ⟨k, -, hk⟩ := List.mem_filterMap.mp hp
          obtain ⟨v, hv', rfl⟩ := Option.map_eq_some_iff.mp hk
          rw [bne_iff_ne]
          rintro rfl
          rw [hv] at hv'
          cases hv'
        exact hnone _
    · have hrest := ih ((List.mem_cons.mp h).resolve_left hk)
      have hne : (key == k) = false := beq_eq_false_iff_ne.mpr hk
      cases hv : members.lookup k with
      | some v => simpa [hv, List.lookup_cons, hne] using hrest
      | none => simpa [hv] using hrest

/-- **Sorting leaves every member under its key.** -/
theorem lookup_sortMembers {members : List (String × JsonValue)} {key : String}
    (h : key ∈ members.map Prod.fst) : (sortMembers members).lookup key = members.lookup key :=
  lookup_filterMap_keys ((List.perm_insertionSort _ _).mem_iff.mpr h)

/-- A record: the values under the keys, one by one. -/
def jsonRecord (keys : List String) (values : List JsonValue) : JsonValue :=
  .obj (keys.zip values)

theorem lookup_zip_inj {α : Type} {keys : List String} (hkeys : keys.Nodup) {vs ws : List α}
    (hvs : vs.length = keys.length) (hws : ws.length = keys.length)
    (h : ∀ key ∈ keys, (keys.zip vs).lookup key = (keys.zip ws).lookup key) : vs = ws := by
  induction keys generalizing vs ws with
  | nil =>
    rw [List.length_eq_zero_iff.mp hvs, List.length_eq_zero_iff.mp hws]
  | cons k keys ih =>
    obtain ⟨v, vs, rfl⟩ := List.exists_cons_of_length_eq_add_one hvs
    obtain ⟨w, ws, rfl⟩ := List.exists_cons_of_length_eq_add_one hws
    obtain ⟨hk, hkeys⟩ := List.nodup_cons.mp hkeys
    have hhead := h k List.mem_cons_self
    simp only [List.zip_cons_cons, List.lookup_cons, beq_self_eq_true, Option.some.injEq] at hhead
    have htail : vs = ws := by
      refine ih hkeys (by simpa using hvs) (by simpa using hws) ?_
      intro key hmem
      have hne : (key == k) = false := beq_eq_false_iff_ne.mpr (fun heq => hk (heq ▸ hmem))
      have hkey := h key (List.mem_cons_of_mem _ hmem)
      simpa only [List.zip_cons_cons, List.lookup_cons, hne] using hkey
    rw [hhead, htail]

/-- **Two records with the same keys have the same canonical form exactly if their values do.** -/
theorem canonicalizeJson_record {keys : List String} (hkeys : keys.Nodup) {vs ws : List JsonValue}
    (hvs : vs.length = keys.length) (hws : ws.length = keys.length) :
    canonicalizeJson (jsonRecord keys vs) = canonicalizeJson (jsonRecord keys ws)
      ↔ vs.map canonicalizeJson = ws.map canonicalizeJson := by
  have hform : ∀ us : List JsonValue, canonicalizeJson (jsonRecord keys us)
      = .obj (sortMembers (keys.zip (us.map canonicalizeJson))) := by
    intro us
    rw [jsonRecord, canonicalizeJson, canonicalizeMembers_eq, List.zip_map_right]
  rw [hform, hform, JsonValue.obj.injEq]
  constructor
  · intro h
    refine lookup_zip_inj hkeys (by simpa using hvs) (by simpa using hws) ?_
    intro key hmem
    have hfst : ∀ us : List JsonValue, us.length = keys.length →
        key ∈ (keys.zip (us.map canonicalizeJson)).map Prod.fst := by
      intro us hus
      rwa [List.map_fst_zip (by simp [hus])]
    rw [← lookup_sortMembers (hfst vs hvs), ← lookup_sortMembers (hfst ws hws), h]
  · intro h
    rw [h]

/-! ## 4. Text -/

/-- What `serde_json` writes for a character inside a string. -/
def jsonEscape (c : Char) : String :=
  match c.toNat with
  | 0x22 => "\\\""
  | 0x5C => "\\\\"
  | 0x08 => "\\b"
  | 0x09 => "\\t"
  | 0x0A => "\\n"
  | 0x0C => "\\f"
  | 0x0D => "\\r"
  | n =>
    if n < 0x20 then
      "\\u00" ++ String.ofList [Nat.digitChar (n / 16), Nat.digitChar (n % 16)]
    else String.ofList [c]

def jsonString (s : String) : String :=
  "\"" ++ String.join ((chars s).map jsonEscape) ++ "\""

def jsonField (name value : String) : String :=
  "\"" ++ name ++ "\":" ++ value

end Nexum.Lib
