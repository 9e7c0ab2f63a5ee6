import Nexum.Cli.Url
import Nexum.Lib.Split

/-!
# Keys for confirmations

`build_legacy_confirm_idempotency_key_or_die` joins a prefix, the escrow, a nick, what is confirmed
and a transaction with colons, and the server answers a key it knows with what it answered before.
The last two parts and the escrow's number hold no colon. **The prefix may, and so may the nick**,
and then one key stands for two operations (`key_for_two_escrows`). Also no prefix is the same as
the default one, and blanks around a transaction's name are dropped. There is no other way
(`key_identifies_iff`).
-/

namespace Nexum.Cli.Confirm

open Nexum.Lib Nexum.Lib.Check

abbrev Text := List UInt8

def dupTrimmedCopy (s : Text) : Text := (s.dropWhile Url.isSpace).rdropWhile Url.isSpace

def isKeyChar (c : UInt8) : Bool :=
  (97 ≤ c && c ≤ 122) || (65 ≤ c && c ≤ 90) || (48 ≤ c && c ≤ 57) || c = 45 || c = 95 || c = 46
    || c = 58

def isHexChar (c : UInt8) : Bool :=
  (48 ≤ c && c ≤ 57) || (97 ≤ c && c ≤ 102) || (65 ≤ c && c ≤ 70)

/-- Nothing if there is no key. -/
def normalizeIdempotencyKey (rawKey : Text) (label : String) : Except String (Option Text) := do
  let key := dupTrimmedCopy rawKey
  if key = [] then pure none
  else
    failIf (key.length > 128) s!"{label}: --idempotency-key too long (max 128 chars)"
    failIf (¬ key.all isKeyChar)
      s!"{label}: --idempotency-key has invalid chars; allowed [A-Za-z0-9-_.:]"
    pure (some key)

def validateTxidHex (txid : Text) (label : String) : Except String Unit := do
  failIf (txid = []) s!"{label} requires non-empty --txid"
  failIf (txid.length ≠ 64) s!"{label}: --txid must be 64 hex chars"
  failIf (¬ txid.all isHexChar) s!"{label}: --txid must be 64 hex chars"

inductive Scope
  | release | refund
  deriving DecidableEq

def Scope.text : Scope → Text
  | .release => utf8 "release"
  | .refund => utf8 "refund"

/-- The arguments of a call; each string may be missing. -/
structure Call where
  label : String
  prefixArg : Option CString
  escrowId : UInt64
  nick : Option CString
  scope : Scope
  txid : Option CString

variable (c d : Call)

def Call.prefixText : Text := (c.prefixArg.map (·.data)).getD []
def Call.nickText : Text := (c.nick.map (·.data)).getD []
def Call.txidText : Text := (c.txid.map (·.data)).getD []

def Call.effectivePrefix : Text :=
  if c.prefixText = [] then utf8 "stagenet-live" else c.prefixText

/-- `%llu`. -/
def decimalText (n : UInt64) : Text := utf8 (toString n.toNat)

def joined (lead : Text) (escrowId : UInt64) (nick : Text) (scope : Scope) (txid : Text) : Text :=
  (lead ++ 58 :: (decimalText escrowId ++ 58 :: nick)) ++ 58 :: scope.text ++ 58 :: txid

def Call.buildLegacyConfirmIdempotencyKey : Except String Text := do
  let lead ← normalizeIdempotencyKey c.effectivePrefix c.label
  let nick := c.nick.map fun s => dupTrimmedCopy s.data
  let txid := c.txid.map fun s => dupTrimmedCopy s.data
  match lead, nick, txid with
  | some lead, some nick, some txid =>
    failIf (nick = [] ∨ txid = []) s!"{c.label} requires non-empty --nick and --txid"
    validateTxidHex txid c.label
    pure (joined lead c.escrowId nick c.scope txid)
  | _, _, _ => throw "oom"

/-! ## What a key stands for -/

/-- The operations are the same. -/
structure Same : Prop where
  leads : dupTrimmedCopy c.prefixText = dupTrimmedCopy d.prefixText
  escrowId : c.escrowId = d.escrowId
  nick : dupTrimmedCopy c.nickText = dupTrimmedCopy d.nickText
  scope : c.scope = d.scope
  txid : c.txidText = d.txidText

/-- The prefix of `d` goes on where that of `c` ends, and takes up the escrow of `c`. -/
def Overlaps : Prop :=
  ∃ rest, dupTrimmedCopy d.effectivePrefix = dupTrimmedCopy c.effectivePrefix ++ 58 :: rest
    ∧ decimalText c.escrowId ++ 58 :: dupTrimmedCopy c.nickText
      = rest ++ 58 :: (decimalText d.escrowId ++ 58 :: dupTrimmedCopy d.nickText)

/-- Everything is the same up to the default prefix and blanks around the transaction. -/
structure Alike : Prop where
  leads : dupTrimmedCopy c.effectivePrefix = dupTrimmedCopy d.effectivePrefix
  escrowId : c.escrowId = d.escrowId
  nick : dupTrimmedCopy c.nickText = dupTrimmedCopy d.nickText

/-- No prefix in `c`, or an empty one, and the default one in `d`. -/
def Defaulted : Prop :=
  c.prefixText = [] ∧ dupTrimmedCopy d.prefixText = utf8 "stagenet-live"

/-- One key in spite of different arguments. Where the parts are read alike, the difference is in
    the blanks around the transaction or in the default prefix; otherwise a prefix overlaps. -/
def Confused : Prop :=
  c.scope = d.scope ∧ dupTrimmedCopy c.txidText = dupTrimmedCopy d.txidText
    ∧ ((Alike c d ∧ (c.txidText ≠ d.txidText ∨ Defaulted c d ∨ Defaulted d c))
      ∨ Overlaps c d ∨ Overlaps d c)

variable {c d}

theorem utf8EncodeChar_digit {x : Char} (h : x.toNat ≤ 57) :
    String.utf8EncodeChar x = [UInt8.ofNat x.toNat] := by
  have hx : x.val.toNat ≤ 127 := Nat.le_trans h (by decide)
  unfold String.utf8EncodeChar
  rw [if_pos hx]
  rfl

theorem colon_notMem_decimalText (n : UInt64) : (58 : UInt8) ∉ decimalText n := by
  intro h
  rw [decimalText, utf8_eq, List.mem_flatMap] at h
  obtain ⟨x, hx, hmem⟩ := h
  obtain ⟨hlow, hhigh⟩ := digit_of_mem_toString hx
  rw [utf8EncodeChar_digit hhigh, List.mem_singleton] at hmem
  have hnat := congrArg UInt8.toNat hmem
  simp only [UInt8.toNat_ofNat'] at hnat
  have h58 : (58 : UInt8).toNat = 58 := rfl
  omega

theorem decimalText_injective : Function.Injective decimalText := by
  intro m n h
  have hrepr : Nat.repr m.toNat = Nat.repr n.toNat := utf8_injective h
  rw [Nat.repr_eq_ofList_toDigits, Nat.repr_eq_ofList_toDigits] at hrepr
  have hdigits := String.ofList_injective hrepr
  refine UInt64.toNat_inj.mp ?_
  rw [← Nat.ofDigitChars_ten_toDigits (n := m.toNat), hdigits, Nat.ofDigitChars_ten_toDigits]

theorem Scope.text_inj {s t : Scope} (h : s.text = t.text) : s = t := by
  cases s <;> cases t <;> first | rfl | exact absurd h (by decide)

/-- What a call that returns has seen. -/
theorem key_eq_ok {k : Text} (h : c.buildLegacyConfirmIdempotencyKey = .ok k) :
    k = joined (dupTrimmedCopy c.effectivePrefix) c.escrowId (dupTrimmedCopy c.nickText) c.scope
        (dupTrimmedCopy c.txidText)
      ∧ (58 : UInt8) ∉ dupTrimmedCopy c.txidText := by
  simp only [Call.buildLegacyConfirmIdempotencyKey, normalizeIdempotencyKey, bind_eq_ok] at h
  obtain ⟨lead, hlead, h⟩ := h
  split at h
  · rename_i lead nick txid hnick htxid
    simp only [bind_eq_ok, failIf_eq_ok, exists_unit, pure_eq_ok, validateTxidHex] at h
    obtain ⟨-, ⟨-, -, hhex⟩, rfl⟩ := h
    have hl : dupTrimmedCopy c.effectivePrefix = lead := by
      split at hlead
      · cases hlead
      · simp only [bind_eq_ok, failIf_eq_ok, exists_unit, pure_eq_ok, Option.some.injEq] at hlead
        exact hlead.2.2
    obtain ⟨nick, hnick', rfl⟩ := Option.map_eq_some_iff.mp hnick
    obtain ⟨txid, htxid', rfl⟩ := Option.map_eq_some_iff.mp htxid
    simp only [Call.nickText, Call.txidText, hnick', htxid', Option.map_some, Option.getD_some, hl,
      true_and]
    intro hmem
    have hchar := List.all_eq_true.mp (not_not.mp hhex) 58 hmem
    exact absurd hchar (by decide)
  · cases h

theorem joined_eq_iff {lead lead' nick nick' txid txid' : Text} {e e' : UInt64} {s s' : Scope}
    (ht : (58 : UInt8) ∉ txid) (ht' : (58 : UInt8) ∉ txid') :
    joined lead e nick s txid = joined lead' e' nick' s' txid'
      ↔ lead ++ 58 :: (decimalText e ++ 58 :: nick) = lead' ++ 58 :: (decimalText e' ++ 58 :: nick')
        ∧ s = s' ∧ txid = txid' := by
  have hscope : ∀ s : Scope, (58 : UInt8) ∉ s.text := by
    intro s
    cases s <;> decide
  unfold joined
  rw [sep_append_inj ht ht', sep_append_inj (hscope s) (hscope s'), and_assoc]
  refine and_congr_right fun _ => and_congr_left fun _ => ⟨Scope.text_inj, ?_⟩
  rintro rfl
  rfl

/-- The only ways for two calls to get one key. -/
theorem key_eq_iff {k k' : Text} (hc : c.buildLegacyConfirmIdempotencyKey = .ok k)
    (hd : d.buildLegacyConfirmIdempotencyKey = .ok k') :
    k = k' ↔ c.scope = d.scope ∧ dupTrimmedCopy c.txidText = dupTrimmedCopy d.txidText
      ∧ (Alike c d ∨ Overlaps c d ∨ Overlaps d c) := by
  obtain ⟨rfl, hct⟩ := key_eq_ok hc
  obtain ⟨rfl, hdt⟩ := key_eq_ok hd
  rw [joined_eq_iff hct hdt, append_sep_eq_iff, and_comm, and_assoc]
  refine and_congr_right fun _ => and_congr_right fun _ => or_congr ?_ .rfl
  rw [append_sep_inj (colon_notMem_decimalText _) (colon_notMem_decimalText _)]
  constructor
  · rintro ⟨hlead, hescrow, hnick⟩
    exact ⟨hlead, decimalText_injective hescrow, hnick⟩
  · rintro ⟨hlead, hescrow, hnick⟩
    exact ⟨hlead, congrArg _ hescrow, hnick⟩

/-- A nick without a colon does not hold an escrow and a nick. -/
theorem not_overlaps (h : (58 : UInt8) ∉ dupTrimmedCopy c.nickText) : ¬ Overlaps c d := by
  rintro ⟨rest, -, heq⟩
  have hcount := congrArg (List.count 58) heq
  simp only [List.count_append, List.count_cons_self, List.count_eq_zero.mpr h,
    List.count_eq_zero.mpr (colon_notMem_decimalText _)] at hcount
  omega

/-- A text is not longer than itself, so an overlap needs another escrow or another nick. -/
theorem Same.not_overlaps (h : Same c d) : ¬ Overlaps c d := by
  rintro ⟨rest, -, heq⟩
  rw [h.escrowId, h.nick] at heq
  have hlength := congrArg List.length heq
  simp only [List.length_append, List.length_cons] at hlength
  omega

theorem Same.symm (h : Same c d) : Same d c :=
  ⟨h.leads.symm, h.escrowId.symm, h.nick.symm, h.scope.symm, h.txid.symm⟩

theorem Same.not_defaulted (h : Same c d) : ¬ Defaulted c d := by
  rintro ⟨hempty, hdefault⟩
  have hleads := h.leads
  rw [hempty, hdefault] at hleads
  exact absurd hleads (by decide)

/-- Prefixes that are read alike are alike, or one of them is the default. -/
theorem Alike.leads_or (h : Alike c d) :
    dupTrimmedCopy c.prefixText = dupTrimmedCopy d.prefixText ∨ Defaulted c d ∨ Defaulted d c := by
  have hleads := h.leads
  have hdefault : dupTrimmedCopy (utf8 "stagenet-live") = utf8 "stagenet-live" := by decide
  unfold Call.effectivePrefix at hleads
  by_cases hc : c.prefixText = [] <;> by_cases hd : d.prefixText = []
  · exact .inl (by rw [hc, hd])
  · rw [if_pos hc, if_neg hd, hdefault] at hleads
    exact .inr (.inl ⟨hc, hleads.symm⟩)
  · rw [if_neg hc, if_pos hd, hdefault] at hleads
    exact .inr (.inr ⟨hd, hleads⟩)
  · rw [if_neg hc, if_neg hd] at hleads
    exact .inl hleads

/-- **A key identifies its operation exactly if** it is not one of the confused ones. It does for
    nicks without a colon, given prefixes and names of transactions without blanks. -/
theorem key_identifies_iff {k k' : Text} (hc : c.buildLegacyConfirmIdempotencyKey = .ok k)
    (hd : d.buildLegacyConfirmIdempotencyKey = .ok k') :
    ((k = k' → Same c d) ↔ ¬ Confused c d)
    ∧ ((58 : UInt8) ∉ dupTrimmedCopy c.nickText → (58 : UInt8) ∉ dupTrimmedCopy d.nickText →
      c.prefixText ≠ [] → d.prefixText ≠ [] → dupTrimmedCopy c.txidText = c.txidText →
      dupTrimmedCopy d.txidText = d.txidText → k = k' → Same c d) := by
  have hiff := key_eq_iff hc hd
  have hmain : (k = k' → Same c d) ↔ ¬ Confused c d := by
    constructor
    · rintro hsame ⟨hscope, htxid, hways⟩
      have hsame := hsame (hiff.mpr ⟨hscope, htxid, hways.imp_left And.left⟩)
      rcases hways with ⟨-, hdiffer⟩ | hover | hover
      · rcases hdiffer with hdiffer | hdefault | hdefault
        · exact hdiffer hsame.txid
        · exact hsame.not_defaulted hdefault
        · exact hsame.symm.not_defaulted hdefault
      · exact hsame.not_overlaps hover
      · exact hsame.symm.not_overlaps hover
    · intro hconf hkey
      obtain ⟨hscope, htxid, hways⟩ := hiff.mp hkey
      rcases hways with halike | hover
      · by_cases hraw : c.txidText = d.txidText
        · rcases halike.leads_or with hleads | hdefault
          · exact ⟨hleads, halike.escrowId, halike.nick, hscope, hraw⟩
          · exact absurd ⟨hscope, htxid, .inl ⟨halike, .inr hdefault⟩⟩ hconf
        · exact absurd ⟨hscope, htxid, .inl ⟨halike, .inl hraw⟩⟩ hconf
      · exact absurd ⟨hscope, htxid, .inr hover⟩ hconf
  refine ⟨hmain, ?_⟩
  intro hcn hdn hcp hdp hct hdt
  refine hmain.mpr ?_
  rintro ⟨-, htxid, ⟨-, hdiffer⟩ | hover | hover⟩
  · rcases hdiffer with hdiffer | hdefault | hdefault
    · exact hdiffer (by rw [← hct, ← hdt, htxid])
    · exact hcp hdefault.1
    · exact hdp hdefault.1
  · exact not_overlaps hcn hover
  · exact not_overlaps hdn hover

/-! ### Samples -/

def sampleTxid : CString := ⟨List.replicate 64 97, by decide⟩

def sampleCall (lead : CString) (escrowId : UInt64) (nick : CString) : Call :=
  ⟨"escrow-confirm-release", some lead, escrowId, some nick, .release, some sampleTxid⟩

theorem key_identifies_iff_sample :
    (sampleCall (.lit "a:1") 2 (.lit "bob")).buildLegacyConfirmIdempotencyKey
      ≠ (sampleCall (.lit "a") 1 (.lit "bob")).buildLegacyConfirmIdempotencyKey := by
  intro heq
  have hkey : (sampleCall (.lit "a:1") 2 (.lit "bob")).buildLegacyConfirmIdempotencyKey
      = .ok (joined (utf8 "a:1") 2 (utf8 "bob") .release sampleTxid.data) := by
    decide +kernel
  have hsame := (key_identifies_iff hkey (heq ▸ hkey)).2 (by decide) (by decide) (by decide)
    (by decide) (by decide) (by decide) rfl
  exact absurd hsame.escrowId (by decide)

/-- **One key for two escrows**: the prefix `a:1` with escrow 2 and the nick `bob`, and the prefix
    `a` with escrow 1 and the nick `2:bob`. -/
theorem key_for_two_escrows :
    (sampleCall (.lit "a:1") 2 (.lit "bob")).buildLegacyConfirmIdempotencyKey
        = (sampleCall (.lit "a") 1 (.lit "2:bob")).buildLegacyConfirmIdempotencyKey
      ∧ (sampleCall (.lit "a") 1 (.lit "2:bob")).buildLegacyConfirmIdempotencyKey
        = .ok (joined (utf8 "a") 1 (utf8 "2:bob") .release sampleTxid.data) := by
  decide +kernel

end Nexum.Cli.Confirm
