import Mathlib.Data.Nat.Digits.Lemmas
import Nexum.Escrow.Address
import Nexum.Lib.Bytes

/-!
# Base58 is a bijection

`decodeMoneroBase58` reads a text in blocks of eleven characters, eight bytes each, and one shorter
block at the end. In a block the characters are the digits of a number in base 58, and the bytes
are its digits in base 256; what does not fit is refused. So a block is **the fixed-width digits of
one number, written twice**, and a decoder that refuses what is too large has an inverse on every
list of bytes: `encodeMoneroBase58`. An address is then the encoding of its payload and of the
first bytes of the payload's digest, and nothing else (`base58_bijective`).
-/

namespace Nexum.Escrow

open Nexum.Lib

/-! ## 1. The encoder -/

def b58Char (digit : Nat) : Char := xmrB58Alphabet.getD digit '1'

/-- How many characters a block of this many bytes takes. -/
def encodedBlockSize : Nat → Nat
  | 1 => 2
  | 2 => 3
  | 3 => 5
  | 4 => 6
  | 5 => 7
  | 6 => 9
  | 7 => 10
  | 8 => 11
  | _ => 0

def encodeBlock (bytes : List UInt8) : List Char :=
  (Nat.digitsAppend 58 (encodedBlockSize bytes.length) (leNat bytes.reverse)).reverse.map b58Char

def encodeBlocks : Nat → List UInt8 → List Char
  | 0, rest => encodeBlock rest
  | n + 1, bytes => encodeBlock (bytes.take 8) ++ encodeBlocks n (bytes.drop 8)

def encodeMoneroBase58 (bytes : List UInt8) : List Char := encodeBlocks (bytes.length / 8) bytes

/-! ## 2. Digits -/

theorem b58Value_eq_some_iff {c : Char} {d : Nat} :
    b58Value c = some d ↔ d < 58 ∧ c = b58Char d := by
  have hlen : xmrB58Alphabet.length = 58 := by decide +kernel
  have hnodup : xmrB58Alphabet.Nodup := by decide +kernel
  have hget : ∀ (h : d < xmrB58Alphabet.length), b58Char d = xmrB58Alphabet[d] := by
    intro h
    simp [b58Char, h]
  rw [b58Value, List.idxOf?_eq_some_iff]
  constructor
  · rintro ⟨h, rfl, -⟩
    exact ⟨hlen ▸ h, (hget h).symm⟩
  · rintro ⟨h, rfl⟩
    rw [← hlen] at h
    refine ⟨h, (hget h).symm, fun j hj heq => ?_⟩
    rw [hget h] at heq
    exact absurd ((hnodup.getElem_inj_iff).mp heq) (by omega)

/-- The digits of a block, read as one number. -/
def digitsValue (acc : Nat) (digits : List Nat) : Nat :=
  digits.foldl (fun acc digit => acc * 58 + digit) acc

theorem le_digitsValue (acc : Nat) (digits : List Nat) : acc ≤ digitsValue acc digits := by
  induction digits generalizing acc with
  | nil => exact le_rfl
  | cons d digits ih =>
    calc acc ≤ acc * 58 + d := by omega
      _ ≤ digitsValue acc (d :: digits) := ih _

/-- The test at every digit is the test at the last one. -/
theorem blockValue_eq_some_iff {acc v : Nat} {cs : List Char} (hacc : acc < 2 ^ 64) :
    blockValue acc cs = some v ↔ ∃ digits, cs = digits.map b58Char ∧ (∀ d ∈ digits, d < 58)
      ∧ digitsValue acc digits = v ∧ v < 2 ^ 64 := by
  induction cs generalizing acc with
  | nil =>
    simp only [blockValue, Option.some.injEq, List.nil_eq, List.map_eq_nil_iff]
    constructor
    · rintro rfl
      exact ⟨[], rfl, nofun, rfl, hacc⟩
    · rintro ⟨_, rfl, -, hv, -⟩
      exact hv
  | cons c cs ih =>
    simp only [blockValue, Option.bind_eq_bind, Option.bind_eq_some_iff, b58Value_eq_some_iff,
      Option.ite_none_left_eq_some]
    constructor
    · rintro ⟨d, ⟨hd, rfl⟩, hsmall, hrest⟩
      obtain ⟨digits, rfl, hdigits, hv, hlt⟩ := (ih (by omega)).mp hrest
      exact ⟨d :: digits, rfl, List.forall_mem_cons.mpr ⟨hd, hdigits⟩, hv, hlt⟩
    · rintro ⟨digits, hcs, hdigits, hv, hlt⟩
      cases digits with
      | nil => cases hcs
      | cons d digits =>
        obtain ⟨rfl, rfl⟩ := List.cons.inj hcs
        obtain ⟨hd, hdigits⟩ := List.forall_mem_cons.mp hdigits
        have hle := le_digitsValue (acc * 58 + d) digits
        have hsame : digitsValue (acc * 58 + d) digits = v := hv
        exact ⟨d, ⟨hd, rfl⟩, by omega,
          (ih (by omega)).mpr ⟨digits, rfl, hdigits, hsame, hlt⟩⟩

theorem digitsValue_zero (digits : List Nat) :
    digitsValue 0 digits = Nat.ofDigits 58 digits.reverse := by
  rw [Nat.ofDigits_eq_foldr, List.foldr_reverse, digitsValue]
  congr 1
  funext acc d
  simp [Nat.mul_comm, Nat.add_comm]

/-! ## 3. Blocks -/

/-- The sizes of a block, in characters and in bytes. -/
theorem decodedBlockSize_eq_some_iff {e k : Nat} :
    decodedBlockSize e = some k ↔ 1 ≤ k ∧ k ≤ 8 ∧ e = encodedBlockSize k := by
  constructor
  · intro h
    unfold decodedBlockSize at h
    split at h <;> cases h <;> exact ⟨by decide, by decide, rfl⟩
  · rintro ⟨hlow, hhigh, rfl⟩
    interval_cases k <;> rfl

theorem pow_le_pow_encodedBlockSize {k : Nat} (h : k ≤ 8) : 256 ^ k ≤ 58 ^ encodedBlockSize k := by
  interval_cases k <;> decide

theorem encodedBlockSize_eq_zero_iff {k : Nat} (h : k ≤ 8) : encodedBlockSize k = 0 ↔ k = 0 := by
  interval_cases k <;> decide

theorem encodedBlockSize_lt {k : Nat} (h : k < 8) : encodedBlockSize k < 11 := by
  interval_cases k <;> decide

theorem length_encodeBlock {bytes : List UInt8} (h : bytes.length ≤ 8) :
    (encodeBlock bytes).length = encodedBlockSize bytes.length := by
  have hlt := (leNat_lt bytes.reverse).trans_le
    (by simpa using pow_le_pow_encodedBlockSize h)
  rw [encodeBlock, List.length_map, List.length_reverse, Nat.length_digitsAppend (by decide) _ hlt]

/-- The bytes that the code takes out of the accumulator. -/
theorem shifted_eq_beBytes (k acc : Nat) :
    ((List.range k).map fun idx => UInt8.ofNat (acc >>> (8 * (k - 1 - idx)))) = beBytes k acc := by
  rw [beBytes, leBytes_eq_map]
  apply List.ext_getElem
  · simp
  · intro i _ _
    simp [List.getElem_reverse, Nat.shiftRight_eq_div_pow, Nat.pow_mul]

/-- **One block.** The characters are the digits of the number whose digits the bytes are. -/
theorem decodeBlock_eq_some_iff {cs : List Char} {k : Nat} {bytes : List UInt8} (hk : k ≤ 8)
    (hcs : cs.length = encodedBlockSize k) :
    decodeBlock cs k = some bytes ↔ bytes.length = k ∧ cs = encodeBlock bytes := by
  have hpow : 256 ^ k ≤ 2 ^ 64 := (Nat.pow_le_pow_right (by decide) hk).trans (by decide)
  have hfits : ∀ acc < 2 ^ 64, ¬ (k < 8 ∧ acc ≥ 2 ^ (k * 8)) ↔ acc < 256 ^ k := by
    intro acc hacc
    have hsame : 2 ^ (k * 8) = 256 ^ k := by rw [Nat.mul_comm, Nat.pow_mul]
    rcases Nat.lt_or_eq_of_le hk with hlt | rfl
    · rw [hsame]
      omega
    · simpa using hacc
  have hinv := Nat.setInvOn_digitsAppend_ofDigits (b := 58) (by decide) (encodedBlockSize k)
  simp only [decodeBlock, Option.bind_eq_bind, Option.bind_eq_some_iff,
    Option.ite_none_left_eq_some, Option.some.injEq, shifted_eq_beBytes,
    blockValue_eq_some_iff (show 0 < 2 ^ 64 by decide), digitsValue_zero]
  constructor
  · rintro ⟨acc, ⟨digits, rfl, hdigits, hvalue, hacc⟩, hsmall, rfl⟩
    have hlt := (hfits acc hacc).mp hsmall
    have hmem : digits.reverse ∈ {L : List Nat | L.length = encodedBlockSize k ∧ ∀ x ∈ L, x < 58} :=
      ⟨by simpa using hcs, by simpa using hdigits⟩
    have hback := hinv.1 hmem
    rw [hvalue] at hback
    refine ⟨length_beBytes k acc, ?_⟩
    rw [encodeBlock, length_beBytes, beBytes, List.reverse_reverse, leNat_leBytes hlt, hback,
      List.reverse_reverse]
  · rintro ⟨rfl, rfl⟩
    have hlt : leNat bytes.reverse < 256 ^ bytes.length := by
      simpa using leNat_lt bytes.reverse
    have hwide := hlt.trans_le (pow_le_pow_encodedBlockSize hk)
    refine ⟨leNat bytes.reverse, ⟨_, rfl, ?_, ?_, hlt.trans_le hpow⟩,
      (hfits _ (hlt.trans_le hpow)).mpr hlt, ?_⟩
    · intro d hd
      exact Nat.lt_of_mem_digitsAppend (by decide) _ d (List.mem_reverse.mp hd)
    · rw [List.reverse_reverse]
      exact hinv.2 hwide
    · have hsame := leBytes_leNat bytes.reverse
      rw [List.length_reverse] at hsame
      rw [beBytes, hsame, List.reverse_reverse]

/-- How long an encoding is. -/
theorem length_encodeBlocks (n : Nat) {bytes : List UInt8} (h : bytes.length / 8 = n) :
    (encodeBlocks n bytes).length = 11 * n + encodedBlockSize (bytes.length % 8) := by
  induction n generalizing bytes with
  | zero =>
    have hmod : bytes.length % 8 = bytes.length := by omega
    rw [encodeBlocks, length_encodeBlock (by omega), hmod]
    omega
  | succ n ih =>
    have hfirst : (bytes.take 8).length = 8 := by
      rw [List.length_take]
      omega
    have hmod : (bytes.drop 8).length % 8 = bytes.length % 8 := by
      rw [List.length_drop]
      omega
    rw [encodeBlocks, List.length_append, length_encodeBlock hfirst.le, hfirst,
      ih (by rw [List.length_drop]; omega), hmod, encodedBlockSize]
    omega

theorem decodeBlocks_eq_some_iff {n : Nat} {cs : List Char} {bytes : List UInt8}
    (hcs : cs.length / 11 = n) :
    decodeBlocks n cs = some bytes ↔ bytes.length / 8 = n ∧ cs = encodeBlocks n bytes := by
  induction n generalizing cs bytes with
  | zero =>
    cases cs with
    | nil =>
      simp only [decodeBlocks, List.isEmpty_nil, if_true, Option.some.injEq]
      constructor
      · rintro rfl
        exact ⟨rfl, rfl⟩
      · rintro ⟨hlen, hsame⟩
        have hzero : (encodeBlock bytes).length = _ := length_encodeBlock (by omega)
        rw [encodeBlocks] at hsame
        rw [← hsame, List.length_nil, eq_comm, encodedBlockSize_eq_zero_iff (by omega)] at hzero
        exact (List.length_eq_zero_iff.mp hzero).symm
    | cons c cs =>
      simp only [decodeBlocks, List.isEmpty_cons, Bool.false_eq_true, if_false, Option.bind_eq_bind,
        Option.bind_eq_some_iff, decodedBlockSize_eq_some_iff, encodeBlocks]
      constructor
      · rintro ⟨k, ⟨hlow, hhigh, hsize⟩, hblock⟩
        obtain ⟨hlen, hsame⟩ := (decodeBlock_eq_some_iff hhigh hsize).mp hblock
        refine ⟨?_, hsame⟩
        have hne : k ≠ 8 := by
          rintro rfl
          rw [encodedBlockSize] at hsize
          omega
        omega
      · rintro ⟨hlen, hsame⟩
        have hsize : (c :: cs).length = encodedBlockSize bytes.length := by
          rw [hsame, length_encodeBlock (by omega)]
        have hpos : bytes.length ≠ 0 := by
          intro hzero
          rw [hzero] at hsize
          cases hsize
        exact ⟨bytes.length, ⟨by omega, by omega, hsize⟩,
          (decodeBlock_eq_some_iff (by omega) hsize).mpr ⟨rfl, hsame⟩⟩
  | succ n ih =>
    have hfirst : (cs.take 11).length = 11 := by
      rw [List.length_take]
      omega
    simp only [decodeBlocks, Option.bind_eq_bind, Option.bind_eq_some_iff, encodeBlocks,
      Option.some.injEq, decodeBlock_eq_some_iff le_rfl hfirst,
      ih (show (cs.drop 11).length / 11 = n by rw [List.length_drop]; omega)]
    constructor
    · rintro ⟨block, ⟨hblock, htake⟩, tail, ⟨htail, hdrop⟩, rfl⟩
      refine ⟨by rw [List.length_append]; omega, ?_⟩
      rw [← hblock, List.take_left, List.drop_left, ← htake, ← hdrop, List.take_append_drop]
    · rintro ⟨hlen, hsame⟩
      have hblock : (bytes.take 8).length = 8 := by
        rw [List.length_take]
        omega
      have hchars : (encodeBlock (bytes.take 8)).length = 11 := by
        rw [length_encodeBlock hblock.le, hblock, encodedBlockSize]
      refine ⟨bytes.take 8, ⟨hblock, ?_⟩, bytes.drop 8, ⟨by rw [List.length_drop]; omega, ?_⟩,
        List.take_append_drop 8 bytes⟩
      · rw [hsame, ← hchars, List.take_left]
      · rw [hsame, ← hchars, List.drop_left]

/-- **The decoder's inverse.** -/
theorem decodeMoneroBase58_eq_some_iff {cs : List Char} {bytes : List UInt8} :
    decodeMoneroBase58 cs = some bytes ↔ bytes ≠ [] ∧ cs = encodeMoneroBase58 bytes := by
  constructor
  · intro h
    unfold decodeMoneroBase58 at h
    split at h
    · cases h
    · rename_i hne
      split at h
      · cases h
      · obtain ⟨hlen, hsame⟩ := (decodeBlocks_eq_some_iff rfl).mp h
        rw [encodeMoneroBase58, hlen]
        refine ⟨?_, hsame⟩
        rintro rfl
        rw [← hlen] at hsame
        rw [hsame] at hne
        exact hne rfl
  · rintro ⟨hne, rfl⟩
    have hpos := List.length_pos_iff.mpr hne
    have hlen : (encodeMoneroBase58 bytes).length
        = 11 * (bytes.length / 8) + encodedBlockSize (bytes.length % 8) := length_encodeBlocks _ rfl
    have hrest : bytes.length % 8 < 8 := Nat.mod_lt _ (by decide)
    have hlast := encodedBlockSize_lt hrest
    have hzero := encodedBlockSize_eq_zero_iff hrest.le
    have hdiv : (encodeMoneroBase58 bytes).length / 11 = bytes.length / 8 := by omega
    have hmod : (encodeMoneroBase58 bytes).length % 11 = encodedBlockSize (bytes.length % 8) := by
      omega
    have hsome : (encodeMoneroBase58 bytes).isEmpty = false := by
      rw [List.isEmpty_eq_false_iff, ← List.length_pos_iff]
      omega
    unfold decodeMoneroBase58
    rw [hsome, if_neg (by decide), if_neg, hdiv]
    · exact (decodeBlocks_eq_some_iff hdiv).mpr ⟨rfl, rfl⟩
    · -- the rest has one of the sizes that there are
      rintro ⟨hne, hnone⟩
      have hsize := decodedBlockSize_eq_some_iff.mpr ⟨by omega, hrest.le, hmod⟩
      rw [hsize] at hnone
      cases hnone

/-! ## 4. Addresses -/

theorem encodeMoneroBase58_ascii (bytes : List UInt8) :
    ∀ c ∈ encodeMoneroBase58 bytes, c.toNat < 128 := by
  have hall : xmrB58Alphabet.all (·.toNat < 128) = true := by decide +kernel
  have hchar : ∀ d, (b58Char d).toNat < 128 := by
    intro d
    rw [b58Char, List.getD_eq_getElem?_getD]
    cases hget : xmrB58Alphabet[d]? with
    | none => decide
    | some c => simpa using List.all_eq_true.mp hall c (List.mem_of_getElem? hget)
  have hblock : ∀ block : List UInt8, ∀ c ∈ encodeBlock block, c.toNat < 128 := by
    intro block c hc
    obtain ⟨d, -, rfl⟩ := List.mem_map.mp hc
    exact hchar d
  unfold encodeMoneroBase58
  generalize bytes.length / 8 = n
  induction n generalizing bytes with
  | zero => exact hblock bytes
  | succ n ih =>
    intro c hc
    rcases List.mem_append.mp hc with hc | hc
    · exact hblock _ c hc
    · exact ih _ c hc

/-- What an address says, without its checksum. -/
def payloadOf (addr : String) : Option (List UInt8) :=
  (decodeMoneroBase58 (trim addr).toList).map fun decoded => decoded.take (decoded.length - 4)

/-- The network byte and the keys, and the payment id of an integrated address. -/
def IsPayload (payload : List UInt8) : Prop :=
  (payload.length = 65 ∧ ∃ head ∈ payload.head?, head ∈ [18, 24, 36, 42, 53, 63])
    ∨ (payload.length = 73 ∧ ∃ head ∈ payload.head?, head ∈ [19, 25, 54])

theorem validPrefix_iff (head : UInt8) (keys : List UInt8) :
    validPrefixForPayload head (head :: keys).length = true ↔ IsPayload (head :: keys) := by
  unfold validPrefixForPayload IsPayload
  split
  · rename_i hlen
    simp [hlen]
  · rename_i hlen
    simp [hlen]
  · rename_i hstandard hintegrated
    refine iff_of_false nofun ?_
    rintro (⟨hlen, -⟩ | ⟨hlen, -⟩)
    · exact hstandard hlen
    · exact hintegrated hlen

theorem isValidXmrAddress_iff (keccak : List UInt8 → Bytes 32) (addr : String) :
    isValidXmrAddress (fun payload => (keccak payload).data) addr = true ↔ ∃ payload,
      IsPayload payload
        ∧ (trim addr).toList = encodeMoneroBase58 (payload ++ (keccak payload).data.take 4) := by
  constructor
  · intro h
    unfold isValidXmrAddress at h
    dsimp only at h
    split at h
    · cases h
    · split at h
      · cases h
      · split at h
        · cases h
        · rename_i decoded hdecoded
          split at h
          · cases h
          · split at h
            · cases h
            · rename_i head keys hpayload
              rw [Bool.and_eq_true, beq_iff_eq] at h
              rw [hpayload] at h
              refine ⟨head :: keys, (validPrefix_iff head keys).mp h.1, ?_⟩
              rw [(decodeMoneroBase58_eq_some_iff.mp hdecoded).2, ← h.2, ← hpayload,
                List.take_append_drop]
  · rintro ⟨payload, hpayload, htext⟩
    have hsum : ((keccak payload).data.take 4).length = 4 := by
      simp [(keccak payload).len]
    have hlen : payload.length = 65 ∨ payload.length = 73 :=
      hpayload.imp And.left And.left
    have hne : payload ++ (keccak payload).data.take 4 ≠ [] := by
      rw [← List.length_pos_iff, List.length_append]
      omega
    have hascii : ∀ c ∈ (trim addr).toList, c.toNat < 128 := by
      rw [htext]
      exact encodeMoneroBase58_ascii _
    have hall : (trim addr).toList.all (·.toNat < 128) = true := by
      simpa using hascii
    have hsize : (trim addr).utf8ByteSize = 95 ∨ (trim addr).utf8ByteSize = 106 := by
      rw [utf8ByteSize_of_isAscii (by rw [isAscii, chars_eq]; exact hall), chars_eq, htext,
        encodeMoneroBase58, length_encodeBlocks _ rfl, List.length_append, hsum]
      exact hlen.imp (fun h => by rw [h]; rfl) fun h => by rw [h]; rfl
    have hdecoded := decodeMoneroBase58_eq_some_iff.mpr ⟨hne, htext⟩
    have hlast : (payload ++ (keccak payload).data.take 4).length - 4 = payload.length := by
      rw [List.length_append, hsum]
      omega
    have hlong : ¬ (payload ++ (keccak payload).data.take 4).length < 5 := by
      rw [List.length_append]
      omega
    unfold isValidXmrAddress
    dsimp only
    rw [if_neg (not_not.mpr hsize), if_neg (not_not.mpr hall), hdecoded]
    dsimp only
    rw [if_neg hlong, hlast, List.take_left, List.drop_left]
    cases payload with
    | nil => simp at hlen
    | cons head keys => simpa using (validPrefix_iff head keys).mpr hpayload

/-- **Base58 is a bijection, and an address is its payload.** -/
theorem base58_bijective (keccak : List UInt8 → Bytes 32) :
    (∀ bytes : List UInt8, bytes ≠ [] →
      ∃! text : String, decodeMoneroBase58 text.toList = some bytes)
    ∧ (∀ addr, isValidXmrAddress (fun payload => (keccak payload).data) addr = true ↔ ∃ payload,
      IsPayload payload
        ∧ (trim addr).toList = encodeMoneroBase58 (payload ++ (keccak payload).data.take 4))
    ∧ ∀ addr addr', isValidXmrAddress (fun payload => (keccak payload).data) addr = true →
        isValidXmrAddress (fun payload => (keccak payload).data) addr' = true →
        payloadOf addr = payloadOf addr' → trim addr = trim addr' := by
  refine ⟨fun bytes hne => ?_, isValidXmrAddress_iff keccak, fun addr addr' h h' hsame => ?_⟩
  · refine ⟨String.ofList (encodeMoneroBase58 bytes), ?_, fun text htext => ?_⟩
    · show decodeMoneroBase58 (String.ofList _).toList = some bytes
      rw [String.toList_ofList]
      exact decodeMoneroBase58_eq_some_iff.mpr ⟨hne, rfl⟩
    · rw [← (decodeMoneroBase58_eq_some_iff.mp htext).2, String.ofList_toList]
  · -- the payload fixes its checksum, and the two together the text
    have hdecoded : ∀ addr payload, IsPayload payload →
        (trim addr).toList = encodeMoneroBase58 (payload ++ (keccak payload).data.take 4) →
        payloadOf addr = some payload := by
      intro addr payload hpayload htext
      have hne : payload ++ (keccak payload).data.take 4 ≠ [] := by
        rintro hnil
        rw [List.append_eq_nil_iff.mp hnil |>.1] at hpayload
        simp [IsPayload] at hpayload
      rw [payloadOf, decodeMoneroBase58_eq_some_iff.mpr ⟨hne, htext⟩, Option.map_some]
      simp [(keccak payload).len]
    obtain ⟨payload, hpayload, htext⟩ := (isValidXmrAddress_iff keccak addr).mp h
    obtain ⟨payload', hpayload', htext'⟩ := (isValidXmrAddress_iff keccak addr').mp h'
    rw [hdecoded addr payload hpayload htext, hdecoded addr' payload' hpayload' htext',
      Option.some.injEq] at hsame
    apply String.toList_injective
    rw [htext, htext', hsame]

end Nexum.Escrow
