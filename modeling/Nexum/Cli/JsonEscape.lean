import Nexum.Cli.Challenge

/-!
# Escaping for JSON

`ff_json_escape` goes over a text twice: once to count the bytes of its escape, and once to write
them into a buffer of that size. The two passes have a `switch` each, and they agree on every byte
(`length_escapeByte`). What is written is a JSON string, and a JSON reader gets the text back from
it (`readAll_escape`); the reader here knows the whole language, surrogates included.

The count is a `size_t`. An escape may be six times as long as its text, so there are texts that fit
into the address space while the count of their escape does not; it wraps, the buffer is too small,
and the second pass writes behind its end (`json_escape_iff`, `count_wraps`). The width of a
`size_t` is a parameter.
-/

namespace Nexum.Cli.JsonEscape

open Nexum.Lib

/-! ## 1. The two passes -/

/-- The first pass, with a `size_t` of `w` bits: it adds up what each byte takes. -/
def countPass (w : Nat) (s : List UInt8) : Nat :=
  s.foldl (fun len c => (len + unitLen c) % 2 ^ w) 0

def hexDigit (n : UInt8) : UInt8 := (utf8 "0123456789abcdef").getD n.toNat 0

/-- What the second pass writes for a byte. -/
def escapeByte (c : UInt8) : List UInt8 :=
  if c = 0x22 then utf8 "\\\""
  else if c = 0x5C then utf8 "\\\\"
  else if c = 0x08 then utf8 "\\b"
  else if c = 0x0C then utf8 "\\f"
  else if c = 0x0A then utf8 "\\n"
  else if c = 0x0D then utf8 "\\r"
  else if c = 0x09 then utf8 "\\t"
  else if c < 0x20 then utf8 "\\u00" ++ [hexDigit ((c >>> 4) &&& 0xF), hexDigit (c &&& 0xF)]
  else [c]

/-- `*w++ = c`, into a buffer of the size. -/
def put (size : Nat) (buf : List UInt8) (c : UInt8) : Option (List UInt8) :=
  if buf.length < size then some (buf ++ [c]) else none

inductive Outcome
  | failed
  | overrun
  | done (buf : List UInt8)
  deriving DecidableEq

/-- `ff_json_escape`; `malloc` tells which sizes it has memory for. -/
def ffJsonEscape (w : Nat) (malloc : Nat → Bool) (s : CString) : Outcome :=
  let size := (countPass w s.data + 1) % 2 ^ w
  if malloc size then
    match (s.data.flatMap escapeByte ++ [0]).foldlM (put size) [] with
    | some buf => .done buf
    | none => .overrun
  else .failed

/-! ## 2. JSON strings -/

/-- What may stand between the quotes of a JSON string. -/
inductive JsonChars : List UInt8 → Prop
  | nil : JsonChars []
  | plain {c : UInt8} {rest : List UInt8} (hctl : 0x20 ≤ c) (hquote : c ≠ 0x22) (hback : c ≠ 0x5C)
      (h : JsonChars rest) : JsonChars (c :: rest)
  | short {c : UInt8} {rest : List UInt8} (hc : c ∈ utf8 "\"\\/bfnrt") (h : JsonChars rest) :
      JsonChars (0x5C :: c :: rest)
  | unicode {digits rest : List UInt8} (hlen : digits.length = 4)
      (hdigits : ∀ c ∈ digits, isAsciiHexdigit (.ofNat c.toNat) = true) (h : JsonChars rest) :
      JsonChars (0x5C :: 0x75 :: (digits ++ rest))

inductive Mode
  | plain
  | escape
  | hex (digits value : Nat)
  deriving DecidableEq

/-- Where a reader is, and the first half of a surrogate pair that waits for the second. -/
structure Reader where
  mode : Mode
  high : Option Nat
  deriving DecidableEq

namespace Reader

def start : Reader := ⟨.plain, none⟩

def emit (s : Reader) (out : List UInt8) : Option (Reader × List UInt8) :=
  if s.high = none then some (start, out) else none

/-- A code unit of UTF-16. -/
def unit (s : Reader) (u : Nat) : Option (Reader × List UInt8) :=
  match s.high with
  | some h =>
    if 0xDC00 ≤ u ∧ u < 0xE000 then
      some (start, String.utf8EncodeChar (.ofNat (0x10000 + (h - 0xD800) * 0x400 + (u - 0xDC00))))
    else none
  | none =>
    if 0xD800 ≤ u ∧ u < 0xDC00 then some (⟨.plain, some u⟩, [])
    else if 0xDC00 ≤ u ∧ u < 0xE000 then none
    else some (start, String.utf8EncodeChar (.ofNat u))

def shortEscapes : List (UInt8 × UInt8) :=
  [(0x22, 0x22), (0x5C, 0x5C), (0x2F, 0x2F), (0x62, 0x08), (0x66, 0x0C), (0x6E, 0x0A),
    (0x72, 0x0D), (0x74, 0x09)]

def read (s : Reader) (c : UInt8) : Option (Reader × List UInt8) :=
  match s.mode with
  | .plain =>
    if c = 0x5C then some (⟨.escape, s.high⟩, [])
    else if c < 0x20 ∨ c = 0x22 then none
    else s.emit [c]
  | .escape =>
    if c = 0x75 then some (⟨.hex 0 0, s.high⟩, [])
    else (shortEscapes.lookup c).bind fun b => s.emit [b]
  | .hex digits value =>
    (hexValue (.ofNat c.toNat)).bind fun d =>
      if digits = 3 then s.unit (16 * value + d)
      else some (⟨.hex (digits + 1) (16 * value + d), s.high⟩, [])

def readAll : Reader → List UInt8 → Option (Reader × List UInt8)
  | s, [] => some (s, [])
  | s, c :: text =>
    (s.read c).bind fun (s, out) => (readAll s text).map fun (s, rest) => (s, out ++ rest)

end Reader

/-- The bytes that a JSON string stands for. -/
def jsonDecode (text : List UInt8) : Option (List UInt8) :=
  match Reader.start.readAll text with
  | some (s, out) => if s = .start then some out else none
  | none => none

/-! ## 3. The passes agree -/

theorem length_escapeByte (c : UInt8) : (escapeByte c).length = unitLen c := by
  have hall : ∀ n < 256, (escapeByte (.ofNat n)).length = unitLen (.ofNat n) := by decide +kernel
  simpa using hall c.toNat c.toNat_lt

theorem length_escape (s : CString) : (s.data.flatMap escapeByte).length = escapedLen s := by
  rw [List.length_flatMap, List.map_congr_left fun c _ => length_escapeByte c]
  rfl

theorem foldl_count (m : Nat) (s : List UInt8) (n : Nat) :
    s.foldl (fun len c => (len + unitLen c) % m) (n % m) = (n + (s.map unitLen).sum) % m := by
  induction s generalizing n with
  | nil => rfl
  | cons c s ih =>
    rw [List.foldl_cons, Nat.mod_add_mod, ih, List.map_cons, List.sum_cons, Nat.add_assoc]

/-- The count is right up to wrapping. -/
theorem countPass_eq (w : Nat) (s : CString) : countPass w s.data = escapedLen s % 2 ^ w := by
  have hcount := foldl_count (2 ^ w) s.data 0
  rwa [Nat.zero_mod, Nat.zero_add] at hcount

theorem foldlM_put {size : Nat} {bytes buf : List UInt8} (h : buf.length ≤ size) :
    bytes.foldlM (put size) buf
      = if buf.length + bytes.length ≤ size then some (buf ++ bytes) else none := by
  induction bytes generalizing buf with
  | nil => simp [h]
  | cons c bytes ih =>
    rw [List.foldlM_cons, put]
    split
    · rename_i hroom
      show bytes.foldlM (put size) (buf ++ [c]) = _
      rw [ih (by rw [List.length_append]; exact hroom)]
      simp [Nat.add_assoc, Nat.add_comm 1]
    · rename_i hfull
      rw [if_neg (by simp only [List.length_cons]; omega)]
      rfl

/-- **The buffer is large enough exactly if the count does not wrap.** -/
theorem ffJsonEscape_eq (w : Nat) (s : CString) : ffJsonEscape w (fun _ => true) s
    = if escapedLen s + 1 < 2 ^ w then .done (s.data.flatMap escapeByte ++ [0]) else .overrun := by
  have hpos : 0 < 2 ^ w := Nat.two_pow_pos w
  have hmod : (countPass w s.data + 1) % 2 ^ w < 2 ^ w := Nat.mod_lt _ hpos
  have hsize : escapedLen s + 1 ≤ (countPass w s.data + 1) % 2 ^ w ↔ escapedLen s + 1 < 2 ^ w := by
    constructor
    · intro h
      exact Nat.lt_of_le_of_lt h hmod
    · intro h
      rw [countPass_eq, Nat.mod_add_mod, Nat.mod_eq_of_lt h]
  unfold ffJsonEscape
  dsimp only
  rw [if_pos rfl, foldlM_put (Nat.zero_le _), List.length_append, length_escape, List.length_nil,
    Nat.zero_add, List.length_singleton]
  by_cases hfits : escapedLen s + 1 < 2 ^ w
  · rw [if_pos (hsize.mpr hfits), if_pos hfits]
    rfl
  · rw [if_neg (mt hsize.mp hfits), if_neg hfits]

/-! ## 4. What is written is read -/

theorem readAll_append (s : Reader) (a b : List UInt8) :
    s.readAll (a ++ b) = (s.readAll a).bind fun (s', out) =>
      (s'.readAll b).map fun (t, rest) => (t, out ++ rest) := by
  induction a generalizing s with
  | nil => simp [Reader.readAll]
  | cons c a ih =>
    rw [List.cons_append, Reader.readAll, Reader.readAll]
    cases s.read c with
    | none => rfl
    | some next =>
      obtain ⟨s', out⟩ := next
      simp only [Option.bind_some, ih]
      cases s'.readAll a <;> simp [Function.comp_def]

theorem readAll_escapeByte (c : UInt8) :
    Reader.start.readAll (escapeByte c) = some (.start, [c]) := by
  have hall : ∀ n < 256,
      Reader.start.readAll (escapeByte (.ofNat n)) = some (.start, [.ofNat n]) := by
    decide +kernel
  simpa using hall c.toNat c.toNat_lt

theorem readAll_escape (s : List UInt8) :
    Reader.start.readAll (s.flatMap escapeByte) = some (.start, s) := by
  induction s with
  | nil => rfl
  | cons c s ih =>
    simp only [List.flatMap_cons, readAll_append, readAll_escapeByte, Option.bind_some, ih]
    rfl

theorem digits_ascii (c : UInt8) :
    ∀ d ∈ [0x30, 0x30, hexDigit ((c >>> 4) &&& 0xF), hexDigit (c &&& 0xF)],
      isAsciiHexdigit (.ofNat d.toNat) = true := by
  have hall : ∀ n < 256, [0x30, 0x30, hexDigit ((UInt8.ofNat n >>> 4) &&& 0xF),
      hexDigit (.ofNat n &&& 0xF)].all (fun d => isAsciiHexdigit (.ofNat d.toNat)) = true := by
    decide +kernel
  have hbyte := hall c.toNat c.toNat_lt
  rw [UInt8.ofNat_toNat] at hbyte
  exact List.all_eq_true.mp hbyte

theorem jsonChars_escapeByte (c : UInt8) {rest : List UInt8} (h : JsonChars rest) :
    JsonChars (escapeByte c ++ rest) := by
  unfold escapeByte
  split_ifs with hquote hback h8 h12 h10 h13 h9 hctl
  iterate 7 exact .short (by decide) h
  · exact .unicode rfl (digits_ascii c) h
  · exact .plain (UInt8.not_lt.mp hctl) hquote hback h

theorem jsonChars_escape (s : List UInt8) : JsonChars (s.flatMap escapeByte) := by
  induction s with
  | nil => exact .nil
  | cons c s ih => exact jsonChars_escapeByte c ih

theorem no_control_escape (s : List UInt8) : ∀ d ∈ s.flatMap escapeByte, 0x20 ≤ d := by
  have hall : ∀ n < 256, (escapeByte (.ofNat n)).all (0x20 ≤ ·) = true := by decide +kernel
  intro d hd
  obtain ⟨c, -, hc⟩ := List.mem_flatMap.mp hd
  have hbyte := hall c.toNat c.toNat_lt
  rw [UInt8.ofNat_toNat] at hbyte
  exact of_decide_eq_true (List.all_eq_true.mp hbyte d hc)

/-! ## 5. The function -/

/-- The text is what the function has written before the final zero: as many bytes as it counted,
    inside the language of JSON strings, and read as the given text. -/
structure Escapes (w : Nat) (s : CString) (text : List UInt8) : Prop where
  written : ffJsonEscape w (fun _ => true) s = .done (text ++ [0])
  counted : text.length = countPass w s.data
  chars : JsonChars text
  noControl : ∀ c ∈ text, 0x20 ≤ c
  decoded : jsonDecode text = some s.data

/-- **Escaping for JSON.** With memory at hand, the function writes an escape of the text exactly if
    the escape and its final zero can be counted in a `size_t`; otherwise it writes behind the end
    of its buffer. Different texts have different escapes. -/
theorem json_escape_iff (w : Nat) (s : CString) :
    ((∃ text, Escapes w s text) ↔ escapedLen s + 1 < 2 ^ w)
    ∧ (ffJsonEscape w (fun _ => true) s = .overrun ↔ 2 ^ w ≤ escapedLen s + 1)
    ∧ ∀ s' text, Escapes w s text → Escapes w s' text → s = s' := by
  refine ⟨⟨?_, ?_⟩, ?_, ?_⟩
  · intro h
    obtain ⟨text, htext⟩ := h
    by_contra hwraps
    have hwritten := htext.written
    rw [ffJsonEscape_eq, if_neg hwraps] at hwritten
    exact Outcome.noConfusion hwritten
  · intro hfits
    refine ⟨s.data.flatMap escapeByte, ?_, ?_, jsonChars_escape _, ?_, ?_⟩
    · rw [ffJsonEscape_eq, if_pos hfits]
    · rw [length_escape, countPass_eq, Nat.mod_eq_of_lt (Nat.lt_of_succ_lt hfits)]
    · exact no_control_escape s.data
    · simp only [jsonDecode, readAll_escape, if_true]
  · rw [ffJsonEscape_eq]
    split <;> simp <;> omega
  · intro s' text h h'
    exact CString.eq_of_data (Option.some.inj (h.decoded.symm.trans h'.decoded))

/-- Control characters. -/
def beeps (n : Nat) : CString := ⟨List.replicate n 7, by simp [List.mem_replicate]⟩

theorem escapedLen_beeps (n : Nat) : escapedLen (beeps n) = n * 6 := by
  rw [escapedLen, beeps, List.map_replicate, List.sum_replicate_nat]
  rfl

/-- **The count wraps.** A text of a little more than a sixth of the address space is counted as two
    bytes long, with 32 bits and with 64. -/
theorem count_wraps :
    (countPass 32 (beeps 715827883).data = 2
      ∧ ffJsonEscape 32 (fun _ => true) (beeps 715827883) = .overrun)
    ∧ countPass 64 (beeps 3074457345618258603).data = 2
      ∧ ffJsonEscape 64 (fun _ => true) (beeps 3074457345618258603) = .overrun := by
  refine ⟨⟨?_, ?_⟩, ?_, ?_⟩
  · rw [countPass_eq, escapedLen_beeps]
    decide
  · rw [ffJsonEscape_eq, escapedLen_beeps, if_neg (by omega)]
  · rw [countPass_eq, escapedLen_beeps]
    decide
  · rw [ffJsonEscape_eq, escapedLen_beeps, if_neg (by omega)]

end Nexum.Cli.JsonEscape
