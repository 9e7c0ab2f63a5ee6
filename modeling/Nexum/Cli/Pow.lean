import Nexum.Cli.Challenge
import Nexum.Lib.Search

/-!
# Proof of work

Before it registers, the client looks for a nonce whose digest begins with as many zero bits as the
server asks for. The loop takes the 64-bit nonces in their cyclic order. It leaves only when it has
found one: it does not notice that it is back where it began, and it has no other way to fail.

The server's number is a `long long`, and the search takes an `int`. A digest has 256 bits; beyond
that the search goes on for ever, unless the conversion makes the number small or negative, and then
it ends at once with a nonce that is no proof. So the search does what it is for exactly if some
nonce reaches the difficulty (`search_meets_iff`).
-/

namespace Nexum.Cli.Pow

open Nexum.Lib

/-! ## 1. The search -/

/-- The zero bits of a byte, in the order given; an `error` is a `return` from the middle. -/
def countBits (b : UInt8) : List UInt8 → Nat → Except Nat Nat
  | [], n => .ok n
  | bit :: bits, n => if (b >>> bit) &&& 1 = 0 then countBits b bits (n + 1) else .error n

def countBytes : List UInt8 → Nat → Nat
  | [], n => n
  | b :: bytes, n =>
    if b = 0 then countBytes bytes (n + 8)
    else
      match countBits b [7, 6, 5, 4, 3, 2, 1, 0] n with
      | .error n => n
      | .ok n => countBytes bytes n

def leadingZeroBits (d : Bytes 32) : Nat := countBytes d.data 0

/-- What is hashed: the first half of the token, the purpose, the nick and the nonce. -/
def preimage (raw : List UInt8) (purpose nick : CString) (nonce : UInt64) : List UInt8 :=
  raw.take 32 ++ [0] ++ purpose.data ++ [0] ++ nick.data ++ [0] ++ u64be nonce

inductive Solve
  | running
  | failed
  | found (nonce : UInt64)
  deriving DecidableEq

section
variable (pr : AuthPrims)

def powSolve (fuel : Nat) (token purpose nick : CString) (difficulty : Int) (start : UInt64) :
    Solve :=
  match pr.b64uDec token with
  | none => .failed
  | some raw =>
    if raw.length ≠ 64 then .failed
    else
      match search (fun nonce =>
          (leadingZeroBits (pr.sha256 (preimage raw purpose nick nonce)) : Int) ≥ difficulty)
        (· + 1) fuel start with
      | some nonce => .found nonce
      | none => .running

/-- The conversion of a `long long` to an `int`. -/
def toInt (n : Int) : Int := n.bmod (2 ^ 32)

/-- `cmd_register`, from the answer to `register/start` to the nonce. -/
def registerPow (fuel : Nat) (nick : CString) (powToken : Option CString) (powDiff : Option Int) :
    Solve :=
  let powDiff := powDiff.getD 0
  match powToken with
  | none => .failed
  | some token =>
    if powDiff ≤ 0 then .failed
    else powSolve pr fuel token (.lit "register") nick (toInt powDiff) 0

end

/-! ## 2. Zero bits -/

/-- The most significant one first. -/
def byteBits (b : UInt8) : List Bool :=
  [7, 6, 5, 4, 3, 2, 1, 0].map fun i => b.toNat.testBit i

def digestBits (d : Bytes 32) : List Bool := d.data.flatMap byteBits

theorem replicate_prefix_iff {n : Nat} {bits : List Bool} :
    List.replicate n false <+: bits ↔ n ≤ (bits.takeWhile (!·)).length := by
  induction bits generalizing n with
  | nil => cases n <;> simp [List.replicate_succ]
  | cons bit bits ih =>
    cases n with
    | zero => simp
    | succ n => cases bit <;> simp [List.replicate_succ, List.cons_prefix_cons, ih]

theorem countBits_add (b : UInt8) (bits : List UInt8) (n k : Nat) :
    countBits b bits (n + k) = match countBits b bits k with
      | .ok m => .ok (n + m)
      | .error m => .error (n + m) := by
  induction bits generalizing k with
  | nil => rfl
  | cons bit bits ih =>
    unfold countBits
    split
    · exact ih (k + 1)
    · rfl

/-- A byte that is not zero has a bit that is set, and the count ends there. -/
theorem countBits_byte {b : UInt8} (hb : b ≠ 0) (n : Nat) :
    countBits b [7, 6, 5, 4, 3, 2, 1, 0] n = .error (n + ((byteBits b).takeWhile (!·)).length)
      ∧ ((byteBits b).takeWhile (!·)).length ≠ (byteBits b).length := by
  have hall : ∀ m < 256, UInt8.ofNat m ≠ 0 →
      countBits (.ofNat m) [7, 6, 5, 4, 3, 2, 1, 0] 0
        = .error ((byteBits (.ofNat m)).takeWhile (!·)).length
      ∧ ((byteBits (.ofNat m)).takeWhile (!·)).length ≠ (byteBits (.ofNat m)).length := by
    decide +kernel
  have hbyte := hall b.toNat b.toNat_lt
  rw [UInt8.ofNat_toNat] at hbyte
  obtain ⟨hcount, hshort⟩ := hbyte hb
  refine ⟨?_, hshort⟩
  rw [← Nat.add_zero n, countBits_add, hcount]
  rfl

theorem countBytes_eq (bytes : List UInt8) (n : Nat) :
    countBytes bytes n = n + ((bytes.flatMap byteBits).takeWhile (!·)).length := by
  induction bytes generalizing n with
  | nil => rfl
  | cons b bytes ih =>
    rw [List.flatMap_cons, List.takeWhile_append, countBytes]
    split
    · rename_i hb
      subst hb
      rw [ih, if_pos (by decide), List.length_append]
      exact Nat.add_assoc n 8 _
    · rename_i hb
      obtain ⟨hcount, hshort⟩ := countBits_byte hb n
      rw [hcount, if_neg hshort]

/-- **The count is that of the leading zero bits.** -/
theorem le_leadingZeroBits_iff {n : Nat} {d : Bytes 32} :
    n ≤ leadingZeroBits d ↔ List.replicate n false <+: digestBits d := by
  rw [leadingZeroBits, countBytes_eq, Nat.zero_add, digestBits, replicate_prefix_iff]

theorem length_digestBits (d : Bytes 32) : (digestBits d).length = 256 := by
  have hbyte : ∀ b ∈ d.data, (byteBits b).length = 8 := fun _ _ => rfl
  rw [digestBits, List.length_flatMap, List.map_congr_left hbyte, List.map_const',
    List.sum_replicate_nat, d.len]

theorem leadingZeroBits_le (d : Bytes 32) : leadingZeroBits d ≤ 256 := by
  have hprefix := (le_leadingZeroBits_iff (d := d)).mp (Nat.le_refl _)
  have hlen := hprefix.length_le
  rwa [List.length_replicate, length_digestBits] at hlen

/-! ## 3. What the search is for -/

/-- The digest of the nonce begins with that many zero bits. -/
def Reaches (sha256 : List UInt8 → Bytes 32) (raw : List UInt8) (purpose nick : CString)
    (difficulty : Nat) (nonce : UInt64) : Prop :=
  List.replicate difficulty false <+: digestBits (sha256 (preimage raw purpose nick nonce))

/-- The first one in cyclic order. -/
def FirstFrom (reaches : UInt64 → Prop) (start nonce : UInt64) : Prop :=
  ∃ k < 2 ^ 64, start + .ofNat k = nonce ∧ reaches nonce ∧ ∀ j < k, ¬ reaches (start + .ofNat j)

/-- A search, given how long it may run, ends; what it finds is the first nonce that reaches the
    difficulty; and where there is none, it ends with an error. -/
structure Meets (solve : Nat → Solve) (reaches : UInt64 → Prop) (start : UInt64) : Prop where
  halts : ∃ fuel, solve fuel ≠ .running
  first : ∀ fuel nonce, solve fuel = .found nonce → FirstFrom reaches start nonce
  error : (∀ nonce, ¬ reaches nonce) → ∃ fuel, solve fuel = .failed

theorem iterate_succ (start : UInt64) (k : Nat) : (· + 1)^[k] start = start + .ofNat k := by
  induction k generalizing start with
  | zero => simp
  | succ k ih =>
    rw [Function.iterate_succ_apply, ih, UInt64.ofNat_add, UInt64.add_assoc, UInt64.add_comm 1]
    rfl

theorem exists_steps (start nonce : UInt64) : ∃ k < 2 ^ 64, start + .ofNat k = nonce := by
  refine ⟨(nonce - start).toNat, (nonce - start).toNat_lt, ?_⟩
  rw [UInt64.ofNat_toNat, UInt64.add_comm, UInt64.sub_add_cancel]

section
variable {pr : AuthPrims} {token : CString} {raw : Bytes 64}

/-- With a good token the search is all there is. -/
theorem powSolve_eq (htoken : pr.b64uDec token = some raw.data) (fuel : Nat)
    (purpose nick : CString) (difficulty : Int) (start : UInt64) :
    powSolve pr fuel token purpose nick difficulty start
      = match search (fun nonce =>
          (leadingZeroBits (pr.sha256 (preimage raw.data purpose nick nonce)) : Int) ≥ difficulty)
          (· + 1) fuel start with
        | some nonce => .found nonce
        | none => .running := by
  simp only [powSolve, htoken, raw.len, ne_eq, not_true_eq_false, if_false]

theorem powSolve_ne_failed (htoken : pr.b64uDec token = some raw.data) (fuel : Nat)
    (purpose nick : CString) (difficulty : Int) (start : UInt64) :
    powSolve pr fuel token purpose nick difficulty start ≠ .failed := by
  rw [powSolve_eq htoken]
  split <;> exact Solve.noConfusion

/-- The conversion changes no difficulty that a digest can reach. -/
theorem toInt_eq {n : Nat} (h : n ≤ 256) : toInt n = n := by
  unfold toInt
  rw [Int.bmod_eq_of_le (by omega) (by omega)]

/-- **The search for a difficulty that some nonce reaches.** -/
theorem meets_of_reaches (htoken : pr.b64uDec token = some raw.data) (purpose nick : CString)
    (start : UInt64) {difficulty : Nat} {nonce : UInt64}
    (hreach : Reaches pr.sha256 raw.data purpose nick difficulty nonce) :
    Meets (fun fuel => powSolve pr fuel token purpose nick (toInt difficulty) start)
      (Reaches pr.sha256 raw.data purpose nick difficulty) start := by
  have hsmall : difficulty ≤ 256 :=
    (le_leadingZeroBits_iff.mpr hreach).trans (leadingZeroBits_le _)
  have hpasses : ∀ n, decide ((leadingZeroBits (pr.sha256 (preimage raw.data purpose nick n)) : Int)
      ≥ toInt difficulty) = true ↔ Reaches pr.sha256 raw.data purpose nick difficulty n := by
    intro n
    rw [decide_eq_true_iff, toInt_eq hsmall, ge_iff_le, Int.ofNat_le, le_leadingZeroBits_iff]
    rfl
  obtain ⟨k, hk, hnonce⟩ := exists_steps start nonce
  constructor
  case halts =>
    refine ⟨2 ^ 64, fun hrun => ?_⟩
    rw [powSolve_eq htoken] at hrun
    split at hrun
    · exact Solve.noConfusion hrun
    · rename_i hnone
      have hfail := search_eq_none_iff.mp hnone k hk
      rw [iterate_succ, hnonce, Bool.eq_false_iff, ne_eq, hpasses] at hfail
      exact hfail hreach
  case first =>
    intro fuel found hfound
    rw [powSolve_eq htoken] at hfound
    split at hfound
    · rename_i n hsome
      obtain rfl := Solve.found.inj hfound
      obtain ⟨m, -, hm, hpass, hbefore⟩ := search_eq_some_iff.mp hsome
      simp only [iterate_succ, Bool.eq_false_iff, ne_eq, hpasses] at hm hpass hbefore
      refine ⟨m, ?_, hm, hpass, hbefore⟩
      -- the nonce that is there is not passed by
      by_contra hlong
      refine hbefore k (by omega) ?_
      rw [hnonce]
      exact hreach
    · exact Solve.noConfusion hfound
  case error =>
    intro hnone
    exact absurd hreach (hnone nonce)

/-- **The proof of work.** For every token of 64 bytes, the search that `cmd_register` starts meets
    its purpose exactly if some nonce reaches the difficulty that the server sent. -/
theorem search_meets_iff (htoken : pr.b64uDec token = some raw.data) (purpose nick : CString)
    (start : UInt64) (difficulty : Nat) :
    Meets (fun fuel => powSolve pr fuel token purpose nick (toInt difficulty) start)
        (Reaches pr.sha256 raw.data purpose nick difficulty) start
      ↔ ∃ nonce, Reaches pr.sha256 raw.data purpose nick difficulty nonce := by
  constructor
  · intro h
    by_contra hnone
    rw [not_exists] at hnone
    obtain ⟨fuel, hfailed⟩ := h.error hnone
    exact powSolve_ne_failed htoken fuel purpose nick _ start hfailed
  · intro h
    obtain ⟨nonce, hreach⟩ := h
    exact meets_of_reaches htoken purpose nick start hreach

theorem registerPow_eq (fuel : Nat) (nick token : CString) {powDiff : Int} (h : 0 < powDiff) :
    registerPow pr fuel nick (some token) (some powDiff)
      = powSolve pr fuel token (.lit "register") nick (toInt powDiff) 0 :=
  if_neg (Int.not_le.mpr h)

/-- No digest has that many bits, and the search goes on. -/
theorem powSolve_running (htoken : pr.b64uDec token = some raw.data) (fuel : Nat)
    (purpose nick : CString) {difficulty : Int} (h : 256 < difficulty) (start : UInt64) :
    powSolve pr fuel token purpose nick difficulty start = .running := by
  rw [powSolve_eq htoken, search_eq_none_iff.mpr]
  intro k _
  have hle := leadingZeroBits_le (pr.sha256 (preimage raw.data purpose nick ((· + 1)^[k] start)))
  exact decide_eq_false (by omega)

/-- Every digest is good enough, and the search is over. -/
theorem powSolve_at_once (htoken : pr.b64uDec token = some raw.data) (fuel : Nat)
    (purpose nick : CString) {difficulty : Int} (h : difficulty ≤ 0) (start : UInt64) :
    powSolve pr (fuel + 1) token purpose nick difficulty start = .found start := by
  rw [powSolve_eq htoken, search, if_pos (decide_eq_true (by omega))]

end

/-! ### Samples -/

/-- The base64url text of 64 bytes. -/
def sampleToken : CString :=
  .lit "BwcHBwcHBwcHBwcHBwcHBwcHBwcHBwcHBwcHBwcHBwcHBwcHBwcHBwcHBwcHBwcHBwcHBwcHBwcHBwcHBwcHBw"

/-- A decoder that knows one text, and any hash. -/
def powPrims (sha256 : List UInt8 → Bytes 32) : AuthPrims :=
  { samplePrims with
    b64uDec := fun s => if s = sampleToken then some (List.replicate 64 7) else none
    sha256 := sha256 }

theorem powPrims_token (sha256 : List UInt8 → Bytes 32) :
    (powPrims sha256).b64uDec sampleToken
      = some (⟨List.replicate 64 7, rfl⟩ : Bytes 64).data := by
  simp [powPrims]

/-- A stand-in for SHA-256: the third nonce is good for eight bits. -/
def sampleDigest (text : List UInt8) : Bytes 32 :=
  ⟨(if text.getLast? = some 3 then 0 else 255) :: List.replicate 31 255, rfl⟩

theorem search_meets_iff_sample :
    Meets (fun fuel => powSolve (powPrims sampleDigest) fuel sampleToken (.lit "register")
        (.lit "alice") (toInt 8) 0)
      (Reaches sampleDigest (List.replicate 64 7) (.lit "register") (.lit "alice") 8) 0 := by
  refine (search_meets_iff (powPrims_token _) _ _ 0 8).mpr ⟨3, ?_⟩
  unfold Reaches
  decide

/-- **Two difficulties that no nonce reaches**, whatever the hash. With 257 the registration never
    comes to an end; with `2 ^ 32`, which becomes 0, it goes on with the first nonce. -/
theorem register_without_proof :
    (∀ sha256 fuel, registerPow (powPrims sha256) fuel (.lit "alice") (some sampleToken)
      (some 257) = .running)
    ∧ (∀ sha256, registerPow (powPrims sha256) 1 (.lit "alice") (some sampleToken)
      (some (2 ^ 32)) = .found 0)
    ∧ ∀ sha256 nonce, ¬ Reaches sha256 (List.replicate 64 7) (.lit "register") (.lit "alice")
      (2 ^ 32) nonce := by
  refine ⟨?_, ?_, ?_⟩
  · intro sha256 fuel
    rw [registerPow_eq fuel _ _ (by decide)]
    exact powSolve_running (powPrims_token sha256) fuel _ _ (by decide) 0
  · intro sha256
    rw [registerPow_eq 1 _ _ (by decide)]
    exact powSolve_at_once (powPrims_token sha256) 0 _ _ (by decide) 0
  · intro sha256 nonce hreach
    have hlen := hreach.length_le
    rw [List.length_replicate, length_digestBits] at hlen
    omega

end Nexum.Cli.Pow
