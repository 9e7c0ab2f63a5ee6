import Nexum.Lib.Text

/-!
# Monero addresses

`is_valid_xmr_address`: the block-wise base58 of Monero, the table of network bytes, and the
four checksum bytes. Keccak-256 is a parameter — the digest is computed by a third-party crate,
and nothing proved in this development depends on which function it is.
-/

namespace Nexum.Escrow

open Nexum.Lib

def xmrB58Alphabet : List Char :=
  "123456789ABCDEFGHJKLMNPQRSTUVWXYZabcdefghijkmnopqrstuvwxyz".toList

def b58Value (ch : Char) : Option Nat :=
  xmrB58Alphabet.idxOf? ch

def decodedBlockSize : Nat → Option Nat
  | 2 => some 1
  | 3 => some 2
  | 5 => some 3
  | 6 => some 4
  | 7 => some 5
  | 9 => some 6
  | 10 => some 7
  | 11 => some 8
  | _ => none

/-- The digits of one block, most significant first. The accumulator is refused as soon as it
    leaves 64 bits, so the 128-bit product before the test cannot overflow. -/
def blockValue : Nat → List Char → Option Nat
  | acc, [] => some acc
  | acc, ch :: rest => do
    let digit ← b58Value ch
    let acc' := acc * 58 + digit
    if acc' > 2 ^ 64 - 1 then none else blockValue acc' rest

def decodeBlock (input : List Char) (outLen : Nat) : Option (List UInt8) := do
  let acc ← blockValue 0 input
  if outLen < 8 ∧ acc ≥ 2 ^ (outLen * 8) then none
  else some ((List.range outLen).map fun idx => UInt8.ofNat (acc >>> (8 * (outLen - 1 - idx))))

/-- The whole blocks of eleven characters, then the remainder. -/
def decodeBlocks : Nat → List Char → Option (List UInt8)
  | 0, rest =>
    if rest.isEmpty then some []
    else do
      let size ← decodedBlockSize rest.length
      decodeBlock rest size
  | n + 1, input => do
    let block ← decodeBlock (input.take 11) 8
    let tail ← decodeBlocks n (input.drop 11)
    some (block ++ tail)

def decodeMoneroBase58 (input : List Char) : Option (List UInt8) := do
  if input.isEmpty then none
  -- a remainder of an impossible length fails before any block is decoded
  else if input.length % 11 ≠ 0 ∧ decodedBlockSize (input.length % 11) = none then none
  else decodeBlocks (input.length / 11) input

/-- Standard and subaddresses carry 65 bytes, integrated addresses 73. -/
def validPrefixForPayload (head : UInt8) (payloadLen : Nat) : Bool :=
  match payloadLen with
  | 65 => [18, 24, 36, 42, 53, 63].contains head
  | 73 => [19, 25, 54].contains head
  | _ => false

def isValidXmrAddress (keccak256 : List UInt8 → List UInt8) (addr : String) : Bool :=
  let trimmed := trim addr
  if ¬ (trimmed.utf8ByteSize = 95 ∨ trimmed.utf8ByteSize = 106) then false
  else if ¬ trimmed.toList.all (·.toNat < 128) then false
  else
    match decodeMoneroBase58 trimmed.toList with
    | none => false
    | some decoded =>
      if decoded.length < 5 then false
      else
        let payloadLen := decoded.length - 4
        let payload := decoded.take payloadLen
        let checksum := decoded.drop payloadLen
        match payload with
        | [] => false
        | head :: _ =>
          validPrefixForPayload head payload.length
            && checksum == (keccak256 payload).take 4

end Nexum.Escrow
