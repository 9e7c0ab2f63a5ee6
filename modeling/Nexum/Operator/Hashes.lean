import Nexum.Operator.Escrow

/-!
# What the operator's hashes stand for

A snapshot and a proposal are named by the BLAKE3 hash of their fields, each with its length in
front. That length has 32 bits and wraps, and the inputs of a proposal are written into one part
with nothing between them, so a reader who goes by the prefixes can be led astray.

The hashed text still determines the fields. Every part but the inputs has a fixed length; so the
length of the whole gives that of the inputs, each of which has 32 bytes, and the prefixes are not
needed (`ProposalContents.text_injective`). Texts of the two kinds differ in their first part.

Hashes of 32 bytes cannot all be different. That BLAKE3 is free of collisions is taken to mean that
there are none among the texts that are ever hashed, whatever these are.
-/

namespace Nexum.Operator

open Nexum.Lib

/-! ## 1. The hashed texts -/

structure SnapshotContents where
  escrowId : Hash32
  buyerPk : Hash32
  merchantPk : Hash32
  operatorPk : Hash32
  fundingNoteCommit : Hash32
  spendPolicyCommit : Hash32
  amount : UInt64
  timeoutBlock : UInt64
  deriving DecidableEq

structure ProposalContents where
  escrowId : Hash32
  snapshotHash : Hash32
  action : UInt8
  inputNoteCommits : List Hash32
  outputRecipientPk : Hash32
  fee : UInt64
  deriving DecidableEq

def SnapshotContents.hash (blake3 : List UInt8 → Hash32) (c : SnapshotContents) : Hash32 :=
  computeSnapshotHash blake3 c.escrowId c.buyerPk c.merchantPk c.operatorPk c.fundingNoteCommit
    c.spendPolicyCommit c.amount c.timeoutBlock

def ProposalContents.hash (blake3 : List UInt8 → Hash32) (c : ProposalContents) : Hash32 :=
  computeProposalHash blake3 c.escrowId c.snapshotHash c.action c.inputNoteCommits
    c.outputRecipientPk c.fee

/-- The parts after the domain. -/
def SnapshotContents.parts (c : SnapshotContents) : List (List UInt8) :=
  [c.escrowId.data, c.buyerPk.data, c.merchantPk.data, c.operatorPk.data, c.fundingNoteCommit.data,
    c.spendPolicyCommit.data, leBytes 8 c.amount.toNat, leBytes 8 c.timeoutBlock.toNat]

def ProposalContents.parts (c : ProposalContents) : List (List UInt8) :=
  [c.escrowId.data, c.snapshotHash.data, [c.action], c.inputNoteCommits.flatMap Bytes.data,
    c.outputRecipientPk.data, leBytes 8 c.fee.toNat]

def SnapshotContents.text (c : SnapshotContents) : List UInt8 :=
  (utf8 snapshotHashDomain :: c.parts).flatMap lenPrefixed

def ProposalContents.text (c : ProposalContents) : List UInt8 :=
  (utf8 proposalHashDomain :: c.parts).flatMap lenPrefixed

theorem SnapshotContents.hash_eq (blake3 : List UInt8 → Hash32) (c : SnapshotContents) :
    c.hash blake3 = blake3 c.text := rfl

theorem ProposalContents.hash_eq (blake3 : List UInt8 → Hash32) (c : ProposalContents) :
    c.hash blake3 = blake3 c.text := rfl

/-! ## 2. The texts determine the contents -/

theorem lenPrefixed_append_inj {a b s t : List UInt8} (hlen : a.length = b.length)
    (h : lenPrefixed a ++ s = lenPrefixed b ++ t) : a = b ∧ s = t := by
  unfold lenPrefixed at h
  rw [hlen, List.append_assoc, List.append_assoc] at h
  exact List.append_inj (List.append_cancel_left h) hlen

/-- Parts of the same lengths. -/
theorem flatMap_lenPrefixed_inj {ps qs : List (List UInt8)}
    (hlen : ps.map List.length = qs.map List.length)
    (h : ps.flatMap lenPrefixed = qs.flatMap lenPrefixed) : ps = qs := by
  induction ps generalizing qs with
  | nil => exact (List.map_eq_nil_iff.mp hlen.symm).symm
  | cons p ps ih =>
    cases qs with
    | nil => exact absurd hlen (by simp)
    | cons q qs =>
      rw [List.map_cons, List.map_cons, List.cons.injEq] at hlen
      obtain ⟨hpq, hrest⟩ := lenPrefixed_append_inj hlen.1 h
      rw [hpq, ih hlen.2 hrest]

theorem length_flatMap_lenPrefixed (ps : List (List UInt8)) :
    (ps.flatMap lenPrefixed).length = 4 * ps.length + (ps.map List.length).sum := by
  induction ps with
  | nil => rfl
  | cons p ps ih =>
    simp only [List.flatMap_cons, List.length_append, ih, lenPrefixed, length_leBytes,
      List.map_cons, List.sum_cons, List.length_cons]
    omega

theorem SnapshotContents.text_injective : Function.Injective SnapshotContents.text := by
  intro c d h
  have hlen : c.parts.map List.length = d.parts.map List.length := by
    simp [SnapshotContents.parts, Bytes.len]
  have hparts := flatMap_lenPrefixed_inj hlen (lenPrefixed_append_inj rfl h).2
  simp only [SnapshotContents.parts, List.cons.injEq, and_true] at hparts
  obtain ⟨hid, hbuyer, hmerchant, hoperator, hnote, hpolicy, hamount, htimeout⟩ := hparts
  cases c
  cases d
  rw [SnapshotContents.mk.injEq]
  exact ⟨Bytes.ext_data hid, Bytes.ext_data hbuyer, Bytes.ext_data hmerchant,
    Bytes.ext_data hoperator, Bytes.ext_data hnote, Bytes.ext_data hpolicy,
    leBytes_toNat_inj hamount, leBytes_toNat_inj htimeout⟩

theorem ProposalContents.text_injective : Function.Injective ProposalContents.text := by
  intro c d h
  have hrest : c.parts.flatMap lenPrefixed = d.parts.flatMap lenPrefixed :=
    (lenPrefixed_append_inj rfl h).2
  -- the inputs are the only part whose length is not fixed
  have hinputs : (c.inputNoteCommits.flatMap Bytes.data).length
      = (d.inputNoteCommits.flatMap Bytes.data).length := by
    have htotal := congrArg List.length hrest
    simp only [length_flatMap_lenPrefixed, ProposalContents.parts, List.map_cons, List.map_nil,
      List.sum_cons, Bytes.len, length_leBytes, List.length_cons] at htotal
    omega
  have hlen : c.parts.map List.length = d.parts.map List.length := by
    simp only [ProposalContents.parts, List.map_cons, List.map_nil, Bytes.len, length_leBytes,
      hinputs, List.length_singleton]
  have hparts := flatMap_lenPrefixed_inj hlen hrest
  simp only [ProposalContents.parts, List.cons.injEq, and_true] at hparts
  obtain ⟨hid, hsnapshot, haction, hflat, hrecipient, hfee⟩ := hparts
  cases c
  cases d
  rw [ProposalContents.mk.injEq]
  exact ⟨Bytes.ext_data hid, Bytes.ext_data hsnapshot, haction,
    Bytes.flatMap_data_injective (by decide) hflat, Bytes.ext_data hrecipient,
    leBytes_toNat_inj hfee⟩

theorem snapshot_text_ne_proposal_text (s : SnapshotContents) (p : ProposalContents) :
    s.text ≠ p.text := by
  intro h
  have hlen : (utf8 snapshotHashDomain).length = (utf8 proposalHashDomain).length := by decide
  have hdomains : utf8 snapshotHashDomain ≠ utf8 proposalHashDomain := by decide
  exact hdomains (lenPrefixed_append_inj hlen h).1

/-! ## 3. The hashes identify the contents -/

/-- **The operator's hashes identify their contents.** Where BLAKE3 has no collision among the
    texts that are hashed, equal snapshot hashes belong to equal fields, equal proposal hashes to
    equal fields and inputs in the same order, however many, and no snapshot has the hash of a
    proposal. -/
theorem operator_hashes_identify (blake3 : List UInt8 → Hash32) (hashed : Set (List UInt8))
    (hfree : Set.InjOn blake3 hashed) :
    (∀ s s' : SnapshotContents, s.text ∈ hashed → s'.text ∈ hashed →
      s.hash blake3 = s'.hash blake3 → s = s')
    ∧ (∀ p p' : ProposalContents, p.text ∈ hashed → p'.text ∈ hashed →
      p.hash blake3 = p'.hash blake3 → p = p')
    ∧ ∀ (s : SnapshotContents) (p : ProposalContents), s.text ∈ hashed → p.text ∈ hashed →
      s.hash blake3 ≠ p.hash blake3 := by
  refine ⟨?_, ?_, ?_⟩
  · intro s s' hs hs' heq
    rw [SnapshotContents.hash_eq, SnapshotContents.hash_eq] at heq
    exact SnapshotContents.text_injective (hfree hs hs' heq)
  · intro p p' hp hp' heq
    rw [ProposalContents.hash_eq, ProposalContents.hash_eq] at heq
    exact ProposalContents.text_injective (hfree hp hp' heq)
  · intro s p hs hp heq
    rw [SnapshotContents.hash_eq, ProposalContents.hash_eq] at heq
    exact snapshot_text_ne_proposal_text s p (hfree hs hp heq)

def sampleContents : ProposalContents := ⟨fill 1, fill 9, 1, [fill 187, fill 188], fill 2, 100⟩

/-- The same inputs the other way round. -/
def swappedContents : ProposalContents :=
  { sampleContents with inputNoteCommits := [fill 188, fill 187] }

/-- A stand-in for BLAKE3 which keeps the two texts apart. -/
def samplePick (text : List UInt8) : Hash32 := if text = sampleContents.text then fill 1 else fill 2

theorem operator_hashes_identify_sample :
    sampleContents.hash samplePick ≠ swappedContents.hash samplePick := by
  have hne : sampleContents ≠ swappedContents := by decide
  have hother : swappedContents.text ≠ sampleContents.text :=
    fun h => hne (ProposalContents.text_injective h).symm
  have hfree : Set.InjOn samplePick {sampleContents.text, swappedContents.text} := by
    intro x hx y hy h
    have hdistinct : fill 1 ≠ fill 2 := by decide
    rcases hx with rfl | rfl <;> rcases hy with rfl | rfl <;>
      simp_all [samplePick, hdistinct.symm]
  intro heq
  exact hne ((operator_hashes_identify samplePick _ hfree).2.1 _ _ (.inl rfl) (.inr rfl) heq)

end Nexum.Operator
