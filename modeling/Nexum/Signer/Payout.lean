import Nexum.Signer.Snapshot
import Mathlib.Algebra.Order.BigOperators.Group.List
import Mathlib.Algebra.Group.Action.Defs

/-!
# What an accepted transfer pays

A snapshot's amount rules read as promises about *addresses*: the seller gets exactly this much.
`validate_transfer_against_snapshot` holds them against *outputs*. `RespectsPolicy` is the
promise, stated over everything the wallet described — totals per address, the true sum of the
fees, every row's unlock time and dummy outputs — and `accepted_respects_policy_iff` says how
far an acceptance gets:

> **an accepted transfer keeps the promise exactly when no address is paid by two outputs whose
> total its rule forbids, and the fee total did not run off the top of a 64-bit word.**

Neither exception is looked at by the code. `accepted_pays_twice` is the first one at work: two
outputs of 100 to an address whose rule is "exactly 100" pass every check.
-/

namespace Nexum.Signer

open Nexum.Lib Nexum.Lib.Check
open Nexum.Transport (EscrowAction)

/-! ## 1. What a description says -/

/-- The outputs one row reports in full. -/
def DescribeTransferRow.outputs (row : DescribeTransferRow) : List TransferRecipient :=
  (row.recipients.getD []).filterMap fun r =>
    match r.address, r.amount with
    | some address, some amount => some ⟨address, amount⟩
    | _, _ => none

/-- The outputs of the whole set, row after row. -/
def outputs (desc : List DescribeTransferRow) : List TransferRecipient :=
  desc.flatMap DescribeTransferRow.outputs

/-- The amounts of the outputs to one address. -/
def amountsTo (desc : List DescribeTransferRow) (address : String) : List Nat :=
  ((outputs desc).filter (·.address == address)).map (·.amount.toNat)

def totalTo (desc : List DescribeTransferRow) (address : String) : Nat :=
  (amountsTo desc address).sum

def fees (desc : List DescribeTransferRow) : List UInt64 :=
  desc.map (·.fee.getD 0)

/-- The exact sum of the fees, no word size involved. -/
def feeSum (desc : List DescribeTransferRow) : Nat :=
  ((fees desc).map UInt64.toNat).sum

def AmountRule.Allows : AmountRule → Nat → Prop
  | .exact amount, n => n = amount.toNat
  | .range min max, n => min.toNat ≤ n ∧ n ≤ max.toNat

/-- **The promise of a snapshot**, over all rows together. -/
structure RespectsPolicy (snapshot : ContractSnapshot) (action : EscrowAction)
    (desc : List DescribeTransferRow) : Prop where
  listed : ∀ r ∈ outputs desc, ∃ rule, (snapshot.policy action).ruleFor r.address = some rule
  totals : ∀ r ∈ outputs desc, ∀ rule, (snapshot.policy action).ruleFor r.address = some rule →
    rule.amount.Allows (totalTo desc r.address)
  required : ∀ rule ∈ (snapshot.policy action).allowedRecipients, rule.required = true →
    ∃ r ∈ outputs desc, r.address = rule.address
  fees : feeSum desc ≤ snapshot.feeCapAtomic.toNat
  unlock : snapshot.requireUnlockTimeZero = true → ∀ row ∈ desc, row.unlockTime = some 0
  dummies : (snapshot.policy action).allowDummyOutputs = false →
    ∀ row ∈ desc, row.dummyOutputs = some 0

/-- Several outputs that a rule allows one by one, totalling `total`: whether it also allows
    the total. Under `Exact` only outputs of nothing add up to the same amount again. -/
def AmountRule.AllowsRepeated : AmountRule → Nat → Prop
  | .exact amount, _ => amount = 0
  | .range _ max, total => total ≤ max.toNat

/-- **What the per-output check leaves open.** An address paid by several outputs is harmless
    under `Exact 0`, or under a range its total still fits; the fee total is only in doubt when
    the cap is the largest word there is. -/
structure TotalsUnambiguous (snapshot : ContractSnapshot) (action : EscrowAction)
    (desc : List DescribeTransferRow) : Prop where
  repeated : ∀ address rule, (snapshot.policy action).ruleFor address = some rule →
    2 ≤ (amountsTo desc address).length → rule.amount.AllowsRepeated (totalTo desc address)
  overflow : snapshot.feeCapAtomic.toNat = u64Max → feeSum desc ≤ u64Max

/-! ## 2. Condensing the description -/

theorem readRecipient_eq_ok {i rIdx : Nat} {r : DescribeTransferRecipient}
    {out : TransferRecipient} (h : readRecipient i rIdx r = .ok out) :
    r.address = some out.address ∧ r.amount = some out.amount := by
  simp only [readRecipient, bind_eq_ok, failIf_eq_ok, exists_unit, okOr_eq_ok, pure_eq_ok]
    at h
  obtain ⟨address, haddr, -, amount, hamount, rfl⟩ := h
  exact ⟨haddr, hamount⟩

theorem readRecipients_eq_ok {i : Nat} {rs : List DescribeTransferRecipient} {rIdx : Nat}
    {outs : List TransferRecipient} (h : readRecipients i rIdx rs = .ok outs) :
    outs = rs.filterMap fun r =>
      match r.address, r.amount with
      | some address, some amount => some ⟨address, amount⟩
      | _, _ => none := by
  induction rs generalizing rIdx outs with
  | nil =>
    simp only [readRecipients, pure_eq_ok] at h
    exact h.symm
  | cons r rs ih =>
    simp only [readRecipients, bind_eq_ok, pure_eq_ok] at h
    obtain ⟨out, hout, others, hothers, rfl⟩ := h
    obtain ⟨haddr, hamount⟩ := readRecipient_eq_ok hout
    rw [List.filterMap_cons, haddr, hamount, ← ih hothers]

theorem checkUnlock_eq_ok {known : Option UInt64} {item : UInt64} :
    checkUnlock known item = .ok () ↔ known = none ∨ known = some item := by
  cases known with
  | none => simp [checkUnlock]
  | some v => simp [checkUnlock]

theorem addRow_eq_ok {i : Nat} {item : DescribeTransferRow} {t t' : DescribeTotals}
    (h : addRow i item t = .ok t') :
    t'.recipients = t.recipients ++ item.outputs ∧
    t'.feeTotal = satAdd t.feeTotal (item.fee.getD 0) ∧
    t'.dummyOutputsTotal = satAdd t.dummyOutputsTotal (item.dummyOutputs.getD 0) ∧
    item.dummyOutputs.isSome ∧
    (∃ u, item.unlockTime = some u ∧ t'.unlockTime = some u ∧
      (t.unlockTime = none ∨ t.unlockTime = some u)) := by
  simp only [addRow, bind_eq_ok, failIf_eq_ok, exists_unit, okOr_eq_ok, pure_eq_ok]
    at h
  obtain ⟨fee, hfee, unlock, hunlock, dummy, hdummy, rows, hrows, -, hknown, outs, houts,
    rfl⟩ := h
  have hread : outs = item.outputs := by
    rw [readRecipients_eq_ok houts, DescribeTransferRow.outputs, hrows]
    rfl
  refine ⟨by rw [hread], by rw [hfee]; rfl, by rw [hdummy]; rfl, by rw [hdummy]; rfl, ?_⟩
  exact ⟨unlock, hunlock, rfl, checkUnlock_eq_ok.mp hknown⟩

/-- **The loop.** The outputs are appended in order, fees and dummy outputs are saturating
    sums, and every row shows one and the same unlock time. -/
theorem addRows_eq_ok {i : Nat} {desc : List DescribeTransferRow} {t t' : DescribeTotals}
    (h : addRows i desc t = .ok t') :
    t'.recipients = t.recipients ++ outputs desc ∧
    t'.feeTotal = satSum t.feeTotal (fees desc) ∧
    t'.dummyOutputsTotal = satSum t.dummyOutputsTotal (desc.map (·.dummyOutputs.getD 0)) ∧
    (∀ row ∈ desc, row.dummyOutputs.isSome) ∧
    (∀ row ∈ desc, row.unlockTime.isSome ∧ row.unlockTime = t'.unlockTime) ∧
    (t.unlockTime = none ∨ t.unlockTime = t'.unlockTime) := by
  induction desc generalizing i t with
  | nil =>
    simp only [addRows, pure_eq_ok] at h
    subst h
    simp [outputs, fees, satSum]
  | cons item rest ih =>
    simp only [addRows, bind_eq_ok] at h
    obtain ⟨t₁, hrow, hrest⟩ := h
    obtain ⟨hrec, hfee, hdummy, hsome, u, hitem, hu, hknown⟩ := addRow_eq_ok hrow
    obtain ⟨hrec', hfee', hdummy', hsome', hunlock', hlast⟩ := ih hrest
    have hfinal : t'.unlockTime = some u := by
      rcases hlast with hnone | hsame
      · rw [hu] at hnone
        exact absurd hnone (by simp)
      · rw [← hsame, hu]
    refine ⟨?_, ?_, ?_, ?_, ?_, ?_⟩
    · rw [hrec', hrec, List.append_assoc]
      rfl
    · rw [hfee', hfee]
      rfl
    · rw [hdummy', hdummy]
      rfl
    · exact List.forall_mem_cons.mpr ⟨hsome, hsome'⟩
    · refine List.forall_mem_cons.mpr ⟨?_, hunlock'⟩
      rw [hitem, hfinal]
      exact ⟨rfl, rfl⟩
    · rw [hfinal]
      exact hknown

theorem transferCheckFromDesc_eq_ok {desc : List DescribeTransferRow} {t : TransferCheck}
    (h : transferCheckFromDesc desc = .ok t) :
    t.recipients = outputs desc ∧ t.fee.toNat = min (feeSum desc) u64Max ∧
    (∀ row ∈ desc, row.unlockTime = some t.unlockTime) ∧
    (t.dummyOutputs = 0 ↔ ∀ row ∈ desc, row.dummyOutputs = some 0) := by
  simp only [transferCheckFromDesc, bind_eq_ok, failIf_eq_ok, exists_unit, pure_eq_ok] at h
  obtain ⟨-, tot, hrows, -, rfl⟩ := h
  obtain ⟨hrec, hfee, hdummy, hsome, hunlock, -⟩ := addRows_eq_ok hrows
  refine ⟨by simpa [DescribeTotals.start] using hrec, ?_, ?_, ?_⟩
  · show tot.feeTotal.toNat = _
    rw [hfee, toNat_satSum]
    simp [DescribeTotals.start, feeSum]
  · intro row hrow
    obtain ⟨hs, he⟩ := hunlock row hrow
    obtain ⟨u, hu⟩ := Option.isSome_iff_exists.mp hs
    rw [hu] at he
    simp [hu, ← he]
  · -- a saturating sum is zero only when every summand is
    show tot.dummyOutputsTotal = 0 ↔ _
    have hzero : tot.dummyOutputsTotal = 0 ↔
        ∀ row ∈ desc, (row.dummyOutputs.getD 0).toNat = 0 := by
      have hmax : u64Max ≠ 0 := by simp [u64Max]
      rw [← UInt64.toNat_inj, hdummy, toNat_satSum]
      simp only [DescribeTotals.start, UInt64.toNat_zero, Nat.zero_add, Nat.min_eq_zero_iff, hmax,
        or_false, List.sum_eq_zero_iff, List.forall_mem_map]
    rw [hzero]
    refine forall₂_congr fun row hrow => ?_
    obtain ⟨d, hd⟩ := Option.isSome_iff_exists.mp (hsome row hrow)
    rw [hd, Option.getD_some, Option.some_inj, ← UInt64.toNat_inj, UInt64.toNat_zero]

/-! ## 3. Acceptance, output by output -/

theorem checkAmount_eq_ok {r : TransferRecipient} {rule : AmountRule} :
    checkAmount r rule = .ok () ↔ rule.Allows r.amount.toNat := by
  cases rule with
  | exact amount => simp [checkAmount, AmountRule.Allows, UInt64.toNat_inj]
  | range min max =>
    simp only [checkAmount, AmountRule.Allows, failIf_eq_ok, not_or, UInt64.not_lt, gt_iff_lt,
      UInt64.le_iff_toNat_le]

/-- What `validate_transfer_against_snapshot` has established when it accepts. -/
theorem validate_eq_ok {snapshot : ContractSnapshot} {action : EscrowAction} {t : TransferCheck}
    (h : validateTransferAgainstSnapshot snapshot action t = .ok ()) :
    t.fee.toNat ≤ snapshot.feeCapAtomic.toNat ∧
    (snapshot.requireUnlockTimeZero = true → t.unlockTime = 0) ∧
    ((snapshot.policy action).allowDummyOutputs = false → t.dummyOutputs = 0) ∧
    (∀ r ∈ t.recipients, ∃ rule, (snapshot.policy action).ruleFor r.address = some rule ∧
      rule.amount.Allows r.amount.toNat) ∧
    (∀ rule ∈ (snapshot.policy action).allowedRecipients, rule.required = true →
      ∃ r ∈ t.recipients, r.address = rule.address) := by
  simp only [validateTransferAgainstSnapshot, bind_eq_ok, failIf_eq_ok, exists_unit, forM_eq_ok]
    at h
  obtain ⟨-, hfee, hunlock, hdummy, hrec, hreq⟩ := h
  refine ⟨?_, ?_, ?_, ?_, ?_⟩
  · exact UInt64.le_iff_toNat_le.mp (UInt64.not_lt.mp hfee)
  · intro hz
    by_contra hne
    exact hunlock ⟨hz, hne⟩
  · intro hz
    by_contra hne
    exact hdummy ⟨by simp [hz], UInt64.pos_iff_ne_zero.mpr hne⟩
  · intro r hr
    have hcheck := hrec r hr
    simp only [checkRecipient, bind_eq_ok, okOr_eq_ok] at hcheck
    obtain ⟨rule, hrule, hamount⟩ := hcheck
    exact ⟨rule, hrule, checkAmount_eq_ok.mp hamount⟩
  · intro rule hrule hneed
    have hcheck := hreq rule hrule
    simp only [checkRequired, failIf_eq_ok, not_and, not_not] at hcheck
    exact hcheck hneed

/-! ## 4. From outputs to totals -/

theorem allows_sum_iff {rule : AmountRule} {xs : List Nat} (hne : xs ≠ [])
    (hall : ∀ x ∈ xs, rule.Allows x) :
    rule.Allows xs.sum ↔ (2 ≤ xs.length → rule.AllowsRepeated xs.sum) := by
  match xs with
  | [] => exact absurd rfl hne
  | [x] =>
    have hx := hall x (by simp)
    simpa using hx
  | x :: y :: rest =>
    have hlen : 2 ≤ (x :: y :: rest).length := by simp
    cases rule with
    | exact amount =>
      -- every amount is the same, so the sum is at least twice that
      have hrep : x :: y :: rest = List.replicate (rest.length + 2) amount.toNat :=
        List.eq_replicate_iff.mpr ⟨by simp, hall⟩
      rw [hrep, List.sum_replicate, smul_eq_mul]
      simp only [AmountRule.Allows, AmountRule.AllowsRepeated, List.length_replicate,
        Nat.le_add_left, forall_const, ← UInt64.toNat_inj, UInt64.toNat_zero]
      constructor
      · intro hsum
        rcases Nat.eq_zero_or_pos amount.toNat with hz | hpos
        · exact hz
        · have htwo : 2 * amount.toNat ≤ (rest.length + 2) * amount.toNat :=
            Nat.mul_le_mul_right _ (by omega)
          omega
      · intro hz
        rw [hz, Nat.mul_zero]
    | range min max =>
      have hx : min.toNat ≤ x := (hall x (by simp)).1
      have hsum : x ≤ (x :: y :: rest).sum := List.le_sum_of_mem (by simp)
      simp only [AmountRule.Allows, AmountRule.AllowsRepeated, hlen, forall_const]
      exact ⟨fun h => h.2, fun h => ⟨hx.trans hsum, h⟩⟩

theorem amountsTo_ne_nil {desc : List DescribeTransferRow} {r : TransferRecipient}
    (hr : r ∈ outputs desc) : amountsTo desc r.address ≠ [] := by
  have hmem : r ∈ (outputs desc).filter (·.address == r.address) :=
    List.mem_filter.mpr ⟨hr, by simp⟩
  intro hnil
  rw [amountsTo, List.map_eq_nil_iff] at hnil
  rw [hnil] at hmem
  exact absurd hmem List.not_mem_nil

theorem mem_amountsTo {desc : List DescribeTransferRow} {address : String} {x : Nat} :
    x ∈ amountsTo desc address ↔ ∃ r ∈ outputs desc, r.address = address ∧ r.amount.toNat = x := by
  simp [amountsTo, and_assoc]

theorem feeSum_le_iff {desc : List DescribeTransferRow} {cap : UInt64}
    (h : min (feeSum desc) u64Max ≤ cap.toNat) :
    feeSum desc ≤ cap.toNat ↔ (cap.toNat = u64Max → feeSum desc ≤ u64Max) := by
  have hcap : cap.toNat ≤ u64Max := toNat_le_u64Max cap
  constructor
  · intro hle _
    exact hle.trans hcap
  · intro himp
    by_cases heq : cap.toNat = u64Max
    · rw [heq]
      exact himp heq
    · rw [Nat.min_def] at h
      split at h
      · exact h
      · omega

/-- **How far an acceptance gets.** For every description, snapshot and action that the two
    checks let through, the snapshot's promise holds exactly when the totals are unambiguous. -/
theorem accepted_respects_policy_iff {desc : List DescribeTransferRow}
    {snapshot : ContractSnapshot} {action : EscrowAction} {t : TransferCheck}
    (hdesc : transferCheckFromDesc desc = .ok t)
    (hval : validateTransferAgainstSnapshot snapshot action t = .ok ()) :
    RespectsPolicy snapshot action desc ↔ TotalsUnambiguous snapshot action desc := by
  obtain ⟨hrec, hfee, hunlock, hdummy⟩ := transferCheckFromDesc_eq_ok hdesc
  obtain ⟨hcap, hzero, hnodummy, heach, hreq⟩ := validate_eq_ok hval
  rw [hrec] at heach hreq
  rw [hfee] at hcap
  -- every amount paid to an address passed that address's rule
  have hallowed : ∀ address rule, (snapshot.policy action).ruleFor address = some rule →
      ∀ x ∈ amountsTo desc address, rule.amount.Allows x := by
    intro address rule hrule x hx
    obtain ⟨r, hr, rfl, rfl⟩ := mem_amountsTo.mp hx
    obtain ⟨rule', hrule', hok⟩ := heach r hr
    rw [hrule] at hrule'
    exact Option.some.inj hrule' ▸ hok
  constructor
  · intro hp
    refine ⟨?_, (feeSum_le_iff hcap).mp hp.fees⟩
    intro address rule hrule hlen
    have hne : amountsTo desc address ≠ [] := by
      intro hnil
      rw [hnil] at hlen
      exact absurd hlen (by simp)
    obtain ⟨x, hx⟩ := List.exists_mem_of_ne_nil _ hne
    obtain ⟨r, hr, rfl, -⟩ := mem_amountsTo.mp hx
    have htotal := hp.totals r hr rule hrule
    exact (allows_sum_iff hne (hallowed _ rule hrule)).mp htotal hlen
  · intro hu
    refine ⟨?_, ?_, hreq, (feeSum_le_iff hcap).mpr hu.overflow, ?_, ?_⟩
    · intro r hr
      obtain ⟨rule, hrule, -⟩ := heach r hr
      exact ⟨rule, hrule⟩
    · intro r hr rule hrule
      have hiff := allows_sum_iff (amountsTo_ne_nil hr) (hallowed _ rule hrule)
      exact hiff.mpr fun hlen => hu.repeated r.address rule hrule hlen
    · intro hz row hrow
      rw [hunlock row hrow, hzero hz]
    · intro hz row hrow
      exact hdummy.mp (hnodummy hz) row hrow

/-! ## 5. The two kinds of transfer -/

/-- A release that pays the seller, and nobody else, exactly 100. -/
def sellerGets100 : ContractSnapshot where
  appProto := "nxms-escrow/v1"
  escrowIdHex := "00112233445566778899aabbccddeeff"
  buyerId := "buyer"
  sellerId := "seller"
  arbiterId := "arbiter"
  releasePolicy := ⟨[⟨"seller-address", .exact 100, true⟩], false, false⟩
  refundPolicy := ⟨[⟨"buyer-address", .exact 100, true⟩], false, false⟩
  feeCapAtomic := 10
  requireUnlockTimeZero := true
  createdAtUnixMs := 1
  updatedAtUnixMs := 1

/-- One transaction with these outputs to the seller and a fee of 7. -/
def payingSeller (amounts : List UInt64) : List DescribeTransferRow :=
  [{ recipients := some (amounts.map fun x => ⟨some "seller-address", some x⟩)
     fee := some 7
     unlockTime := some 0
     dummyOutputs := some 0 }]

/-- The seller gets up to 150, in any number of transactions, and the arbiter 5. -/
def sharedRelease : ContractSnapshot :=
  { sellerGets100 with releasePolicy := ⟨[⟨"seller-address", .range 50 150, true⟩,
      ⟨"arbiter-address", .exact 5, false⟩], true, false⟩ }

/-- A second transaction pays the arbiter. -/
def sharedPayout : List DescribeTransferRow :=
  payingSeller [60, 70] ++ [{ recipients := some [⟨some "arbiter-address", some 5⟩]
                              fee := some 2
                              unlockTime := some 0
                              dummyOutputs := some 0 }]

theorem accepted_shared_payout :
    totalTo sharedPayout "seller-address" = 130 ∧ feeSum sharedPayout = 9
      ∧ (RespectsPolicy sharedRelease .release sharedPayout ↔
        TotalsUnambiguous sharedRelease .release sharedPayout) :=
  ⟨rfl, rfl, accepted_respects_policy_iff (t := ⟨2, [⟨"seller-address", 60⟩,
    ⟨"seller-address", 70⟩, ⟨"arbiter-address", 5⟩], 9, 0, 0⟩) rfl rfl⟩

/-- **Twice the exact amount is accepted.** Each of the two outputs is 100, so each passes; the
    seller is paid 200. -/
theorem accepted_pays_twice :
    ∃ t, transferCheckFromDesc (payingSeller [100, 100]) = .ok t ∧
      validateTransferAgainstSnapshot sellerGets100 .release t = .ok () ∧
      totalTo (payingSeller [100, 100]) "seller-address" = 200 ∧
      ¬ RespectsPolicy sellerGets100 .release (payingSeller [100, 100]) := by
  refine ⟨⟨1, [⟨"seller-address", 100⟩, ⟨"seller-address", 100⟩], 7, 0, 0⟩, rfl, rfl, rfl, ?_⟩
  intro h
  have hpaid : (⟨"seller-address", 100⟩ : TransferRecipient) ∈ outputs (payingSeller [100, 100]) :=
    List.mem_cons_self
  have htotal : totalTo (payingSeller [100, 100]) "seller-address" = 100 :=
    h.totals _ hpaid ⟨"seller-address", .exact 100, true⟩ rfl
  exact absurd htotal (by decide)

end Nexum.Signer
