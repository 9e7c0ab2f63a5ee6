import Mathlib.Algebra.Order.Ring.Nat
import Nexum.Lib.History

/-!
# How often a nonce was used

Every request under digest authentication carries a nonce of the server and a count, and a server
may refuse a pair it has seen. The wallet client keeps one count for the nonce it was handed last:
`next_digest_nc_for_nonce` compares the nonce **under a lock** and starts the count again if it is
another one, and draws the next number **after the lock is released**. So a call is two steps, and
the steps of other calls may come in between.

**Pairs are repeated in two ways** (`count_repeated`): an older nonce is used again after a newer
one, or the count is started again between the two steps of a call. Where neither happens, and no
nonce is used more than `2 ^ 32 - 1` times in a row, all pairs are different (`counts_differ`).
-/

namespace Nexum.Signer.DigestCount

open Nexum.Lib

/-- The client, the calls that are between their two steps, and what was sent, newest first. -/
structure Client where
  digestNonce : Option String
  digestNc : UInt32
  entered : Nat → Option String
  sent : List (String × UInt32)

inductive Event
  /-- A task compares the nonce it was handed. -/
  | compare (task : Nat) (nonce : String)
  /-- A task draws its number. -/
  | nextDigestNc (task : Nat)

def Client.set (c : Client) (task : Nat) (nonce : Option String) : Nat → Option String :=
  fun t => if t = task then nonce else c.entered t

/-- One step. A task that is in a call does not begin another one. -/
def Client.step (c : Client) : Event → Client
  | .compare task nonce =>
    if (c.entered task).isSome then c
    else if c.digestNonce ≠ some nonce then
      { c with digestNonce := some nonce, digestNc := 0, entered := c.set task (some nonce) }
    else { c with entered := c.set task (some nonce) }
  | .nextDigestNc task =>
    match c.entered task with
    | none => c
    | some nonce =>
      -- `fetch_add` gives the number before, and both additions wrap around
      { c with
        digestNc := c.digestNc + 1
        entered := c.set task none
        sent := (nonce, max (c.digestNc + 1) 1) :: c.sent }

def client : Server Client Event Unit := ⟨fun c event => ((), c.step event)⟩

def fresh : Client := ⟨none, 0, fun _ => none, []⟩

/-- **What is asked of a step.** The count is started again only for a nonce that was never used,
    and a number is drawn only while the nonce of the call is the current one. -/
def Steady (c : Client) : Event → Prop
  | .compare _ nonce => c.digestNonce = some nonce ∨ ∀ nc, (nonce, nc) ∉ c.sent
  | .nextDigestNc task => ∀ nonce, c.entered task = some nonce →
    c.digestNonce = some nonce ∧ c.digestNc.toNat + 1 < 2 ^ 32

/-- **The invariant**: under the current nonce nothing above the count was sent. -/
structure Counted (c : Client) : Prop where
  differ : c.sent.Nodup
  below : ∀ nonce nc, (nonce, nc) ∈ c.sent → c.digestNonce = some nonce →
    nc.toNat ≤ c.digestNc.toNat

/-- The next number, as long as there is one. -/
theorem toNat_next {nc : UInt32} (h : nc.toNat + 1 < 2 ^ 32) :
    (nc + 1).toNat = nc.toNat + 1 ∧ max (nc + 1) 1 = nc + 1 := by
  have hnext : (nc + 1).toNat = nc.toNat + 1 := by
    rw [UInt32.toNat_add]
    exact Nat.mod_eq_of_lt h
  refine ⟨hnext, ?_⟩
  have hle : 1 ≤ nc + 1 := by
    rw [UInt32.le_iff_toNat_le, hnext]
    exact Nat.succ_le_succ (Nat.zero_le _)
  show (if nc + 1 ≤ 1 then 1 else nc + 1) = nc + 1
  split
  · rename_i hone
    exact UInt32.le_antisymm hle hone
  · rfl

theorem Counted.step {c : Client} {event : Event} (h : Counted c) (hok : Steady c event) :
    Counted (c.step event) := by
  cases event with
  | compare task nonce =>
    simp only [Client.step]
    split
    · exact h
    · split
      · rename_i hother
        refine ⟨h.differ, fun n nc hsent hcurrent => ?_⟩
        -- the count starts again, for a nonce that was not used before
        have hunused := hok.resolve_left hother
        cases hcurrent
        exact absurd hsent (hunused nc)
      · exact ⟨h.differ, h.below⟩
  | nextDigestNc task =>
    simp only [Client.step]
    split
    · exact h
    · rename_i nonce hentered
      obtain ⟨hcurrent, hlimit⟩ := hok nonce hentered
      obtain ⟨hnext, hmax⟩ := toNat_next hlimit
      simp only [hmax]
      constructor
      · refine List.nodup_cons.mpr ⟨fun hsent => ?_, h.differ⟩
        have hle := h.below nonce _ hsent hcurrent
        rw [hnext] at hle
        omega
      · intro n nc hsent hn
        rw [hnext]
        rcases List.mem_cons.mp hsent with heq | hsent
        · cases heq
          exact Nat.le_of_eq hnext
        · exact Nat.le_succ_of_le (h.below n nc hsent hn)

/-- **All pairs differ**, over any interleaving of calls whose steps meet the condition. -/
theorem counts_differ (events : List Event) (h : client.Along Steady fresh events) :
    (client.after fresh events).sent.Nodup := by
  have hfresh : Counted fresh := ⟨List.nodup_nil, nofun⟩
  have hcounted : Counted (client.after fresh events) :=
    client.invariant (fun _ _ hok hc => hc.step hok) hfresh events h
  exact hcounted.differ

/-- A call that nothing interrupts. -/
def call (task : Nat) (nonce : String) : List Event := [.compare task nonce, .nextDigestNc task]

theorem counts_differ_sample : (client.after fresh (call 1 "a" ++ call 2 "a")).sent.Nodup := by
  refine counts_differ _ ⟨.inr nofun, ?_, .inl rfl, ?_, trivial⟩
  · intro nonce hnonce
    exact ⟨hnonce, by decide⟩
  · intro nonce hnonce
    exact ⟨hnonce, by decide⟩

/-- **Repeated pairs**: one task uses the nonces `a`, `b` and `a` again; or a task is between its
    steps for `a` when another one is handed `b`. -/
theorem count_repeated :
    (client.after fresh (call 1 "a" ++ call 1 "b" ++ call 1 "a")).sent
        = [("a", 1), ("b", 1), ("a", 1)]
    ∧ (client.after fresh
        (call 1 "a" ++ [.compare 1 "a", .compare 2 "b", .nextDigestNc 1])).sent
      = [("a", 1), ("a", 1)] := by
  decide

end Nexum.Signer.DigestCount
