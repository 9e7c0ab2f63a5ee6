import Nexum.Peer.Exchange

/-!
# The numbers of the peer's requests

A number is taken in three steps: the state file is read, it is written back with the next number,
and the request is pushed under that number. No lock is held in between. Two calls that read before
either of them writes take the same number (`same_number_twice`); the source promises that gaps are
allowed, but replays and out-of-order sends are not.

The file is kept whole, so a call for one escrow also writes back what it read of every other. What
is needed is therefore that a call reads the file only when no call, for any escrow, is between its
read and its push. Then the numbers pushed for an escrow go up by every push
(`numbers_increase`), as long as the stored number is not the last one there is.
-/

namespace Nexum.Peer

open Nexum.Lib Nexum.Lib.Prog Nexum.Lib.Pool
open Nexum.Transport
open Nexum.Signer (Peer PulledMessage SealedPacket envelopeOf)

/-! ## 1. Where a call is in taking its number -/

inductive Draft
  | idle
  | read (escrow : String) (state : SeqState)
  | drawn (escrow : String) (seq : Nat)

def Draft.next : Draft → (c : Call) → Except String c.Out → Draft
  | _, .readSeqState escrow, .ok state => .read escrow state
  | .read escrow state, .writeSeqState _, .ok _ => .drawn escrow (nextSeq state escrow)
  | .read _ _, .writeSeqState _, .error _ => .idle
  | _, .push _ _, _ => .idle
  | g, _, _ => g

/-- Where the call numbered `i` is. -/
def draftOf (i : Nat) (l : List Event) : Draft :=
  book Draft.next .idle i l

/-- What is written is what was read, with the next number of the escrow in it; what is pushed
    carries the number that was drawn. -/
def Draft.may (g : Draft) : Call → Prop
  | .writeSeqState state' => ∃ escrow state, g = .read escrow state
      ∧ state' = Function.update state escrow (some (nextSeq state escrow))
  | .push env _ => g = .drawn env.escrowIdHex env.seq
  | _ => True

abbrev draftRules : Rules Call Call.Out String Draft := keeping Draft.next Draft.may

/-- The calls that take no number and push nothing. -/
def Call.aside : Call → Bool
  | .readSeqState _ | .writeSeqState _ | .push _ _ => false
  | _ => true

theorem next_aside {c : Call} (hc : c.aside = true) (g : Draft) (r : Except String c.Out) :
    g.next c r = g := by
  cases c with
  | readSeqState _ => cases hc
  | writeSeqState _ => cases hc
  | push _ _ => cases hc
  | _ => cases g <;> rfl

theorem ignores_aside : draftRules.Ignores fun c => c.aside = true := by
  intro g c hc
  refine ⟨?_, ?_⟩
  · cases c with
    | writeSeqState _ => cases hc
    | push _ _ => cases hc
    | _ => trivial
  · rintro r g' rfl
    exact next_aside hc g r

section
variable {host : PeerHost} {cfg : SignReqConfig} {r : Request} {seq : Nat} {g : Draft}

theorem only_scan (messages : List PulledMessage) :
    Only (fun c => c.aside = true) (scan host r seq messages) fun _ => True := by
  rw [scan_eq]
  cases messages.find? (fun msg => r.awaits msg.envelope) with
  | none => exact .pure trivial
  | some msg =>
    have hreceive : Only (fun c => c.aside = true) (receive host r seq msg) fun _ => True :=
      .ofExcept_bind fun _ _ => .ofExcept_bind fun _ _ => .perform_bind rfl fun _ _ _ =>
        .pure trivial
    exact hreceive.bind fun _ _ _ => .pure trivial

theorem only_poll (deadline fuel : Nat) :
    Only (fun c => c.aside = true) (poll host cfg r seq deadline fuel) fun _ => True := by
  induction fuel with
  | zero => exact .pure trivial
  | succ fuel ih =>
    refine .perform_bind rfl fun messages _ _ => (only_scan messages).bind ?_
    rintro (_ | outcome) _ -
    · refine .perform_bind rfl ?_
      intro (now : Nat) _ _
      exact .failIf_bind fun _ => ih
    · exact .pure trivial

theorem draft_nextOutSeq (escrow : String) :
    Ensures draftRules (nextOutSeq escrow) g fun n g' => g' = .drawn escrow n := by
  refine .perform_bind trivial ?_
  rintro state g₁ rfl
  refine .perform_bind ⟨escrow, state, rfl, rfl⟩ ?_
  rintro _ g₂ rfl
  exact .pure rfl

theorem draft_roundTrip (fuel : Nat) :
    Ensures draftRules (roundTrip host cfg r seq fuel) (.drawn r.escrowIdHex seq)
      fun _ _ => True := by
  refine .perform_bind trivial ?_
  rintro packet g₁ rfl
  refine .ofExcept_bind fun _ _ => .ofExcept_bind fun _ _ => ?_
  refine .perform_bind rfl ?_
  rintro _ g₂ rfl
  refine .perform_bind trivial ?_
  rintro start g₃ rfl
  exact ((only_poll _ fuel).ensures ignores_aside _).mono fun _ _ _ => trivial

end

theorem Task.follows_draft (host : PeerHost) (q : Task) :
    wp draftRules (q.prog host) (fun _ _ => True) .idle := by
  have h : Ensures draftRules (q.prog host) .idle fun _ _ => True := by
    cases q with
    | answer request reply => exact .perform_bind trivial fun _ _ _ => .pure trivial
    | signReq fuel cfg =>
      refine .ofExcept_bind fun r _ => (draft_nextOutSeq r.escrowIdHex).bind ?_
      rintro seq _ rfl
      exact draft_roundTrip fuel
  exact wp_mono (ensures_iff.mp h) fun _ _ _ => trivial

/-! ## 2. The condition, and the numbers -/

/-- The number last stored for the escrow. -/
def lastStored (escrow : String) (w : World) : Nat :=
  (w.seqState escrow).getD 0

/-- The number a push for the escrow carries, whether or not it is reported to have gone well. -/
def pushedFor (escrow : String) : Event → Option Nat
  | .did _ _ (.push env _) _ => if env.escrowIdHex = escrow then some env.seq else none
  | _ => none

/-- The numbers that were pushed for the escrow, newest first. -/
def pushedSeqs (escrow : String) (l : List Event) : List Nat :=
  l.filterMap (pushedFor escrow)

/-- The condition on a step: the file is read when no other call is between its read and its push,
    and there is a next number. -/
def OneAllocates (escrow : String) (w : World) (l : List Event) : Event → Prop
  | .did i _ (.readSeqState e) (.ok _) =>
    (∀ j, j ≠ i → Live j l → draftOf j l = .idle) ∧ (e = escrow → lastStored escrow w < u64Max)
  | _ => True

instance : ∀ d : Draft, Decidable (d = .idle)
  | .idle => isTrue rfl
  | .read .. | .drawn .. => isFalse Draft.noConfusion

instance (escrow : String) (w : World) (l : List Event) (e : Event) :
    Decidable (OneAllocates escrow w l e) := by
  dsimp only [OneAllocates]
  split
  · have hothers := fun i => forall_flow_iff (P := fun j => j ≠ i → Live j l → draftOf j l = .idle)
      fun j hj _ _ => book_fresh hj
    have := fun i => decidable_of_iff' _ (hothers i)
    infer_instance
  · infer_instance

/-! ## 3. What is kept along a run -/

section
variable {host : PeerHost} {signer : Peer} {escrow : String} {w w' : World} {l : List Event}
  {i : Nat} {q : Task}

/-- **The pushed numbers go up to the one last stored**, and who has read or drawn is alone. -/
structure Allocated (escrow : String) (w : World) (l : List Event) : Prop where
  increasing : (pushedSeqs escrow l).Pairwise (· > ·)
  stored : ∀ n ∈ pushedSeqs escrow l, n ≤ lastStored escrow w
  reading : ∀ i e state, Live i l → draftOf i l = .read e state →
    state = w.seqState ∧ (e = escrow → lastStored escrow w < u64Max)
  drawn : ∀ i n, Live i l → draftOf i l = .drawn escrow n →
    n = lastStored escrow w ∧ ∀ m ∈ pushedSeqs escrow l, m < n
  alone : ∀ i j, Live i l → Live j l → draftOf i l ≠ .idle → draftOf j l ≠ .idle → i = j

theorem Allocated.stay {e : Event} (h : Allocated escrow w l) (hstate : w'.seqState = w.seqState)
    (hpushed : pushedFor escrow e = none) (hdraft : ∀ j, draftOf j (e :: l) = draftOf j l) :
    Allocated escrow w' (e :: l) := by
  have hsame : pushedSeqs escrow (e :: l) = pushedSeqs escrow l := by
    simp only [pushedSeqs, List.filterMap_cons, hpushed]
  have hlast : lastStored escrow w' = lastStored escrow w := by simp only [lastStored, hstate]
  refine ⟨?_, ?_, ?_, ?_, ?_⟩
  · rw [hsame]
    exact h.increasing
  · rw [hsame, hlast]
    exact h.stored
  · intro j e' state hj hread
    rw [hdraft] at hread
    rw [hstate, hlast]
    exact h.reading j e' state (live_cons.mp hj).2 hread
  · intro j n hj hdrawn
    rw [hdraft] at hdrawn
    rw [hsame, hlast]
    exact h.drawn j n (live_cons.mp hj).2 hdrawn
  · intro j k hj hk hj' hk'
    rw [hdraft] at hj' hk'
    exact h.alone j k (live_cons.mp hj).2 (live_cons.mp hk).2 hj' hk'

theorem draftOf_did {c : Call} {r : Except String c.Out}
    (hsame : (draftOf i l).next c r = draftOf i l) (j : Nat) :
    draftOf j (.did i q c r :: l) = draftOf j l := by
  by_cases hj : j = i
  · subst hj
    exact book_did_self.trans hsame
  · exact book_did_of_ne hj

theorem Allocated.solo {c : Call} {r : Except String c.Out} (hlive : Live i l)
    (hothers : ∀ j, j ≠ i → Live j l → draftOf j l = .idle)
    (hincreasing : (pushedSeqs escrow (.did i q c r :: l)).Pairwise (· > ·))
    (hstored : ∀ n ∈ pushedSeqs escrow (.did i q c r :: l), n ≤ lastStored escrow w')
    (hreading : ∀ e state, (draftOf i l).next c r = .read e state →
      state = w'.seqState ∧ (e = escrow → lastStored escrow w' < u64Max))
    (hdrawn : ∀ n, (draftOf i l).next c r = .drawn escrow n →
      n = lastStored escrow w' ∧ ∀ m ∈ pushedSeqs escrow (.did i q c r :: l), m < n) :
    Allocated escrow w' (.did i q c r :: l) := by
  have hself : draftOf i (.did i q c r :: l) = (draftOf i l).next c r := book_did_self
  -- whoever is not idle is the one that made the step
  have hbusy : ∀ j, Live j (.did i q c r :: l) → draftOf j (.did i q c r :: l) ≠ .idle →
      j = i := by
    intro j hj hne
    by_contra hij
    have heq : draftOf j (.did i q c r :: l) = draftOf j l := book_did_of_ne hij
    rw [heq, hothers j hij (live_cons.mp hj).2] at hne
    exact hne rfl
  refine ⟨hincreasing, hstored, ?_, ?_, ?_⟩
  · intro j e state hj hread
    obtain rfl := hbusy j hj (by rw [hread]; simp)
    rw [hself] at hread
    exact hreading e state hread
  · intro j n hj hd
    obtain rfl := hbusy j hj (by rw [hd]; simp)
    rw [hself] at hd
    exact hdrawn n hd
  · intro j k hj hk hj' hk'
    rw [hbusy j hj hj', hbusy k hk hk']

theorem Allocated.others (h : Allocated escrow w l) (hlive : Live i l)
    (hbusy : draftOf i l ≠ .idle) {j : Nat} (hne : j ≠ i) (hj : Live j l) :
    draftOf j l = .idle := by
  by_contra hnot
  exact hne (h.alone j i hj hlive hnot hbusy)

theorem nextSeq_eq {state : SeqState} (hroom : (state escrow).getD 0 < u64Max) :
    nextSeq state escrow = (state escrow).getD 0 + 1 := by
  unfold nextSeq
  omega

theorem Allocated.write {state : SeqState} {r : Except String Unit}
    (h : Allocated escrow w l) (hlive : Live i l)
    (hmay : (draftOf i l).may (.writeSeqState state))
    (hexec : exec host signer w (.writeSeqState state) r w') :
    Allocated escrow w' (.did i q (.writeSeqState state) r :: l) := by
  obtain ⟨e, before, hread, rfl⟩ := hmay
  obtain ⟨rfl, hroom⟩ := h.reading i e before hlive hread
  obtain ⟨-, hstate, hok⟩ := exec_writes hexec
  -- the stored number does not go down, whether or not the write took effect
  have hup : lastStored escrow w ≤ lastStored escrow w' := by
    rcases hstate with hstate | hstate
    · exact Nat.le_of_eq (by simp only [lastStored, hstate])
    · unfold lastStored
      rw [hstate]
      by_cases he : e = escrow
      · subst he
        have hnext := nextSeq_eq (hroom rfl)
        simp only [Function.update_self, Option.getD_some]
        omega
      · rw [Function.update_of_ne (Ne.symm he)]
  refine .solo hlive (fun j => h.others hlive (by rw [hread]; simp)) h.increasing ?_ ?_ ?_
  · exact fun n hn => Nat.le_trans (h.stored n hn) hup
  · intro e' state' hnext
    rw [hread] at hnext
    cases r <;> cases hnext
  · intro n hnext
    rw [hread] at hnext
    cases r with
    | error _ => cases hnext
    | ok _ =>
      cases hnext
      have hnext := nextSeq_eq (hroom rfl)
      have hlast : lastStored escrow w' = nextSeq w.seqState escrow := by
        unfold lastStored
        rw [hok rfl, Function.update_self, Option.getD_some]
      refine ⟨hlast.symm, fun m hm => ?_⟩
      have hle : m ≤ (w.seqState escrow).getD 0 := h.stored m hm
      omega

theorem Allocated.push {env : NxmsEnvelope} {ttlSecs : Nat} {r : Except String Unit}
    (h : Allocated escrow w l) (hlive : Live i l) (hmay : (draftOf i l).may (.push env ttlSecs))
    (hstate : w'.seqState = w.seqState) :
    Allocated escrow w' (.did i q (.push env ttlSecs) r :: l) := by
  have hdrawn : draftOf i l = .drawn env.escrowIdHex env.seq := hmay
  have hlast : lastStored escrow w' = lastStored escrow w := by simp only [lastStored, hstate]
  have hidle : (draftOf i l).next (.push env ttlSecs) r = .idle := by rw [hdrawn]; rfl
  have hothers : ∀ j, j ≠ i → Live j l → draftOf j l = .idle :=
    fun j => h.others hlive (by rw [hdrawn]; simp)
  by_cases hescrow : env.escrowIdHex = escrow
  · have hpushed : pushedSeqs escrow (.did i q (.push env ttlSecs) r :: l)
        = env.seq :: pushedSeqs escrow l := by
      simp only [pushedSeqs, List.filterMap_cons, pushedFor, if_pos hescrow]
    rw [hescrow] at hdrawn
    obtain ⟨hseq, habove⟩ := h.drawn i env.seq hlive hdrawn
    refine .solo hlive hothers ?_ ?_ (by simp [hidle]) (by simp [hidle])
    · rw [hpushed]
      exact List.pairwise_cons.mpr ⟨habove, h.increasing⟩
    · intro n hn
      rw [hpushed] at hn
      rw [hlast]
      rcases List.mem_cons.mp hn with rfl | hn
      · exact Nat.le_of_eq hseq
      · exact h.stored n hn
  · have hpushed : pushedSeqs escrow (.did i q (.push env ttlSecs) r :: l)
        = pushedSeqs escrow l := by
      simp only [pushedSeqs, List.filterMap_cons, pushedFor, if_neg hescrow]
    refine .solo hlive hothers ?_ ?_ (by simp [hidle]) (by simp [hidle])
    · rw [hpushed]
      exact h.increasing
    · rw [hpushed, hlast]
      exact h.stored

theorem Allocated.read {e : String} {r : Except String SeqState}
    (h : Allocated escrow w l) (hlive : Live i l)
    (hexec : exec host signer w (.readSeqState e) r w')
    (hok : OneAllocates escrow w l (.did i q (.readSeqState e) r)) :
    Allocated escrow w' (.did i q (.readSeqState e) r :: l) := by
  cases r with
  | error err =>
    obtain rfl := exec_idle hexec rfl
    refine h.stay rfl rfl (draftOf_did ?_)
    cases draftOf i l <;> rfl
  | ok state =>
    obtain ⟨rfl, rfl⟩ := exec_reads hexec
    have hnext : (draftOf i l).next (.readSeqState e) (.ok w'.seqState) = .read e w'.seqState := by
      cases draftOf i l <;> rfl
    refine .solo hlive hok.1 h.increasing h.stored ?_ ?_
    · intro e' state' hread
      cases hnext.symm.trans hread
      exact ⟨rfl, hok.2⟩
    · intro n hdrawn
      cases hnext.symm.trans hdrawn

/-- **One call.** -/
theorem Allocated.did {c : Call} {r : Except String c.Out} (h : Allocated escrow w l)
    (hlive : Live i l) (hmay : (draftOf i l).may c) (hexec : exec host signer w c r w')
    (hok : OneAllocates escrow w l (.did i q c r)) :
    Allocated escrow w' (.did i q c r :: l) := by
  have haside : c.aside = true → w'.seqState = w.seqState → pushedFor escrow (.did i q c r) = none →
      Allocated escrow w' (.did i q c r :: l) :=
    fun hc hstate hpushed => h.stay hstate hpushed (draftOf_did (next_aside hc _ r))
  cases c with
  | readSeqState e => exact h.read hlive hexec hok
  | writeSeqState state => exact h.write hlive hmay hexec
  | push env ttlSecs => exact h.push hlive hmay (exec_pushes hexec).1
  | answer request reply =>
    rcases exec_answers hexec with rfl | ⟨-, -, hstate, -⟩
    · exact haside rfl rfl rfl
    · exact haside rfl hstate rfl
  | _ =>
    obtain rfl := exec_idle hexec rfl
    exact haside rfl rfl rfl

end

/-! ## 4. Whole runs -/

/-- **The numbers pushed for an escrow go up**, in every run in which the file is read only when no
    other call is between its read and its push, and the stored number is not the last one there
    is. -/
theorem numbers_increase (host : PeerHost) (signer : Peer) (escrow : String) {w₀ : World}
    {p : Pool World Task Call Call.Out String (Option SignReqOutcome)}
    (hrun : Run (trading host signer) (OneAllocates escrow) w₀ p) :
    (pushedSeqs escrow p.log).Pairwise (· > ·) := by
  have hinv : Allocated escrow p.state p.log := by
    refine Run.inv_books Draft.next Draft.may (fun _ _ _ => True) (fun _ => .idle)
      (Task.follows_draft host) ?_ ?_ ?_ ?_ ?_ ?_ hrun
    · refine ⟨.nil, by simp [pushedSeqs], ?_, ?_, ?_⟩
      · intro i e state _ hread
        cases hread
      · intro i n _ hdrawn
        cases hdrawn
      · intro i j _ _ hne
        exact absurd rfl hne
    · intro s l i q hi _ _
      exact hi.stay rfl rfl fun _ => rfl
    · intro s l i q c r s' hi hlive hmay hexec hok
      exact hi.did hlive hmay hexec hok
    · intro s l i q x hi _ _ _
      exact hi.stay rfl rfl fun _ => rfl
    · intro s l i q hi _
      exact hi.stay rfl rfl fun _ => rfl
    · rintro s l _ hi rfl
      exact hi
  exact hinv.increasing

/-! ### Two histories -/

theorem numbers_increase_in_turn :
    ∃ p, Run (trading sampleHost sampleSigner) (OneAllocates sampleEscrow) ⟨fun _ => none, []⟩ p
      ∧ pushedSeqs sampleEscrow p.log = [2, 1]
      ∧ (pushedSeqs sampleEscrow p.log).Pairwise (· > ·) := by
  have hplay : (follow (player sampleHost sampleSigner) (OneAllocates sampleEscrow · · ·)
      ⟨fun _ => none, []⟩
      [.start 0 (.signReq 1 sampleConfig), .calls 0 [.works, .works, .works, .fails], .close 0,
        .start 1 (.signReq 1 sampleConfig), .calls 1 [.works, .works, .works, .works]]).any
          (fun p => pushedSeqs sampleEscrow p.log = [2, 1]) = true := by
    decide +kernel
  obtain ⟨p, hrun, hp⟩ := follow_run (fun _ _ _ => of_decide_eq_true) hplay
  exact ⟨p, hrun, of_decide_eq_true hp, numbers_increase _ _ _ hrun⟩

/-- **Two calls read the file before either of them writes it, and push under one number.** -/
theorem same_number_twice :
    ∃ p, Run (trading sampleHost sampleSigner) anyStep ⟨fun _ => none, []⟩ p
      ∧ ¬ (pushedSeqs sampleEscrow p.log).Pairwise (· > ·) := by
  have hplay : (follow (player sampleHost sampleSigner) (fun _ _ _ => true) ⟨fun _ => none, []⟩
      [.start 0 (.signReq 1 sampleConfig), .start 1 (.signReq 1 sampleConfig),
        .calls 0 [.works], .calls 1 [.works], .calls 0 [.works, .works, .works],
        .calls 1 [.works, .works, .works]]).any
          (fun p => pushedSeqs sampleEscrow p.log = [1, 1]) = true := by
    decide +kernel
  obtain ⟨p, hrun, hp⟩ := follow_run (fun _ _ _ _ => trivial) hplay
  refine ⟨p, hrun, ?_⟩
  rw [of_decide_eq_true hp]
  decide

end Nexum.Peer
