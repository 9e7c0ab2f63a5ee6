import Nexum.Peer.Exchange

/-!
# What the poll loop makes of an inbox

Anyone who may push to the mailbox can put an envelope into the peer's inbox that carries the
signer's name, the escrow and the right type. The loop opens the first such envelope, and a failure
to open it, or a body that is no response, ends the call: the authentic response behind it is never
looked at (`forged_envelope_ends_call`).

Here the mailbox works and time does not run out while there is something to pull; what the pulls
return is arbitrary, and so is how the acknowledgement goes. The response is returned exactly when
it is the first envelope that is not skipped and its acknowledgement is reported done
(`takes_response_iff`). An acknowledgement that is carried out but reported failed loses it: it is
gone from the mailbox, and the call returns an error.
-/

namespace Nexum.Peer

open Nexum.Lib Nexum.Lib.Prog
open Nexum.Transport
open Nexum.Signer (Peer PulledMessage SealedPacket envelopeOf)

/-! ## 1. An inbox -/

/-- How the acknowledgement goes. -/
inductive AckReply
  | reported
  | failed
  | unreported
  deriving DecidableEq

/-- What the pulls will return, the time at which waiting began, whether the request was pushed, and
    what the mailbox has been told to remove. -/
structure Inbox where
  batches : List (List PulledMessage)
  since : Option Nat
  pushed : Bool
  acked : List NxmsEnvelope

/-- A working mailbox. As long as there is a batch left, the deadline has not passed. -/
def serving (timeoutSecs : Nat) (ack : AckReply) : Services Call Call.Out String Inbox
  | s, .push _ _, .ok _, s' => s' = { s with pushed := true }
  | s, .pull _ _ _, .ok messages, s' =>
    messages = s.batches.headD [] ∧ s' = { s with batches := s.batches.tail }
  | _, .pull _ _ _, .error _, _ => False
  | s, .ack _ env, .ok _, s' => ack = .reported ∧ s' = { s with acked := env :: s.acked }
  | s, .ack _ env, .error _, s' =>
    ack = .failed ∧ s' = s ∨ ack = .unreported ∧ s' = { s with acked := env :: s.acked }
  | s, .now, .ok time, s' => s' = { s with since := some (s.since.getD time) }
      ∧ ∀ start, s.since = some start → s.batches ≠ [] → Nat.lt time (start + timeoutSecs * 1000)
  | _, .now, .error _, _ => False
  | s, _, _, s' => s' = s

/-- The first envelope, in the order of delivery, that is not skipped. -/
def firstAwaited (r : Request) (batches : List (List PulledMessage)) : Option PulledMessage :=
  batches.flatten.find? fun msg => r.awaits msg.envelope

/-- What the call makes of an envelope it does not skip. -/
def judge (host : PeerHost) (r : Request) (seq : Nat) (env : NxmsEnvelope) :
    Except String SignReqOutcome := do
  let body ← openSignerBody host.crypto r.signer env
  r.outcomeOf seq body

/-- The outcome of the envelope is returned, and the envelope acknowledged. -/
def Takes (host : PeerHost) (r : Request) (env : NxmsEnvelope)
    (x : Except String (Option SignReqOutcome)) (s : Inbox) : Prop :=
  ∃ seq outcome, judge host r seq env = .ok outcome ∧ x = .ok (some outcome) ∧ env ∈ s.acked

/-! ## 2. The loop -/

/-- How a call ends on the first envelope it does not skip. -/
def Verdict (ack : AckReply) (env : NxmsEnvelope) (judged : Except String SignReqOutcome)
    (x : Except String (Option SignReqOutcome)) (acked : List NxmsEnvelope) : Prop :=
  match judged, ack with
  | .error e, _ => x = .error e ∧ acked = []
  | .ok outcome, .reported => x = .ok (some outcome) ∧ acked = [env]
  | .ok _, .failed => x.isOk = false ∧ acked = []
  | .ok _, .unreported => x.isOk = false ∧ acked = [env]

section
variable {host : PeerHost} {cfg : SignReqConfig} {r : Request} {seq timeoutSecs : Nat}
  {ack : AckReply} {s : Inbox}

theorem receive_eq (msg : PulledMessage) :
    receive host r seq msg = ofExcept (judge host r seq msg.envelope) >>= fun outcome =>
      ask (.ack msg.receipt msg.envelope) >>= fun _ => Pure.pure outcome := by
  unfold receive judge
  cases openSignerBody host.crypto r.signer msg.envelope with
  | error e => rfl
  | ok body => rfl

theorem receive_verdict (msg : PulledMessage) (hacked : s.acked = []) :
    wp (serving timeoutSecs ack).rules (receive host r seq msg) (fun x s' =>
      s'.pushed = s.pushed ∧ Verdict ack msg.envelope (judge host r seq msg.envelope)
        (x.map some) s'.acked) s := by
  rw [receive_eq, wp_bind, wp_ofExcept]
  cases judge host r seq msg.envelope with
  | error e => exact ⟨rfl, rfl, hacked⟩
  | ok outcome =>
    dsimp only
    rw [wp_bind, wp_perform]
    refine ⟨trivial, ?_⟩
    rintro (e | _) s' hexec
    · rcases hexec with ⟨rfl, rfl⟩ | ⟨rfl, rfl⟩
      · exact ⟨rfl, rfl, hacked⟩
      · exact ⟨rfl, rfl, congrArg (msg.envelope :: ·) hacked⟩
    · obtain ⟨rfl, rfl⟩ := hexec
      exact wp_pure.mpr ⟨rfl, rfl, congrArg (msg.envelope :: ·) hacked⟩

theorem scan_verdict {batch : List PulledMessage} {msg : PulledMessage} (hacked : s.acked = [])
    (hfind : batch.find? (fun msg => r.awaits msg.envelope) = some msg) :
    wp (serving timeoutSecs ack).rules (scan host r seq batch) (fun x s' =>
      s'.pushed = s.pushed ∧ x ≠ .ok none
        ∧ Verdict ack msg.envelope (judge host r seq msg.envelope) x s'.acked) s := by
  rw [scan_eq, hfind, Option.elim_some]
  refine wp_seq (receive_verdict msg hacked) ?_ ?_
  · intro outcome s' hv
    exact wp_pure.mpr ⟨hv.1, by simp, hv.2⟩
  · intro e s' hv
    exact ⟨hv.1, by simp, hv.2⟩

/-- **The loop ends on the first envelope it does not skip**, given a batch of fuel for each batch
    of the inbox. -/
theorem poll_verdict {start fuel : Nat} {msg : PulledMessage} (hacked : s.acked = [])
    (hstart : s.since = some start) (hfuel : s.batches.length ≤ fuel)
    (hfirst : firstAwaited r s.batches = some msg) :
    wp (serving cfg.timeoutSecs ack).rules
      (poll host cfg r seq (start + cfg.timeoutSecs * 1000) fuel) (fun x s' =>
        s'.pushed = s.pushed
          ∧ Verdict ack msg.envelope (judge host r seq msg.envelope) x s'.acked) s := by
  -- by the number of batches still allowed; a batch in which everything is skipped leaves the
  -- first one where it was
  induction fuel generalizing s with
  | zero =>
    obtain hnil := List.length_eq_zero_iff.mp (Nat.le_zero.mp hfuel)
    rw [firstAwaited, hnil] at hfirst
    cases hfirst
  | succ fuel ih =>
    obtain ⟨batches, since, pushed, acked⟩ := s
    cases batches with
    | nil => cases hfirst
    | cons batch rest =>
      rw [firstAwaited, List.flatten_cons, List.find?_append] at hfirst
      rw [poll, wp_bind, wp_perform]
      refine ⟨trivial, ?_⟩
      rintro (e | messages) s₁ hexec
      · exact hexec.elim
      · obtain ⟨hmessages, rfl⟩ := hexec
        obtain rfl : batch = messages := hmessages.symm
        cases hfind : batch.find? (fun msg => r.awaits msg.envelope) with
        | some found =>
          rw [hfind, Option.some_or] at hfirst
          obtain rfl := Option.some.inj hfirst
          refine wp_seq (scan_verdict hacked hfind) ?_ ?_
          · rintro (_ | outcome) s₂ ⟨hpushed, hsome, hv⟩
            · exact absurd rfl hsome
            · exact wp_pure.mpr ⟨hpushed, hv⟩
          · rintro e s₂ ⟨hpushed, -, hv⟩
            exact ⟨hpushed, hv⟩
        | none =>
          rw [hfind, Option.none_or] at hfirst
          have hskip : scan host r seq batch = Pure.pure none := by
            rw [scan_eq, hfind, Option.elim_none]
          show wp _ (scan host r seq batch >>= _) _ _
          rw [hskip, wp_bind, wp_pure]
          refine wp_bind.mpr (wp_perform.mpr ⟨trivial, ?_⟩)
          rintro (e | (now : Nat)) s₂ hexec
          · exact hexec.elim
          · obtain ⟨rfl, hbefore⟩ := hexec
            have hrest : rest ≠ [] := by
              rintro rfl
              cases hfirst
            have hnow : now < start + cfg.timeoutSecs * 1000 := hbefore start hstart hrest
            refine wp_bind.mpr (wp_failIf.mpr ⟨?_, fun _ => ?_⟩)
            · exact fun hlate => absurd hlate (Nat.not_le.mpr hnow)
            · have hleft : rest.length ≤ fuel := by simpa using hfuel
              obtain rfl : since = some start := hstart
              exact ih (s := ⟨rest, some start, pushed, acked⟩) hacked rfl hleft hfirst

/-! ## 3. The whole call -/

/-- The calls made before the request is pushed. -/
def Call.prepares : Call → Bool
  | .readSeqState _ | .writeSeqState _ | .encrypt _ _ => true
  | _ => false

theorem ignores_prepares :
    (serving timeoutSecs ack).rules.Ignores fun c => c.prepares = true := by
  intro s c hc
  refine ⟨trivial, ?_⟩
  intro r s' hexec
  cases c with
  | readSeqState _ => cases r <;> exact hexec
  | writeSeqState _ => cases r <;> exact hexec
  | encrypt _ _ => cases r <;> exact hexec
  | _ => cases hc

theorem only_nextOutSeq (escrow : String) :
    Only (fun c => c.prepares = true) (nextOutSeq escrow) fun _ => True :=
  .perform_bind rfl fun _ _ _ => .perform_bind rfl fun _ _ _ => .pure trivial

theorem only_seal (payload : NxmsPayload) :
    Only (fun c => c.prepares = true) (ask (.encrypt r.signer payload)) fun _ => True :=
  .perform rfl fun _ _ _ => trivial

/-- **A call that has pushed its request ends on the first envelope it does not skip.** -/
theorem signReq_verdict {fuel : Nat} {msg : PulledMessage} (hr : checkRequest host cfg = .ok r)
    (hsince : s.since = none) (hpushed : s.pushed = false) (hacked : s.acked = [])
    (hfuel : s.batches.length ≤ fuel) (hfirst : firstAwaited r s.batches = some msg) :
    wp (serving cfg.timeoutSecs ack).rules (signReq host fuel cfg) (fun x s' =>
      s'.pushed = true →
        ∃ seq, Verdict ack msg.envelope (judge host r seq msg.envelope) x s'.acked) s := by
  have hbefore : ¬ s.pushed = true := by simp [hpushed]
  unfold signReq
  rw [hr, wp_bind, wp_ofExcept]
  refine wp_seq ((only_nextOutSeq r.escrowIdHex).wp ignores_prepares s) ?_ ?_
  · rintro seq _ ⟨rfl, -⟩
    unfold roundTrip
    refine wp_seq ((only_seal _).wp ignores_prepares _) ?_ ?_
    · rintro packet _ ⟨rfl, -⟩
      refine wp_bind.mpr (wp_ofExcept.mpr ?_)
      split
      · refine wp_bind.mpr (wp_ofExcept.mpr ?_)
        split
        · refine wp_bind.mpr (wp_perform.mpr ⟨trivial, ?_⟩)
          rintro (e | _) s₁ hexec
          · obtain rfl : s₁ = _ := hexec
            exact fun h => absurd h hbefore
          · obtain rfl : s₁ = _ := hexec
            refine wp_bind.mpr (wp_perform.mpr ⟨trivial, ?_⟩)
            rintro (e | (start : Nat)) s₂ hexec
            · exact hexec.elim
            · obtain ⟨rfl, -⟩ := hexec
              refine wp_mono (poll_verdict hacked ?_ hfuel hfirst) ?_
              · simp only [hsince, Option.getD_none]
              · exact fun x s' hv _ => ⟨seq, hv.2⟩
        · exact fun h => absurd h hbefore
      · exact fun h => absurd h hbefore
    · rintro e _ ⟨rfl, -⟩ h
      exact absurd h hbefore
  · rintro e _ ⟨rfl, -⟩ h
    exact absurd h hbefore

end

/-- **When the authentic response is taken, and when it is lost.** `env` is the response: it is in
    the inbox, it is one the call does not skip, and it has an outcome. The call has pushed its
    request, and has fuel for every batch. Then the outcome of `env` is returned exactly if `env` is
    the first envelope that is not skipped and its acknowledgement is reported; and `env` is
    acknowledged without being returned exactly if it is the first and its acknowledgement is
    carried out but not reported. -/
theorem takes_response_iff (host : PeerHost) (cfg : SignReqConfig) (ack : AckReply) {fuel : Nat}
    {r : Request} {env : NxmsEnvelope} {s s' : Inbox} {x : Except String (Option SignReqOutcome)}
    (hr : checkRequest host cfg = .ok r) (hsince : s.since = none) (hnew : s.pushed = false)
    (hacked : s.acked = []) (hfuel : s.batches.length ≤ fuel)
    (hmem : ∃ msg ∈ s.batches.flatten, msg.envelope = env) (hawaits : r.awaits env = true)
    (hresponse : ∀ seq, ∃ outcome, judge host r seq env = .ok outcome)
    (hrun : Runs (serving cfg.timeoutSecs ack) s (signReq host fuel cfg) x s')
    (hpushed : s'.pushed = true) :
    (Takes host r env x s'
        ↔ (firstAwaited r s.batches).map (·.envelope) = some env ∧ ack = .reported)
      ∧ (env ∈ s'.acked ∧ ¬ Takes host r env x s'
        ↔ (firstAwaited r s.batches).map (·.envelope) = some env ∧ ack = .unreported) := by
  obtain ⟨msg, hfirst⟩ : ∃ msg, firstAwaited r s.batches = some msg := by
    obtain ⟨own, hown, rfl⟩ := hmem
    refine Option.isSome_iff_exists.mp (List.find?_isSome.mpr ⟨own, hown, hawaits⟩)
  obtain ⟨seq, hv⟩ := hrun.post (signReq_verdict hr hsince hnew hacked hfuel hfirst) hpushed
  rw [hfirst, Option.map_some, Option.some.injEq]
  by_cases henv : msg.envelope = env
  · -- the response comes first: it has an outcome, so the acknowledgement decides
    subst henv
    obtain ⟨outcome, houtcome⟩ := hresponse seq
    rw [houtcome] at hv
    cases ack with
    | reported =>
      obtain ⟨rfl, hlist⟩ := hv
      have htakes : Takes host r msg.envelope (.ok (some outcome)) s' :=
        ⟨seq, outcome, houtcome, rfl, by simp [hlist]⟩
      exact ⟨by simp [htakes], by simp [htakes]⟩
    | failed =>
      obtain ⟨hx, hlist⟩ := hv
      have hnot : ¬ Takes host r msg.envelope x s' := by
        rintro ⟨_, _, _, -, hmem⟩
        simp [hlist] at hmem
      exact ⟨by simp [hnot], by simp [hlist]⟩
    | unreported =>
      obtain ⟨hx, hlist⟩ := hv
      have hnot : ¬ Takes host r msg.envelope x s' := by
        rintro ⟨_, _, _, rfl, -⟩
        cases hx
      exact ⟨by simp [hnot], by simp [hnot, hlist]⟩
  · -- another envelope comes first, and it is the only one that can have been acknowledged
    have hnone : env ∉ s'.acked := by
      intro hmem
      have hlist : s'.acked = [] ∨ s'.acked = [msg.envelope] := by
        cases hj : judge host r seq msg.envelope with
        | error e =>
          rw [hj] at hv
          exact .inl hv.2
        | ok outcome =>
          rw [hj] at hv
          cases ack with
          | reported => exact .inr hv.2
          | failed => exact .inl hv.2
          | unreported => exact .inr hv.2
      rcases hlist with hlist | hlist
      · simp [hlist] at hmem
      · rw [hlist, List.mem_singleton] at hmem
        exact henv hmem.symm
    have hnot : ¬ Takes host r env x s' := fun ⟨_, _, _, _, hmem⟩ => hnone hmem
    exact ⟨by simp [hnot, henv], by simp [hnone, henv]⟩

/-! ### Three inboxes -/

/-- Answering from an inbox, at the time 0. -/
def serve (ack : AckReply) (s : Inbox) : (c : Call) → Except String c.Out × Inbox
  | .readSeqState _ => (.ok fun _ => none, s)
  | .writeSeqState _ => (.ok (), s)
  | .encrypt _ _ => (.ok plainPacket, s)
  | .push _ _ => (.ok (), { s with pushed := true })
  | .pull _ _ _ => (.ok (s.batches.headD []), { s with batches := s.batches.tail })
  | .ack _ env =>
    match ack with
    | .reported => (.ok (), { s with acked := env :: s.acked })
    | .failed => (.error "ack failed", s)
    | .unreported => (.error "ack failed", { s with acked := env :: s.acked })
  | .now => (.ok (0 : Nat), { s with since := some (s.since.getD 0) })
  | .answer _ _ => (.ok (), s)

def server (ack : AckReply) : Player (serving 60 ack) Unit where
  answer _ := serve ack
  sound _ s c := by
    cases c with
    | pull recipient max waitMs => exact ⟨rfl, rfl⟩
    | ack receipt env =>
      cases ack with
      | reported => exact ⟨rfl, rfl⟩
      | failed => exact .inl ⟨rfl, rfl⟩
      | unreported => exact .inr ⟨rfl, rfl⟩
    | now => exact ⟨rfl, fun start _ _ => Nat.lt_of_lt_of_le (by decide) (Nat.le_add_left _ start)⟩
    | _ => exact rfl

/-- An inbox that is pulled in one batch. -/
def inboxOf (envelopes : List NxmsEnvelope) : Inbox :=
  ⟨[envelopes.map fun env => ⟨"receipt", env⟩], none, false, []⟩

/-- An envelope in the signer's name that does not open. -/
def forgedEnvelope : NxmsEnvelope := { sampleResponse 8 with msgType := .error }

/-- An envelope for another escrow. -/
def unrelatedEnvelope : NxmsEnvelope :=
  { sampleResponse 8 with escrowIdHex := "ffffffffffffffffffffffffffffffff" }

theorem response_sample : sampleChecked.awaits (sampleResponse 7) = true
    ∧ ∀ seq, judge sampleHost sampleChecked seq (sampleResponse 7) = .ok (sampleOutcome seq) := by
  refine ⟨by decide +kernel, fun seq => ?_⟩
  have hopen : openSignerBody sampleHost.crypto sampleSigner (sampleResponse 7)
      = .ok (.txSignResp ⟨sampleEscrow, true, some "cd", [], none⟩) := by
    decide +kernel
  show openSignerBody sampleHost.crypto sampleSigner (sampleResponse 7) >>= _ = _
  rw [hopen]
  rfl

/-- How the call ends on the inbox. -/
def playedOn (ack : AckReply) (envelopes : List NxmsEnvelope) :
    Except String (Option SignReqOutcome) × Inbox :=
  (signReq sampleHost 1 sampleConfig).play (server ack) (fun _ => ()) 0 (inboxOf envelopes)

theorem playedOn_runs (ack : AckReply) (envelopes : List NxmsEnvelope) :
    Runs (serving sampleConfig.timeoutSecs ack) (inboxOf envelopes)
      (signReq sampleHost 1 sampleConfig) (playedOn ack envelopes).1 (playedOn ack envelopes).2 :=
  Prog.play_runs (server ack) _ _ 0 _

theorem takes_response_second :
    Takes sampleHost sampleChecked (sampleResponse 7)
      (playedOn .reported [unrelatedEnvelope, sampleResponse 7]).1
      (playedOn .reported [unrelatedEnvelope, sampleResponse 7]).2 := by
  refine (takes_response_iff sampleHost sampleConfig .reported checkRequest_sample rfl rfl rfl
    (Nat.le_refl 1) ⟨⟨"receipt", sampleResponse 7⟩, by simp [inboxOf], rfl⟩ response_sample.1
    (fun seq => ⟨_, response_sample.2 seq⟩) (playedOn_runs _ _) ?_).1.mpr ⟨?_, rfl⟩
  · decide +kernel
  · decide +kernel

/-- **A forged envelope before the response ends the call with an error; and a response whose
    acknowledgement is carried out but not reported is lost.** -/
theorem forged_envelope_ends_call :
    (∃ r, checkRequest sampleHost sampleConfig = .ok r ∧ r.awaits (sampleResponse 7) = true
      ∧ ∀ seq, ∃ outcome, judge sampleHost r seq (sampleResponse 7) = .ok outcome)
    ∧ (∃ e s', Runs (serving sampleConfig.timeoutSecs .reported)
        (inboxOf [forgedEnvelope, sampleResponse 7]) (signReq sampleHost 1 sampleConfig)
        (.error e) s' ∧ s'.pushed = true)
    ∧ ∃ e s', Runs (serving sampleConfig.timeoutSecs .unreported)
        (inboxOf [sampleResponse 7]) (signReq sampleHost 1 sampleConfig) (.error e) s'
        ∧ s'.pushed = true ∧ sampleResponse 7 ∈ s'.acked := by
  refine ⟨⟨sampleChecked, checkRequest_sample, response_sample.1,
    fun seq => ⟨_, response_sample.2 seq⟩⟩, ?_, ?_⟩
  · have hend : (playedOn .reported [forgedEnvelope, sampleResponse 7]).1
          = .error "not a response"
        ∧ (playedOn .reported [forgedEnvelope, sampleResponse 7]).2.pushed = true := by
      decide +kernel
    exact ⟨_, _, hend.1 ▸ playedOn_runs _ _, hend.2⟩
  · have hend : (playedOn .unreported [sampleResponse 7]).1 = .error "ack failed"
        ∧ (playedOn .unreported [sampleResponse 7]).2.pushed = true
        ∧ sampleResponse 7 ∈ (playedOn .unreported [sampleResponse 7]).2.acked := by
      decide +kernel
    exact ⟨_, _, hend.1 ▸ playedOn_runs _ _, hend.2⟩

end Nexum.Peer
