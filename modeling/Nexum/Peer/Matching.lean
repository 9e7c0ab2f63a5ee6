import Nexum.Peer.Exchange

/-!
# Which request a decision belongs to

An answer is recognised by its addresses, its escrow and its type. Nothing in it names the request
it answers, so a call takes the first answer of the escrow it finds in the inbox: the answer to an
earlier request, whose call had timed out by the time it came, is returned as the decision on this
one (`late_answer_taken`).

Two things make up for the missing name. A request is pushed only when the requests of the escrow
that went before have been answered and nobody else is waiting; and a pull does not bring up an
answer that was given before the request. In a run that keeps to both, every decision is the
signer's answer to the very request the call has sent (`decision_answers_own_request`).
-/

namespace Nexum.Peer

open Nexum.Lib Nexum.Lib.Prog Nexum.Lib.Pool
open Nexum.Transport
open Nexum.Signer (Peer PulledMessage SealedPacket envelopeOf)

/-! ## 1. The books of a call -/

/-- What a call has sent, what its last pull returned, and what it has acknowledged. -/
structure Trip where
  request : Option NxmsEnvelope
  inbox : List PulledMessage
  reply : Option NxmsEnvelope

def Trip.start : Trip := ⟨none, [], none⟩

def Trip.next (g : Trip) : (c : Call) → Except String c.Out → Trip
  | .push env _, .ok _ => ⟨some env, [], none⟩
  | .pull _ _ _, .ok messages => { g with inbox := messages }
  | .ack _ env, .ok _ => { g with reply := some env }
  | _, _ => g

/-- The books of the call numbered `i`. -/
def tripOf (i : Nat) (l : List Event) : Trip :=
  book Trip.next .start i l

/-- **The decision comes from the signer's answer to the request this call has sent.** -/
def OwnAnswer (host : PeerHost) (r : Request) (w : World) (l : List Event) (i : Nat)
    (outcome : SignReqOutcome) : Prop :=
  ∃ request reply body, (tripOf i l).request = some request ∧ .answered reply request ∈ w.history
    ∧ openSignerBody host.crypto r.signer reply = .ok body
    ∧ r.outcomeOf request.seq body = .ok outcome

/-! ## 2. What one call guarantees -/

/-- A call has one request. -/
def Trip.may (g : Trip) : Call → Prop
  | .push _ _ => g.request = none
  | _ => True

abbrev tripRules : Rules Call Call.Out String Trip := keeping Trip.next Trip.may

/-- The call has an outcome: it opened an awaited message of its last batch and acknowledged it. -/
structure Settled (host : PeerHost) (r : Request) (request : NxmsEnvelope) (g : Trip)
    (outcome : SignReqOutcome) : Prop where
  sent : g.request = some request
  addressed : request.to_ = r.signerId ∧ request.escrowIdHex = r.escrowIdHex
  taken : ∃ msg ∈ g.inbox, r.awaits msg.envelope = true ∧
    ∃ body, openSignerBody host.crypto r.signer msg.envelope = .ok body
      ∧ r.outcomeOf request.seq body = .ok outcome

section
variable {host : PeerHost} {cfg : SignReqConfig} {r : Request} {seq : Nat} {g : Trip}

theorem trip_receive (msg : PulledMessage) :
    Ensures tripRules (receive host r seq msg) g fun outcome g' =>
      g' = { g with reply := some msg.envelope }
        ∧ ∃ body, openSignerBody host.crypto r.signer msg.envelope = .ok body
          ∧ r.outcomeOf seq body = .ok outcome := by
  refine .ofExcept_bind fun body hbody => .ofExcept_bind fun outcome houtcome => ?_
  refine .perform_bind trivial ?_
  rintro _ g' rfl
  exact .pure ⟨rfl, body, hbody, houtcome⟩

theorem trip_scan (messages : List PulledMessage) :
    Ensures tripRules (scan host r seq messages) g fun x g' =>
      g'.request = g.request ∧ g'.inbox = g.inbox ∧ ∀ outcome, x = some outcome →
        ∃ msg ∈ messages, r.awaits msg.envelope = true ∧
          ∃ body, openSignerBody host.crypto r.signer msg.envelope = .ok body
            ∧ r.outcomeOf seq body = .ok outcome := by
  rw [scan_eq]
  cases hfind : messages.find? (fun msg => r.awaits msg.envelope) with
  | none => exact .pure ⟨rfl, rfl, by simp⟩
  | some msg =>
    refine (trip_receive msg).bind ?_
    rintro outcome g' ⟨rfl, body, hbody, houtcome⟩
    refine .pure ⟨rfl, rfl, ?_⟩
    rintro _ ⟨⟩
    exact ⟨msg, List.mem_of_find?_eq_some hfind, by simpa using List.find?_some hfind, body, hbody,
      houtcome⟩

theorem trip_poll {request : NxmsEnvelope} (hrequest : g.request = some request)
    (haddressed : request.to_ = r.signerId ∧ request.escrowIdHex = r.escrowIdHex)
    (hseq : request.seq = seq) (deadline fuel : Nat) :
    Ensures tripRules (poll host cfg r seq deadline fuel) g fun x g' =>
      ∀ outcome, x = some outcome → ∃ request, Settled host r request g' outcome := by
  -- by the number of batches; a batch leaves the request as it was
  induction fuel generalizing g with
  | zero => exact .pure (by simp)
  | succ fuel ih =>
    refine .perform_bind trivial ?_
    rintro messages g₁ rfl
    refine (trip_scan messages).bind ?_
    rintro (_ | outcome) g₂ ⟨hsame, hinbox, hfound⟩
    · refine .perform_bind trivial ?_
      rintro (now : Nat) g₃ rfl
      exact .failIf_bind fun _ => ih (hsame.trans hrequest)
    · refine .pure ?_
      rintro _ ⟨⟩
      obtain ⟨msg, hmsg, hawaits, body, hbody, houtcome⟩ := hfound outcome rfl
      refine ⟨request, hsame.trans hrequest, haddressed, msg, ?_, hawaits, body, hbody, ?_⟩
      · rw [hinbox]
        exact hmsg
      · rwa [hseq]

theorem trip_nextOutSeq (escrowIdHex : String) :
    Ensures tripRules (nextOutSeq escrowIdHex) g fun _ g' => g' = g := by
  refine .perform_bind trivial ?_
  rintro state g₁ rfl
  refine .perform_bind trivial ?_
  rintro _ g₂ rfl
  exact .pure rfl

theorem trip_roundTrip (hnone : g.request = none) (fuel : Nat) :
    Ensures tripRules (roundTrip host cfg r seq fuel) g fun x g' =>
      ∀ outcome, x = some outcome → ∃ request, Settled host r request g' outcome := by
  refine .perform_bind trivial ?_
  rintro packet g₁ rfl
  refine .ofExcept_bind fun _ _ => .ofExcept_bind fun _ _ => ?_
  refine .perform_bind hnone ?_
  rintro _ g₂ rfl
  refine .perform_bind trivial ?_
  rintro start g₃ rfl
  refine trip_poll rfl ?_ ?_ _ fuel
  · exact ⟨rfl, rfl⟩
  · rfl

end

/-- How a call ends, as far as its books go. -/
def Task.settles (host : PeerHost) (q : Task) (x : Except String (Option SignReqOutcome))
    (g : Trip) : Prop :=
  ∀ outcome, x = .ok (some outcome) → ∃ fuel cfg r request, q = .signReq fuel cfg
    ∧ checkRequest host cfg = .ok r ∧ Settled host r request g outcome

/-- **A decision is an awaited message of the last batch.** -/
theorem Task.follows_trip (host : PeerHost) (q : Task) :
    wp tripRules (q.prog host) (q.settles host) .start := by
  cases q with
  | answer request reply =>
    have h : Ensures tripRules (Task.prog host (.answer request reply)) .start
        fun x _ => x = none := by
      refine .perform_bind trivial ?_
      rintro _ g' rfl
      exact .pure rfl
    refine wp_mono (ensures_iff.mp h) ?_
    rintro _ g' hx outcome rfl
    cases hx _ rfl
  | signReq fuel cfg =>
    have h : Ensures tripRules (Peer.signReq host fuel cfg) .start fun x g' =>
        ∀ outcome, x = some outcome → ∃ r request, checkRequest host cfg = .ok r
          ∧ Settled host r request g' outcome := by
      refine .ofExcept_bind fun r hr => (trip_nextOutSeq _).bind ?_
      rintro seq g' rfl
      refine (trip_roundTrip rfl fuel).mono ?_
      intro x g' hx outcome houtcome
      obtain ⟨request, hsettled⟩ := hx outcome houtcome
      exact ⟨r, request, hr, hsettled⟩
    refine wp_mono (ensures_iff.mp h) ?_
    rintro _ g' hx outcome rfl
    obtain ⟨r, request, hr, hsettled⟩ := hx _ rfl outcome rfl
    exact ⟨fuel, cfg, r, request, rfl, hr, hsettled⟩

/-! ## 3. The condition on the steps -/

/-- A request of the peer to this signer, for this escrow. -/
def Concerns (signer : Peer) (escrow : String) (request : NxmsEnvelope) : Prop :=
  request.to_ = signer.id ∧ request.escrowIdHex = escrow

instance (signer : Peer) (escrow : String) (request : NxmsEnvelope) :
    Decidable (Concerns signer escrow request) :=
  inferInstanceAs (Decidable (_ ∧ _))

/-- What has gone over the mailbox since the request. -/
def since (request : NxmsEnvelope) (history : List Exchange) : List Exchange :=
  history.takeWhile (· ≠ .asked request)

/-- Every request of the escrow has been answered. -/
def AllAnswered (signer : Peer) (escrow : String) (w : World) : Prop :=
  ∀ request, .asked request ∈ w.history → Concerns signer escrow request →
    ∃ reply, .answered reply request ∈ w.history

/-- No call but `i` has a request of the escrow out. -/
def NobodyWaits (signer : Peer) (escrow : String) (l : List Event) (i : Nat) : Prop :=
  ∀ j request, j ≠ i → Live j l → (tripOf j l).request = some request →
    ¬ Concerns signer escrow request

/-- None of the messages is an answer to a request of the escrow that was given before the call
    sent its own. -/
def NoneLate (signer : Peer) (escrow : String) (w : World) (request : NxmsEnvelope)
    (messages : List PulledMessage) : Prop :=
  ∀ msg ∈ messages, ∀ other, Concerns signer escrow other →
    .answered msg.envelope other ∈ w.history →
    .answered msg.envelope other ∈ since request w.history

/-- The condition on a step. -/
def Undisturbed (signer : Peer) (escrow : String) (w : World) (l : List Event) : Event → Prop
  | .did i _ (.push env _) _ => Concerns signer escrow env →
      AllAnswered signer escrow w ∧ NobodyWaits signer escrow l i
  | .did i _ (.pull _ _ _) (.ok messages) => ∀ request, (tripOf i l).request = some request →
      Concerns signer escrow request → NoneLate signer escrow w request messages
  | _ => True

/-! ## 4. What is kept along a run -/

section
variable {host : PeerHost} {signer : Peer} {escrow : String} {w w' : World} {l : List Event}
  {i : Nat} {request : NxmsEnvelope}

theorem since_answered (reply other : NxmsEnvelope) (history : List Exchange) :
    since request (.answered reply other :: history)
      = .answered reply other :: since request history := by
  simp [since]

theorem mem_since_asked {env reply other : NxmsEnvelope} {history : List Exchange}
    (h : .answered reply other ∈ since request (.asked env :: history)) :
    request ≠ env ∧ .answered reply other ∈ since request history := by
  unfold since at h
  rw [List.takeWhile_cons] at h
  split at h
  · rename_i hne
    rcases List.mem_cons.mp h with heq | h
    · cases heq
    · refine ⟨?_, h⟩
      rintro rfl
      simp at hne
  · cases h

/-- **A call that is waiting is the only one.** Whatever was answered since its request is its
    request, and so is whatever is still to be answered. -/
structure Waiting (host : PeerHost) (signer : Peer) (escrow : String) (w : World)
    (request : NxmsEnvelope) (inbox : List PulledMessage) : Prop where
  own : ∀ msg ∈ inbox, msg.envelope.from_ = signer.id → msg.envelope.escrowIdHex = escrow →
    opens host signer msg.envelope = true → .answered msg.envelope request ∈ w.history
  since_own : ∀ reply other, .answered reply other ∈ since request w.history →
    Concerns signer escrow other → other = request
  rest : ∀ other, .asked other ∈ w.history → Concerns signer escrow other →
    other = request ∨ ∃ reply, .answered reply other ∈ w.history

/-- The decision of a call for the escrow, and whose answer it is. -/
def Decided (host : PeerHost) (signer : Peer) (escrow : String) (w : World) (l : List Event) :
    Prop :=
  ∀ i fuel cfg r outcome, .done i (.signReq fuel cfg) (.ok (some outcome)) ∈ l →
    checkRequest host cfg = .ok r → r.signer = signer → r.escrowIdHex = escrow →
    OwnAnswer host r w l i outcome

/-- The invariant. -/
structure Matched (host : PeerHost) (signer : Peer) (escrow : String) (w : World)
    (l : List Event) : Prop where
  honest : ∀ reply request, .answered reply request ∈ w.history → Replies reply request
  waiting : ∀ i request, Live i l → (tripOf i l).request = some request →
    Concerns signer escrow request → Waiting host signer escrow w request (tripOf i l).inbox
  decided : Decided host signer escrow w l

/-! ### The history grows -/

theorem Waiting.ask {env : NxmsEnvelope} {inbox : List PulledMessage}
    (h : Waiting host signer escrow w request inbox) (henv : ¬ Concerns signer escrow env)
    (hw : w'.history = .asked env :: w.history) :
    Waiting host signer escrow w' request inbox := by
  refine ⟨?_, ?_, ?_⟩
  · intro msg hmsg hfrom hescrow hopens
    rw [hw]
    exact List.mem_cons_of_mem _ (h.own msg hmsg hfrom hescrow hopens)
  · intro reply other hmem
    rw [hw] at hmem
    exact h.since_own reply other (mem_since_asked hmem).2
  · intro other hmem hother
    rw [hw] at hmem ⊢
    rcases List.mem_cons.mp hmem with heq | hmem
    · cases heq
      exact absurd hother henv
    · rcases h.rest other hmem hother with heq | ⟨reply, hreply⟩
      · exact .inl heq
      · exact .inr ⟨reply, List.mem_cons_of_mem _ hreply⟩

theorem Waiting.sent (hall : AllAnswered signer escrow w)
    (hw : w'.history = .asked request :: w.history) :
    Waiting host signer escrow w' request [] := by
  refine ⟨?_, ?_, ?_⟩
  · intro msg hmsg
    cases hmsg
  · intro reply other hmem
    rw [hw] at hmem
    exact absurd rfl (mem_since_asked hmem).1
  · intro other hmem hother
    rw [hw] at hmem ⊢
    rcases List.mem_cons.mp hmem with heq | hmem
    · cases heq
      exact .inl rfl
    · obtain ⟨reply, hreply⟩ := hall other hmem hother
      exact .inr ⟨reply, List.mem_cons_of_mem _ hreply⟩

theorem Waiting.answer {reply other : NxmsEnvelope} {inbox : List PulledMessage}
    (h : Waiting host signer escrow w request inbox) (hopen : w.isOpen other = true)
    (hw : w'.history = .answered reply other :: w.history) :
    Waiting host signer escrow w' request inbox := by
  obtain ⟨hasked, hnone⟩ := World.isOpen_iff.mp hopen
  refine ⟨?_, ?_, ?_⟩
  · intro msg hmsg hfrom hescrow hopens
    rw [hw]
    exact List.mem_cons_of_mem _ (h.own msg hmsg hfrom hescrow hopens)
  · intro reply' other' hmem hother
    rw [hw, since_answered] at hmem
    rcases List.mem_cons.mp hmem with heq | hmem
    · -- what is answered now had not been answered, so it is what is waited for
      cases heq
      rcases h.rest other hasked hother with heq | ⟨earlier, hearlier⟩
      · exact heq
      · exact absurd hearlier (hnone earlier)
    · exact h.since_own reply' other' hmem hother
  · intro other' hmem hother
    rw [hw] at hmem ⊢
    rcases List.mem_cons.mp hmem with heq | hmem
    · cases heq
    · rcases h.rest other' hmem hother with heq | ⟨earlier, hearlier⟩
      · exact .inl heq
      · exact .inr ⟨earlier, List.mem_cons_of_mem _ hearlier⟩

theorem Waiting.pulled {inbox messages : List PulledMessage}
    (h : Waiting host signer escrow w request inbox)
    (hhonest : ∀ reply request, .answered reply request ∈ w.history → Replies reply request)
    (hgenuine : Genuine host signer w messages)
    (hlate : NoneLate signer escrow w request messages) :
    Waiting host signer escrow w request messages := by
  refine ⟨?_, h.since_own, h.rest⟩
  intro msg hmsg hfrom hescrow hopens
  obtain ⟨other, hanswered⟩ := World.answered_iff.mp (hgenuine msg hmsg hopens)
  obtain ⟨hto, -, hsame⟩ := hhonest _ _ hanswered
  have hconcerns : Concerns signer escrow other := ⟨hto ▸ hfrom, hsame ▸ hescrow⟩
  obtain rfl := h.since_own _ _ (hlate msg hmsg other hconcerns hanswered) hconcerns
  exact hanswered

/-! ### The log grows -/

theorem OwnAnswer.mono {r : Request} {outcome : SignReqOutcome} {l' : List Event}
    (h : OwnAnswer host r w l i outcome) (hw : ∀ x, x ∈ w.history → x ∈ w'.history)
    (hl : (tripOf i l').request = (tripOf i l).request) : OwnAnswer host r w' l' i outcome := by
  obtain ⟨request, reply, body, hrequest, hreply, hbody, houtcome⟩ := h
  exact ⟨request, reply, body, hl.trans hrequest, hw _ hreply, hbody, houtcome⟩

theorem Decided.did {q : Task} {c : Call} {r : Except String c.Out}
    (h : Decided host signer escrow w l) (hlive : Live i l)
    (hw : ∀ x, x ∈ w.history → x ∈ w'.history) :
    Decided host signer escrow w' (.did i q c r :: l) := by
  intro j fuel cfg req outcome hmem hreq hsigner hescrow
  rcases List.mem_cons.mp hmem with heq | hold
  · cases heq
  · have hne : j ≠ i := by
      rintro rfl
      have := hlive.ends_mem hold
      simp [ends] at this
    refine (h j fuel cfg req outcome hold hreq hsigner hescrow).mono hw ?_
    exact congrArg Trip.request (book_did_of_ne hne)

theorem Matched.step {q : Task} {c : Call} {r : Except String c.Out}
    (h : Matched host signer escrow w l) (hlive : Live i l)
    (hw : ∀ x, x ∈ w.history → x ∈ w'.history)
    (hhonest : ∀ reply request, .answered reply request ∈ w'.history → Replies reply request)
    (hothers : ∀ j request, j ≠ i → Live j l → (tripOf j l).request = some request →
      Concerns signer escrow request → Waiting host signer escrow w' request (tripOf j l).inbox)
    (hself : ∀ request, ((tripOf i l).next c r).request = some request →
      Concerns signer escrow request →
      Waiting host signer escrow w' request ((tripOf i l).next c r).inbox) :
    Matched host signer escrow w' (.did i q c r :: l) := by
  refine ⟨hhonest, ?_, h.decided.did hlive hw⟩
  intro j request hj hrequest hconcerns
  by_cases hne : j = i
  · subst hne
    have heq : tripOf j (.did j q c r :: l) = (tripOf j l).next c r := book_did_self
    rw [heq] at hrequest ⊢
    exact hself request hrequest hconcerns
  · have heq : tripOf j (.did i q c r :: l) = tripOf j l := book_did_of_ne hne
    rw [heq] at hrequest ⊢
    exact hothers j request hne (live_cons.mp hj).2 hrequest hconcerns

theorem Matched.quiet {q : Task} {c : Call} {r : Except String c.Out}
    (h : Matched host signer escrow w l) (hlive : Live i l) (hw : w'.history = w.history)
    (hself : ((tripOf i l).next c r).request = (tripOf i l).request
      ∧ ((tripOf i l).next c r).inbox = (tripOf i l).inbox) :
    Matched host signer escrow w' (.did i q c r :: l) := by
  have hsame : ∀ request inbox, Waiting host signer escrow w request inbox →
      Waiting host signer escrow w' request inbox := by
    rintro request inbox ⟨hown, hsince, hrest⟩
    refine ⟨?_, ?_, ?_⟩ <;> rwa [hw]
  refine h.step hlive (fun x hx => hw ▸ hx) ?_ ?_ ?_
  · rw [hw]
    exact h.honest
  · intro j request _ hj hrequest hconcerns
    exact hsame _ _ (h.waiting j request hj hrequest hconcerns)
  · intro request hrequest hconcerns
    rw [hself.1] at hrequest
    rw [hself.2]
    exact hsame _ _ (h.waiting i request hlive hrequest hconcerns)

theorem Matched.pushed {q : Task} {env : NxmsEnvelope} {ttlSecs : Nat} {r : Except String Unit}
    (h : Matched host signer escrow w l) (hlive : Live i l)
    (hw : w'.history = .asked env :: w.history)
    (hok : Concerns signer escrow env → AllAnswered signer escrow w
      ∧ NobodyWaits signer escrow l i)
    (hself : ∀ request, ((tripOf i l).next (.push env ttlSecs) r).request = some request →
      Concerns signer escrow request →
      Waiting host signer escrow w' request ((tripOf i l).next (.push env ttlSecs) r).inbox) :
    Matched host signer escrow w' (.did i q (.push env ttlSecs) r :: l) := by
  refine h.step hlive (fun x hx => hw ▸ List.mem_cons_of_mem _ hx) ?_ ?_ hself
  · intro reply request hmem
    rw [hw] at hmem
    rcases List.mem_cons.mp hmem with heq | hmem
    · cases heq
    · exact h.honest reply request hmem
  · intro j request hne hj hrequest hconcerns
    by_cases henv : Concerns signer escrow env
    · exact absurd hconcerns ((hok henv).2 j request hne hj hrequest)
    · exact (h.waiting j request hj hrequest hconcerns).ask henv hw

/-- **One call.** -/
theorem Matched.did {q : Task} {c : Call} {r : Except String c.Out}
    (h : Matched host signer escrow w l) (hlive : Live i l) (hmay : (tripOf i l).may c)
    (hexec : exec host signer w c r w') (hok : Undisturbed signer escrow w l (.did i q c r)) :
    Matched host signer escrow w' (.did i q c r :: l) := by
  cases c with
  | push env ttlSecs =>
    obtain ⟨-, hw, hsent⟩ := exec_pushes hexec
    cases r with
    | ok _ =>
      refine h.pushed hlive (hsent rfl) hok ?_
      intro request hrequest hconcerns
      obtain rfl : env = request := Option.some.inj hrequest
      exact .sent (hok hconcerns).1 (hsent rfl)
    | error e =>
      rcases hw with hw | hw
      · exact h.quiet hlive hw ⟨rfl, rfl⟩
      · refine h.pushed hlive hw hok ?_
        intro request hrequest
        have hnone : (tripOf i l).request = none := hmay
        cases hnone.symm.trans hrequest
  | answer other reply =>
    rcases exec_answers hexec with rfl | ⟨hopen, hreplies, -, hw⟩
    · exact h.quiet hlive rfl ⟨rfl, rfl⟩
    · have hwaiting : ∀ j request, Live j l → (tripOf j l).request = some request →
          Concerns signer escrow request →
          Waiting host signer escrow w' request (tripOf j l).inbox :=
        fun j request hj hrequest hconcerns =>
          (h.waiting j request hj hrequest hconcerns).answer hopen hw
      refine h.step hlive (fun x hx => hw ▸ List.mem_cons_of_mem _ hx) ?_ ?_ ?_
      · intro reply' request hmem
        rw [hw] at hmem
        rcases List.mem_cons.mp hmem with heq | hmem
        · cases heq
          exact hreplies
        · exact h.honest reply' request hmem
      · exact fun j request _ hj hrequest hconcerns => hwaiting j request hj hrequest hconcerns
      · exact fun request hrequest hconcerns => hwaiting i request hlive hrequest hconcerns
  | pull recipient max waitMs =>
    obtain rfl := exec_idle hexec rfl
    cases r with
    | error e => exact h.quiet hlive rfl ⟨rfl, rfl⟩
    | ok messages =>
      refine h.step hlive (fun x hx => hx) h.honest ?_ ?_
      · exact fun j request _ hj hrequest hconcerns => h.waiting j request hj hrequest hconcerns
      · intro request hrequest hconcerns
        exact (h.waiting i request hlive hrequest hconcerns).pulled h.honest hexec.2
          (hok request hrequest hconcerns)
  | ack receipt env =>
    obtain rfl := exec_idle hexec rfl
    refine h.quiet hlive rfl ?_
    cases r with
    | ok _ => exact ⟨rfl, rfl⟩
    | error e => exact ⟨rfl, rfl⟩
  | writeSeqState state =>
    obtain ⟨hw, -⟩ := exec_writes hexec
    exact h.quiet hlive hw ⟨rfl, rfl⟩
  | _ =>
    obtain rfl := exec_idle hexec rfl
    exact h.quiet hlive rfl ⟨rfl, rfl⟩

theorem Matched.other {e : Event} (h : Matched host signer escrow w l)
    (hbook : ∀ j, tripOf j (e :: l) = tripOf j l)
    (hdecided : Decided host signer escrow w (e :: l)) : Matched host signer escrow w (e :: l) := by
  refine ⟨h.honest, ?_, hdecided⟩
  intro j request hj hrequest hconcerns
  rw [hbook] at hrequest ⊢
  exact h.waiting j request (live_cons.mp hj).2 hrequest hconcerns

theorem Decided.other {e : Event} (h : Decided host signer escrow w l)
    (hbook : ∀ j, tripOf j (e :: l) = tripOf j l)
    (he : ∀ i fuel cfg r outcome, e = .done i (.signReq fuel cfg) (.ok (some outcome)) →
      checkRequest host cfg = .ok r → r.signer = signer → r.escrowIdHex = escrow →
      OwnAnswer host r w l i outcome) : Decided host signer escrow w (e :: l) := by
  intro j fuel cfg r outcome hmem hr hsigner hescrow
  have hsame : (tripOf j (e :: l)).request = (tripOf j l).request := by rw [hbook]
  rcases List.mem_cons.mp hmem with heq | hold
  · exact (he j fuel cfg r outcome heq.symm hr hsigner hescrow).mono (fun _ hx => hx) hsame
  · exact (h j fuel cfg r outcome hold hr hsigner hescrow).mono (fun _ hx => hx) hsame

theorem Matched.settled {r : Request} {outcome : SignReqOutcome}
    (h : Matched host signer escrow w l) (hlive : Live i l) (hr : r.signer.id = r.signerId)
    (hsigner : r.signer = signer) (hescrow : r.escrowIdHex = escrow)
    (hs : Settled host r request (tripOf i l) outcome) : OwnAnswer host r w l i outcome := by
  obtain ⟨msg, hmsg, hawaits, body, hbody, houtcome⟩ := hs.taken
  obtain ⟨-, hfrom, hsame, -⟩ := Request.awaits_iff.mp hawaits
  subst hsigner hescrow
  have hconcerns : Concerns r.signer r.escrowIdHex request :=
    ⟨hs.addressed.1.trans hr.symm, hs.addressed.2⟩
  have hopens : opens host r.signer msg.envelope = true := by
    rw [opens, hbody]
    rfl
  have hanswered := (h.waiting i request hlive hs.sent hconcerns).own msg hmsg
    (hfrom.trans hr.symm) hsame hopens
  exact ⟨request, msg.envelope, body, hs.sent, hanswered, hbody, houtcome⟩

end

/-! ## 5. Whole runs -/

/-- **Every decision is the answer to the call's own request**, in every run in which requests of
    the escrow are sent one at a time, after the ones before have been answered, and no answer
    given before a request is delivered to its call. -/
theorem decision_answers_own_request (host : PeerHost) (signer : Peer) (escrow : String)
    (file : SeqState) {p : Pool World Task Call Call.Out String (Option SignReqOutcome)}
    (hrun : Run (trading host signer) (Undisturbed signer escrow) ⟨file, []⟩ p)
    {i fuel : Nat} {cfg : SignReqConfig} {r : Request} {outcome : SignReqOutcome}
    (hdone : .done i (.signReq fuel cfg) (.ok (some outcome)) ∈ p.log)
    (hr : checkRequest host cfg = .ok r) (hsigner : r.signer = signer)
    (hescrow : r.escrowIdHex = escrow) : OwnAnswer host r p.state p.log i outcome := by
  have hinv : Matched host signer escrow p.state p.log := by
    refine Run.inv_books Trip.next Trip.may (Task.settles host) (fun _ => Trip.start)
      (Task.follows_trip host) ?_ ?_ ?_ ?_ ?_ ?_ hrun
    · exact ⟨by simp, by simp [tripOf, book, Trip.start], by simp [Decided]⟩
    · intro s l i q hi _ _
      exact hi.other (fun _ => rfl) (hi.decided.other (fun _ => rfl) (by simp))
    · intro s l i q c r s' hi hlive hmay hexec hok
      exact hi.did hlive hmay hexec hok
    · intro s l i q x hi hlive hpost _
      refine hi.other (fun _ => rfl) (hi.decided.other (fun _ => rfl) ?_)
      rintro j fuel cfg r outcome ⟨⟩ hr hsigner hescrow
      obtain ⟨fuel', cfg', r', request, hq, hr', hsettled⟩ := hpost outcome rfl
      cases hq
      obtain rfl : r' = r := Except.ok.inj (hr'.symm.trans hr)
      obtain ⟨hid, hsid, -⟩ := checkRequest_ok hr
      exact hi.settled hlive (hsid.trans hid.symm) hsigner hescrow hsettled
    · intro s l i q hi _
      exact hi.other (fun _ => rfl) (hi.decided.other (fun _ => rfl) (by simp))
    · rintro s l _ hi rfl
      exact hi
  exact hinv.decided i fuel cfg r outcome hdone hr hsigner hescrow

/-! ### Two histories -/

/-- Nothing was sent before, and nobody else is there; what was answered was answered since. This
    is more than `Undisturbed` asks for, and looks at no envelope. -/
def undisturbed (w : World) (l : List Event) : Event → Bool
  | .did i _ (.push _ _) _ => w.history.isEmpty && l.all fun e => e.flow == i
  | .did i _ (.pull _ _ _) (.ok _) => (tripOf i l).request.all fun request =>
      w.history.all fun
        | .answered reply other => (since request w.history).contains (.answered reply other)
        | .asked _ => true
  | _ => true

theorem undisturbed_sound (signer : Peer) (escrow : String) {w : World} {l : List Event}
    {e : Event} (h : undisturbed w l e = true) : Undisturbed signer escrow w l e := by
  unfold undisturbed at h
  split at h
  · rename_i i q env ttlSecs r
    simp only [Bool.and_eq_true, List.isEmpty_iff, List.all_eq_true, beq_iff_eq] at h
    refine fun _ => ⟨?_, ?_⟩
    · intro request hmem
      rw [h.1] at hmem
      cases hmem
    · intro j request hne _ hrequest
      have hfresh : ∀ e ∈ l, e.flow ≠ j := fun e he heq => hne (heq.symm.trans (h.2 e he))
      rw [tripOf, book_fresh hfresh] at hrequest
      cases hrequest
  · rename_i i q recipient max waitMs messages
    intro request hrequest _ msg _ other _ hmem
    rw [hrequest, Option.all_some, List.all_eq_true] at h
    simpa using h _ hmem
  · rename_i hpush hpull
    unfold Undisturbed
    split
    · exact absurd rfl (hpush _ _ _ _ _)
    · exact absurd rfl (hpull _ _ _ _ _ _)
    · trivial

/-- The calls up to the push, and the deadline. -/
def untilPushed : List Reply := [.works, .works, .works, .works, .at_ 0]

/-- The newest entry: the call `i` has returned the outcome. -/
def hasReturned (i : Nat) (outcome : SignReqOutcome) : List Event → Bool
  | .done j (.signReq 1 cfg) (.ok (some x)) :: _ =>
    j == i && decide (cfg = sampleConfig) && decide (x = outcome)
  | _ => false

theorem hasReturned_mem {i : Nat} {outcome : SignReqOutcome} {l : List Event}
    (h : hasReturned i outcome l = true) :
    .done i (.signReq 1 sampleConfig) (.ok (some outcome)) ∈ l := by
  unfold hasReturned at h
  split at h
  · simp only [Bool.and_eq_true, beq_iff_eq, decide_eq_true_eq] at h
    obtain ⟨⟨rfl, rfl⟩, rfl⟩ := h
    exact List.mem_cons_self
  · cases h

theorem decision_answers_own_request_prompt :
    ∃ p, Run (trading sampleHost sampleSigner) (Undisturbed sampleSigner sampleEscrow)
        ⟨fun _ => none, []⟩ p
      ∧ .done 0 (.signReq 1 sampleConfig) (.ok (some (sampleOutcome 1))) ∈ p.log
      ∧ OwnAnswer sampleHost sampleChecked p.state p.log 0 (sampleOutcome 1) := by
  have hplay : (follow (player sampleHost sampleSigner) undisturbed ⟨fun _ => none, []⟩
      [.start 0 (.signReq 1 sampleConfig), .calls 0 untilPushed,
        .start 1 (.answer (sampleRequest 1) (sampleResponse 7)), .calls 1 [.works], .close 1,
        .calls 0 [.delivers [⟨"receipt", sampleResponse 7⟩], .works], .close 0]).any (fun p =>
          hasReturned 0 (sampleOutcome 1) p.log) = true := by
    decide +kernel
  obtain ⟨p, hrun, hp⟩ := follow_run
    (fun _ _ _ => undisturbed_sound sampleSigner sampleEscrow) hplay
  exact ⟨p, hrun, hasReturned_mem hp, decision_answers_own_request sampleHost sampleSigner
    sampleEscrow _ hrun (hasReturned_mem hp) checkRequest_sample rfl rfl⟩

/-- **The first call times out. Its answer comes late, and the second call returns it as the
    decision on its own request.** -/
theorem late_answer_taken :
    ∃ p r, Run (trading sampleHost sampleSigner) anyStep ⟨fun _ => none, []⟩ p
      ∧ .done 2 (.signReq 1 sampleConfig) (.ok (some (sampleOutcome 2))) ∈ p.log
      ∧ checkRequest sampleHost sampleConfig = .ok r ∧ r.signer = sampleSigner
      ∧ r.escrowIdHex = sampleEscrow
      ∧ ¬ OwnAnswer sampleHost r p.state p.log 2 (sampleOutcome 2) := by
  have hplay : (follow (player sampleHost sampleSigner) (fun _ _ _ => true) ⟨fun _ => none, []⟩
      [.start 0 (.signReq 1 sampleConfig), .calls 0 (untilPushed ++ [.works, .at_ 60000]), .close 0,
        .start 1 (.answer (sampleRequest 1) (sampleResponse 7)), .calls 1 [.works], .close 1,
        .start 2 (.signReq 1 sampleConfig), .calls 2 untilPushed,
        .calls 2 [.delivers [⟨"receipt", sampleResponse 7⟩], .works], .close 2]).any (fun p =>
          hasReturned 2 (sampleOutcome 2) p.log
            && decide ((tripOf 2 p.log).request = some (sampleRequest 2))
            && decide (p.state.history = [.asked (sampleRequest 2),
              .answered (sampleResponse 7) (sampleRequest 1), .asked (sampleRequest 1)]))
      = true := by
    decide +kernel
  obtain ⟨p, hrun, hp⟩ := follow_run (fun _ _ _ _ => trivial) hplay
  simp only [Bool.and_eq_true, decide_eq_true_eq] at hp
  obtain ⟨⟨hreturned, hrequest⟩, hhistory⟩ := hp
  refine ⟨p, sampleChecked, hrun, hasReturned_mem hreturned, checkRequest_sample, rfl, rfl, ?_⟩
  rintro ⟨request, reply, body, hown, hanswered, -, -⟩
  -- the only answer there is belongs to the first request
  obtain rfl : sampleRequest 2 = request := Option.some.inj (hrequest.symm.trans hown)
  rw [hhistory] at hanswered
  simp only [List.mem_cons, reduceCtorEq, Exchange.answered.injEq, List.not_mem_nil, or_false,
    false_or] at hanswered
  exact absurd (congrArg NxmsEnvelope.seq hanswered.2) (by decide)

end Nexum.Peer
