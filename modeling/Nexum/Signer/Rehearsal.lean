import Nexum.Lib.Digest
import Nexum.Lib.Play
import Nexum.Signer.Node
import Nexum.Signer.Payout

/-!
# Rehearsing a node

A way of answering the calls of a node, so that its flows can be played: the databases answer as
they do, everything else as an `Oracle` says, and any call can be made to fail. With it comes a
small installation to play on — an arbiter's signer with a token verifier, one escrow, and tokens
for three transaction sets — on which the assumptions about the digest hold.
-/

namespace Nexum.Signer

open Nexum.Lib
open Nexum.Orchestrator (OrchestratorDb)

/-! ## 1. A player -/

/-- What the wallet, the mailbox, the cipher and the clock answer. -/
abbrev Oracle := (c : Call) → c.Out

inductive Mode
  | works
  | fails (e : String)
  /-- The call takes effect if it is the orchestrator's, and is reported as failed. -/
  | unreported (e : String)

def honest (o : Oracle) (w : World) (c : Call) : Except String c.Out × World :=
  (w.serve c).getD (.ok (o c), w)

theorem honest_sound (o : Oracle) (w : World) (c : Call) :
    exec w c (honest o w c).1 (honest o w c).2 := by
  unfold honest
  cases h : w.serve c with
  | none => exact .elsewhere _ h
  | some x => exact .served h

def dropReport (e : String) (w : World) (c : Call) : Except String c.Out × World :=
  match c.remote, w.serve c with
  | true, some (_, w') => (.error e, w')
  | _, _ => (.error e, w)

theorem dropReport_sound (e : String) (w : World) (c : Call) :
    exec w c (dropReport e w c).1 (dropReport e w c).2 := by
  unfold dropReport
  split
  · rename_i hremote hserve
    exact .unreported e hremote hserve
  · exact .failed e

def answer (o : Oracle) : Mode → World → (c : Call) → Except String c.Out × World
  | .works, w, c => honest o w c
  | .fails e, w, _ => (.error e, w)
  | .unreported e, w, c => dropReport e w c

theorem answer_sound (o : Oracle) (m : Mode) (w : World) (c : Call) :
    exec w c (answer o m w c).1 (answer o m w c).2 := by
  cases m with
  | works => exact honest_sound o w c
  | fails e => exact .failed e
  | unreported e => exact dropReport_sound e w c

def player (agent : SignerAgent) (o : Oracle) : Player (node agent).exec Mode :=
  ⟨answer o, answer_sound o⟩

/-! ## 2. A small installation -/

/-- What the wallet makes of a transaction set is a parameter; it describes every set as one
    payment to the seller. -/
def sampleOracle (sign : String → String) : Oracle
  | .activeSnapshotForEscrow _ => none
  | .getEscrowAdmissionArtifact _ => none
  | .upsertEscrowAdmissionArtifact _ _ => ()
  | .recordIncomingSeq _ _ _ _ => ()
  | .nextOutSeq _ _ => 0
  | .enqueuePendingTx _ => ()
  | .getPending _ => none
  | .setPendingStatus _ _ _ => ()
  | .startSignRequest _ _ _ _ _ => ()
  | .getSignRequest _ => none
  | .completeSignRequestWithResult _ _ _ => ()
  | .getSignRequestResult _ => none
  | .abortSignRequest _ => ()
  | .consumeActionJti _ _ => ()
  | .recordSignEvent _ => ()
  | .getSignEvent _ => none
  | .quorumProofSet _ _ _ _ _ _ => ()
  | .submitBundle _ _ => ⟨"", "", "", "", "", ""⟩
  | .ensureWalletOpen => ()
  | .describeTransfer _ => some (payingSeller [100])
  | .signMultisig _ tx => ⟨sign tx, ["txid"]⟩
  | .submitMultisig _ _ => ["txid"]
  | .encrypt _ _ => ⟨"kem", "nonce", "text", "tag", "sig"⟩
  | .mailboxPush _ _ => ()
  | .mailboxPull => []
  | .mailboxAck _ _ => ()
  | .unixNow => 1000
  | .rateLimitCheck _ _ => ()

def sampleEscrow : String := "00112233445566778899aabbccddeeff"

/-- The text a request id is the digest of. -/
def sampleReq (op round : String) (hash : Char) : List UInt8 :=
  utf8 s!"{sampleEscrow}|{op}|{round}|{digit64 hash}"

/-- The digests that are used, each one digit repeated. -/
def sampleDigits : List (List UInt8 × Char) :=
  [ ([0xaa], 'a'), ([0xbb], 'b'), ([0xcc], 'c'), ([0xdd], 'd'), ([0xee], 'e'), ([0x50], '5'),
    (sampleReq "sign_multisig" "arbiter_first" 'a', '1'),
    (sampleReq "sign_multisig" "arbiter_first" 'b', '2'),
    (sampleReq "sign_multisig" "arbiter_first" 'c', '3'),
    (sampleReq "sign_multisig" "arbiter_first" 'd', '7'),
    (sampleReq "sign_multisig" "arbiter_first" 'e', '8'),
    (sampleReq "sign_multisig" "seller_second" 'b', '4'),
    (sampleReq "submit_multisig" "arbiter_submit" 'b', '6') ]

def sampleTable : List (List UInt8 × String) :=
  sampleDigits.map fun x => (x.1, digit64 x.2)

theorem sampleTable_wellFormed : WellFormedTable sampleTable :=
  wellFormedTable_digit64 (by decide) (by decide)

/-- A token of the arbiter for the transaction set with the digest `hash`. -/
def sampleClaims (op round : String) (hash : Char) (jti : String) : ActionClaims where
  sub := "arbiter"
  scope := op
  op := op
  role := "arbiter"
  signRound := round
  escrowId := sampleEscrow
  walletId := "wallet"
  sandboxId := "sandbox"
  txsetHash := digit64 hash
  snapshotHash := digit64 '5'
  nettype := "stagenet"
  runtimeTrustEpoch := none
  escrowAdmissionHash := none
  iat := 990
  nbf := 990
  exp := 1050
  jti := jti
  proofArbiterJti := none
  proofSellerJti := none
  proofArbiterReqId := none
  proofSellerReqId := none

def signClaims (hash : Char) (jti : String) : ActionClaims :=
  sampleClaims "sign_multisig" "arbiter_first" hash jti

def sampleTokens : List (String × ActionClaims) :=
  [ ("sign-a-1", signClaims 'a' "jti-1"), ("sign-a-2", signClaims 'a' "jti-2"),
    ("sign-b-3", signClaims 'b' "jti-3"), ("sign-d-5", signClaims 'd' "jti-5"),
    ("submit-b-4", { sampleClaims "submit_multisig" "arbiter_submit" 'b' "jti-4" with
      proofArbiterJti := some "jti-1"
      proofSellerJti := some "seller-jti"
      proofArbiterReqId := some (digit64 '2')
      proofSellerReqId := some (digit64 '4') }) ]

def sampleCrypto : Crypto where
  sha256Hex := tableDigest sampleTable
  b64Decode _ := .error "no base64 here"
  falconVerify _ _ _ := .error "no signatures here"
  admissionJson _ := []
  sha3Hex _ := ""
  policyJson _ := [0x50]
  verifyJwt token :=
    match sampleTokens.lookup token with
    | some claims => .ok claims
    | none => .error "InvalidToken"
  jwtTimes leeway now claims := do
    Check.failIf (claims.exp < now - leeway) "ExpiredSignature"
    Check.failIf (claims.nbf > now + leeway) "ImmatureSignature"
  openEnvelope _ _ := .error "no envelopes here"
  parseBody _ := .error "no bodies here"
  renderBody _ := ""

def sampleAgent : SignerAgent where
  crypto := sampleCrypto
  localId := "arbiter"
  signerRole := .arbiter
  productionHardening := false
  maxTxsetHexLen := 64
  mailboxRetryAttempts := 1
  peers := [⟨"buyer", "kem", "sig"⟩]
  verifier := some ⟨true, 0, 100, .arbiter, "sandbox", "wallet", "stagenet", none⟩
  bundle := none
  proofStore := true
  proofStoreRequired := true
  proofVerify := false

def sampleWorld : World where
  db := { SignerDb.empty with
    snapshots := [⟨digit64 '5', sampleEscrow, .encoded sellerGets100, true, 1⟩] }
  orch := ⟨fun e => if e = sampleEscrow then some .funded else none, []⟩

theorem sampleDigest : DigestLike sampleAgent.crypto.sha256Hex :=
  tableDigest_digestLike sampleTable_wellFormed

/-- The wallet turns the first set into the second, the second into the third, and the fourth into
    the fifth. -/
def signNext (tx : String) : String :=
  if tx = "aa" then "bb" else if tx = "dd" then "ee" else "cc"

/-- The request to sign a transaction set of the sample escrow. -/
def signReq (tx token : String) : Request :=
  .sign sampleEscrow .release tx (some token)

/-- What becomes of the sample installation when these acts are followed, as far as `chk` lets
    them. -/
def rehearse (chk : List Event → Event → Bool) (acts : List (Act Request Mode)) :
    Option (Pool World Request Call Call.Out String Reply) :=
  Pool.follow (player sampleAgent (sampleOracle signNext)) (fun _ => chk) sampleWorld acts

/-- Every step is let through. -/
def freely : List Event → Event → Bool := fun _ _ => true

theorem rehearse_run {chk : List Event → Event → Bool} {acts : List (Act Request Mode)}
    {f : Pool World Request Call Call.Out String Reply → Bool}
    (h : (rehearse chk acts).any f = true) :
    ∃ p, Pool.Run (node sampleAgent) (fun _ l e => chk l e = true) sampleWorld p ∧ f p = true :=
  Pool.follow_run (fun _ _ _ hc => hc) h

theorem rehearse_anyStep {acts : List (Act Request Mode)}
    {f : Pool World Request Call Call.Out String Reply → Bool}
    (h : (rehearse freely acts).any f = true) :
    ∃ p, Pool.Run (node sampleAgent) Pool.anyStep sampleWorld p ∧ f p = true :=
  Pool.follow_run (fun _ _ _ _ => trivial) h

end Nexum.Signer
