import Nexum.Cli.Signed
import Nexum.Lib.Check

/-!
# Hosts in URLs

Whether a request may leave is decided by the host of a URL, and the client has three scanners that
cut it out by hand: two that look for `.onion`, and one that looks for the loopback. None of them
knows the user information that may stand before an `@`, one of the first two does not know
brackets, and the third does not know that a query ends the authority.

A URL is given here by its parts (`Parts`): scheme, user information, host, port and the rest. Each
scanner is run once on the text that the parts make, and the results say which parts lead it astray.
The onion classifiers are right unless a password follows the user's name or the host is in brackets
(`onion_classified_iff`). The other scanner takes `front` for the host, which is the host if there is
no user information and no query right after it; and even then a name that only begins like an
address of the loopback passes for one (`plain_http_iff`). Such URLs are chosen by whoever wrote
them, and pass (`onion_in_userinfo`, `remote_over_plain_http`).
-/

namespace Nexum.Cli.Url

open Nexum.Lib Nexum.Lib.Check

abbrev Text := List UInt8

/-! ## 1. What a standard parser extracts -/

/-- One of the bytes `/`, `?` and `#`, at which an authority ends. -/
def endsAuthority (b : UInt8) : Bool := b = 47 || b = 63 || b = 35

def notColon (b : UInt8) : Bool := b ≠ 58

/-- What follows the last `@`. -/
def afterUserinfo (authority : Text) : Text :=
  (authority.reverse.takeWhile (· ≠ 64)).reverse

/-- The host of an authority: what is in the brackets if there are brackets, and then only a port
    may follow; otherwise what stands before the port. -/
def hostOfAuthority (authority : Text) : Option Text :=
  match afterUserinfo authority with
  | 91 :: rest =>
    match rest.dropWhile (· ≠ 93) with
    | [93] => some (rest.takeWhile (· ≠ 93))
    | 93 :: 58 :: _ => some (rest.takeWhile (· ≠ 93))
    | _ => none
  | hostport => some (hostport.takeWhile notColon)

/-- The authority of a URL with a scheme. -/
def standardAuthority (url : Text) : Option Text :=
  match url.dropWhile (fun b => notColon b && !endsAuthority b) with
  | 58 :: 47 :: 47 :: rest =>
    if notColon (url.headD 58) then some (rest.takeWhile fun b => !endsAuthority b) else none
  | _ => none

def standardHost (url : Text) : Option Text := (standardAuthority url).bind hostOfAuthority

def lower (b : UInt8) : UInt8 := if 65 ≤ b ∧ b ≤ 90 then b + 32 else b

def endsOnion (host : Text) : Bool :=
  6 ≤ host.length && (host.drop (host.length - 6)).map lower = utf8 ".onion"

def onionHost (url : Text) : Bool := (standardHost url).any endsOnion

/-! ## 2. The two onion classifiers -/

/-- What follows the first `://`, as `strstr` finds it. -/
def afterSeparator : Text → Option Text
  | 58 :: 47 :: 47 :: rest => some rest
  | _ :: rest => afterSeparator rest
  | [] => none

/-- What both take for the authority. Where there is no `://` it begins at once. -/
def scannedAuthority (url : Text) : Text :=
  ((afterSeparator url).getD url).takeWhile fun b => !endsAuthority b

/-- `ff_http_url_host_is_onion`. -/
def ffHttpUrlHostIsOnion (url : Text) : Bool :=
  endsOnion ((scannedAuthority url).takeWhile notColon)

def urlHostIsOnionSuffix (url : Text) : Bool :=
  match scannedAuthority url with
  | 91 :: rest => rest.contains 93 && endsOnion (rest.takeWhile (· ≠ 93))
  | host => endsOnion (host.takeWhile notColon)

def socks5hPrefix : Text := utf8 "socks5h://"

/-- `require_tor`; `reachable` is whether the proxy answers. -/
def requireTor (reachable : Bool) (base socks5 : Text) : Except Text Unit := do
  failIf (socks5 = []) (utf8 "Tor required: use --socks5 socks5h://127.0.0.1:9050")
  failIf (¬ socks5hPrefix <+: socks5) (utf8 "Tor required: use socks5h:// (DNS over Tor)")
  failIf (¬ urlHostIsOnionSuffix base) (utf8 "Tor required: --base must be a .onion address")
  failIf (¬ reachable) (utf8 "Tor not reachable at " ++ socks5
    ++ utf8 " (is Tor running? socks5h on 127.0.0.1:9050)")

def ffHttpValidateTransportPolicy (url socks5 : Text) : Except String Unit := do
  failIf (url = []) "http request failed: missing URL"
  failIf (ffHttpUrlHostIsOnion url ∧ socks5 = [])
    "http request blocked: .onion requires SOCKS5H proxy"
  failIf (ffHttpUrlHostIsOnion url ∧ ¬ socks5hPrefix <+: socks5.map lower)
    "http request blocked: .onion requires socks5h:// proxy"
  failIf (socks5 ≠ [] ∧ ¬ socks5hPrefix <+: socks5.map lower)
    "http request blocked: proxy must use socks5h://"

/-- **Tor only.** Both classifiers say of the URL what its host says, so nothing is admitted to
    another host, and an onion host is not treated as one of the clear net. -/
structure TorOnly (url : Text) : Prop where
  suffix : urlHostIsOnionSuffix url = onionHost url
  http : ffHttpUrlHostIsOnion url = onionHost url
  admitted : ∀ reachable socks5, requireTor reachable url socks5 = .ok () → onionHost url = true
  proxied : ∀ socks5, onionHost url = true → ffHttpValidateTransportPolicy url socks5 = .ok () →
    socks5hPrefix <+: socks5.map lower

/-- A URL by its parts. The user information is a name, or a name and a password. The host stands as
    it is, or in brackets. What follows the authority begins with a byte that ends it. -/
structure Parts where
  scheme : Text
  user : Option (Text × Option Text)
  bracketed : Bool
  host : Text
  port : Option Text
  tail : Text
  scheme_ne : scheme ≠ []
  scheme_mem : ∀ b ∈ scheme, notColon b = true ∧ endsAuthority b = false
  name_head : ∀ x ∈ user, x.1.head? ≠ some 91
  name_mem : ∀ x ∈ user, ∀ b ∈ x.1, notColon b = true ∧ endsAuthority b = false
  password_mem : ∀ x ∈ user, ∀ y ∈ x.2, ∀ b ∈ y, endsAuthority b = false
  host_head : bracketed = false → host.head? ≠ some 91
  host_mem : ∀ b ∈ host, endsAuthority b = false ∧ b ≠ 64 ∧ b ≠ if bracketed then 93 else 58
  port_mem : ∀ x ∈ port, ∀ b ∈ x, endsAuthority b = false ∧ b ≠ 64
  tail_head : ∀ b ∈ tail.head?, endsAuthority b = true

section
variable (p : Parts)

def Parts.userText : Text :=
  match p.user with
  | none => []
  | some (name, none) => name ++ [64]
  | some (name, some password) => name ++ 58 :: (password ++ [64])

def Parts.hostText : Text := if p.bracketed then 91 :: (p.host ++ [93]) else p.host

def Parts.portText : Text :=
  match p.port with
  | none => []
  | some digits => 58 :: digits

def Parts.authority : Text := p.userText ++ (p.hostText ++ p.portText)

def Parts.text : Text := p.scheme ++ 58 :: 47 :: 47 :: (p.authority ++ p.tail)

/-- The user's name before a password ends in `.onion` just if the host does. Without a password, a
    host in brackets does just if its beginning up to a colon does. -/
def Parts.OnionRead : Prop :=
  match p.user with
  | some (name, some _) => endsOnion name = endsOnion p.host
  | _ => p.bracketed = true →
    (58 ∈ p.host ∧ endsOnion (p.host.takeWhile notColon) = true ↔ endsOnion p.host = true)

end

theorem takeWhile_stop {p : UInt8 → Bool} {a rest : Text} (ha : ∀ b ∈ a, p b = true)
    (hrest : rest = [] ∨ ∃ b t, rest = b :: t ∧ p b = false) : (a ++ rest).takeWhile p = a := by
  rw [List.takeWhile_append_of_pos ha]
  obtain rfl | ⟨b, t, rfl, hb⟩ := hrest
  · simp
  · simp [hb]

theorem dropWhile_stop {p : UInt8 → Bool} {a rest : Text} (ha : ∀ b ∈ a, p b = true)
    (hrest : ∃ b t, rest = b :: t ∧ p b = false) : (a ++ rest).dropWhile p = rest := by
  obtain ⟨b, t, rfl, hb⟩ := hrest
  rw [List.dropWhile_append_of_pos ha]
  simp [hb]

/-- A scan that only the byte `c` of a text can stop goes on behind it if there is none. -/
theorem takeWhile_past {p : UInt8 → Bool} {c : UInt8} (hc : p c = false) {a rest : Text}
    (h : ∀ b ∈ a, b ≠ c → p b = true) :
    (a ++ rest).takeWhile p = a.takeWhile p ++ if c ∈ a then [] else rest.takeWhile p := by
  split
  · rename_i hmem
    have hno : ¬ (a.takeWhile p).length = a.length := by
      intro hlength
      have hself := (List.takeWhile_sublist p).eq_of_length hlength
      exact absurd (List.takeWhile_eq_self_iff.mp hself c hmem) (by simp [hc])
    rw [List.takeWhile_append, if_neg hno, List.append_nil]
  · rename_i hmem
    have hall : ∀ b ∈ a, p b = true := fun b hb => h b hb fun heq => hmem (heq ▸ hb)
    rw [List.takeWhile_append_of_pos hall, List.takeWhile_eq_self_iff.mpr hall]

/-- The first `://` is that of the scheme, which has no colon. -/
theorem afterSeparator_scheme {scheme rest : Text} (h : ∀ b ∈ scheme, notColon b = true) :
    afterSeparator (scheme ++ 58 :: 47 :: 47 :: rest) = some rest := by
  induction scheme with
  | nil => rfl
  | cons b scheme ih =>
    have hb : b ≠ 58 := by simpa [notColon] using h b (by simp)
    rw [List.cons_append, afterSeparator]
    · exact ih fun b hb => h b (by simp [hb])
    · intro _ heq
      exact absurd heq hb

/-- What stands before a byte that is not in `.onion` does not matter. -/
theorem endsOnion_after {before x : Text} {b : UInt8} (hb : lower b ∉ utf8 ".onion") :
    endsOnion (before ++ b :: x) = endsOnion x := by
  unfold endsOnion
  by_cases hlen : 6 ≤ x.length
  · have hdrop : (before ++ b :: x).drop ((before ++ b :: x).length - 6)
        = x.drop (x.length - 6) := by
      rw [← List.singleton_append, ← List.append_assoc, List.drop_append,
        List.drop_eq_nil_of_le (by simp; omega), List.nil_append]
      congr 1
      simp
      omega
    rw [hdrop]
    simp [hlen]
    omega
  · -- the byte would be among the last six
    simp only [hlen, decide_false, Bool.false_and, Bool.and_eq_false_iff, decide_eq_false_iff_not]
    refine .inr fun heq => hb ?_
    rw [← heq]
    refine List.mem_map_of_mem ?_
    rw [List.drop_append]
    refine List.mem_append_right _ ?_
    have hzero : (before ++ b :: x).length - 6 - before.length = 0 := by
      simp
      omega
    rw [hzero]
    simp

section
variable (p : Parts)

theorem Parts.hostText_bracketed (h : p.bracketed = true) (rest : Text) :
    p.hostText ++ rest = 91 :: (p.host ++ 93 :: rest) := by
  simp [Parts.hostText, h]

theorem Parts.hostText_plain (h : p.bracketed = false) : p.hostText = p.host := by
  simp [Parts.hostText, h]

/-- The bracket that closes the host is the first one. -/
theorem Parts.host_closed (h : p.bracketed = true) : ∀ b ∈ p.host, decide (b ≠ 93) = true := by
  intro b hb
  simpa [h] using (p.host_mem b hb).2.2

theorem Parts.host_plain (h : p.bracketed = false) : ∀ b ∈ p.host, notColon b = true := by
  intro b hb
  simpa [h, notColon] using (p.host_mem b hb).2.2

theorem Parts.hostport_mem :
    ∀ b ∈ p.hostText ++ p.portText, endsAuthority b = false ∧ b ≠ 64 := by
  have hhost := p.host_mem
  have hport := p.port_mem
  have hmarks : ∀ b ∈ [91, 93, 58], endsAuthority b = false ∧ b ≠ 64 := by simp [endsAuthority]
  unfold Parts.hostText Parts.portText
  grind

theorem Parts.authority_mem : ∀ b ∈ p.authority, endsAuthority b = false := by
  have hname := p.name_mem
  have hpassword := p.password_mem
  have hmarks : ∀ b ∈ [58, 64], endsAuthority b = false := by simp [endsAuthority]
  have hrest := p.hostport_mem
  unfold Parts.authority Parts.userText
  generalize p.user = user at hname hpassword ⊢
  rcases user with _ | ⟨name, _ | password⟩ <;>
    simp only [Option.mem_some_iff, forall_eq', Option.not_mem_none] at hname hpassword <;> grind

/-- What follows the scheme is cut at the end of the authority. -/
theorem Parts.cut : (p.authority ++ p.tail).takeWhile (fun b => !endsAuthority b)
    = p.authority := by
  refine takeWhile_stop (fun b hb => by simp [p.authority_mem b hb]) ?_
  cases htail : p.tail with
  | nil => exact .inl rfl
  | cons b rest => exact .inr ⟨b, rest, rfl, by simp [p.tail_head b (by simp [htail])]⟩

theorem Parts.scannedAuthority_eq : scannedAuthority p.text = p.authority := by
  rw [scannedAuthority, Parts.text, afterSeparator_scheme fun b hb => (p.scheme_mem b hb).1]
  exact p.cut

theorem Parts.standardAuthority_eq : standardAuthority p.text = some p.authority := by
  have hdrop : p.text.dropWhile (fun b => notColon b && !endsAuthority b)
      = 58 :: 47 :: 47 :: (p.authority ++ p.tail) :=
    dropWhile_stop (fun b hb => by simp [p.scheme_mem b hb]) ⟨58, _, rfl, rfl⟩
  have hhead : notColon (p.text.headD 58) = true := by
    rw [Parts.text]
    cases hs : p.scheme with
    | nil => exact absurd hs p.scheme_ne
    | cons b s => exact (p.scheme_mem b (by simp [hs])).1
  rw [standardAuthority, hdrop]
  simp only [hhead, if_true, p.cut]

/-- Host and port have no `@`, and user information ends with one. -/
theorem Parts.afterUserinfo_eq : afterUserinfo p.authority = p.hostText ++ p.portText := by
  have hno : ∀ b ∈ (p.hostText ++ p.portText).reverse, decide (b ≠ 64) = true := by
    intro b hb
    simpa using (p.hostport_mem b (List.mem_reverse.mp hb)).2
  rw [afterUserinfo, Parts.authority, List.reverse_append, takeWhile_stop hno, List.reverse_reverse]
  unfold Parts.userText
  split
  · exact .inl rfl
  · exact .inr ⟨64, _, by rw [List.reverse_append]; rfl, rfl⟩
  · rename_i name password _
    exact .inr ⟨64, (name ++ 58 :: password).reverse, by simp, rfl⟩

theorem Parts.port_stop : p.portText = [] ∨ ∃ b t, p.portText = b :: t ∧ notColon b = false := by
  unfold Parts.portText
  split
  · exact .inl rfl
  · exact .inr ⟨58, _, rfl, rfl⟩

/-- Without brackets neither the host nor the port begins with one. -/
theorem Parts.head_ne (h : p.bracketed = false) : (p.host ++ p.portText).head? ≠ some 91 := by
  have hhead := p.host_head h
  unfold Parts.portText
  cases hhost : p.host <;> cases p.port <;> simp_all

theorem Parts.standardHost_eq : standardHost p.text = some p.host := by
  rw [standardHost, p.standardAuthority_eq, Option.bind_some, hostOfAuthority, p.afterUserinfo_eq]
  cases hb : p.bracketed with
  | true =>
    rw [p.hostText_bracketed hb]
    simp only [dropWhile_stop (p.host_closed hb) ⟨93, _, rfl, rfl⟩,
      takeWhile_stop (p.host_closed hb) (.inr ⟨93, _, rfl, rfl⟩)]
    unfold Parts.portText
    cases p.port <;> rfl
  | false =>
    rw [p.hostText_plain hb]
    split
    · rename_i rest heq
      exact absurd (by rw [heq]; rfl) (p.head_ne hb)
    · exact congrArg some (takeWhile_stop (p.host_plain hb) p.port_stop)

/-- Only a host in brackets without user information makes a text begin with a bracket. -/
theorem Parts.bracketed_of_head {rest : Text} (h : p.authority ++ p.tail = 91 :: rest) :
    p.user = none ∧ p.bracketed = true := by
  have hhead := p.name_head
  unfold Parts.authority Parts.userText at h
  cases huser : p.user with
  | some user =>
    obtain ⟨name, password⟩ := user
    have hne := hhead _ huser
    rw [huser] at h
    exfalso
    cases password <;> cases name <;> simp_all
  | none =>
    refine ⟨rfl, not_not.mp fun hb => ?_⟩
    have hb : p.bracketed = false := by simpa using hb
    have hfirst : ((p.host ++ p.portText) ++ p.tail).head? = some 91 := by
      rw [huser, List.nil_append, p.hostText_plain hb] at h
      rw [h]
      rfl
    rw [List.head?_append] at hfirst
    cases hx : (p.host ++ p.portText).head? with
    | none => exact absurd (p.tail_head _ (by simpa [hx] using hfirst)) (by decide)
    | some b => exact p.head_ne hb (by simpa [hx] using hfirst)

theorem Parts.onionHost_eq : onionHost p.text = endsOnion p.host := by
  rw [onionHost, p.standardHost_eq]
  rfl

/-- **What the first classifier looks at**: the name before a password; otherwise the host, or what
    stands of it before a colon, in front of which user information plays no part. -/
theorem Parts.ffHttpUrlHostIsOnion_iff :
    ffHttpUrlHostIsOnion p.text = onionHost p.text ↔ p.OnionRead := by
  rw [ffHttpUrlHostIsOnion, p.scannedAuthority_eq, p.onionHost_eq]
  have hname := p.name_mem
  -- without a colon in the user information, the text goes on to the host
  have hgoes : ∀ user : Text, (∀ b ∈ user, notColon b = true) →
      (user = [] ∨ ∃ name, user = name ++ [64]) →
      (endsOnion ((user ++ (p.hostText ++ p.portText)).takeWhile notColon) = endsOnion p.host
        ↔ (p.bracketed = true →
          (58 ∈ p.host ∧ endsOnion (p.host.takeWhile notColon) = true
            ↔ endsOnion p.host = true))) := by
    intro user huser hends
    have hdrop : ∀ x, endsOnion (user ++ x) = endsOnion x := by
      intro x
      rcases hends with rfl | ⟨name, rfl⟩
      · rfl
      · rw [List.append_assoc]
        exact endsOnion_after (by decide)
    rw [List.takeWhile_append_of_pos huser, hdrop]
    cases hb : p.bracketed with
    | false =>
      rw [p.hostText_plain hb, takeWhile_stop (p.host_plain hb) p.port_stop]
      simp
    | true =>
      have hopen : ∀ x, endsOnion (91 :: x) = endsOnion x := fun x =>
        @endsOnion_after [] x 91 (by decide)
      have hport : p.portText.takeWhile notColon = [] := by
        rcases p.port_stop with hport | ⟨b, t, hport, hstop⟩
        · rw [hport, List.takeWhile_nil]
        · rw [hport, List.takeWhile_cons_of_neg (by simp [hstop])]
      rw [p.hostText_bracketed hb, List.takeWhile_cons_of_pos (by decide), hopen,
        takeWhile_past (c := 58) rfl (by simp [notColon]), List.takeWhile_cons_of_pos (by decide),
        hport]
      by_cases hcolon : 58 ∈ p.host
      · simp only [hcolon, if_true, List.append_nil, true_and, true_implies, Bool.coe_iff_coe]
      · rw [if_neg hcolon, endsOnion_after (by decide)]
        simp only [hcolon, false_and, true_implies, false_iff, Bool.not_eq_true]
        exact eq_comm
  unfold Parts.authority Parts.userText Parts.OnionRead
  rcases huser : p.user with _ | ⟨name, _ | password⟩
  · exact hgoes [] (by simp) (.inl rfl)
  · refine hgoes (name ++ [64]) (fun b hb => ?_) (.inr ⟨name, rfl⟩)
    rcases List.mem_append.mp hb with hb | hb
    · exact (hname _ huser b hb).1
    · rw [List.mem_singleton.mp hb]
      rfl
  · have hall : ∀ b ∈ name, notColon b = true := fun b hb => (hname _ huser b hb).1
    simp only [List.append_assoc, List.cons_append, takeWhile_stop hall (.inr ⟨58, _, rfl, rfl⟩)]

/-- The second classifier knows brackets where nothing stands before them, and is otherwise the
    first. -/
theorem Parts.urlHostIsOnionSuffix_eq (h : ffHttpUrlHostIsOnion p.text = onionHost p.text) :
    urlHostIsOnionSuffix p.text = onionHost p.text := by
  rw [urlHostIsOnionSuffix]
  split
  · rename_i rest heq
    rw [p.scannedAuthority_eq] at heq
    obtain ⟨huser, hb⟩ := p.bracketed_of_head (show _ = 91 :: (rest ++ p.tail) by
      rw [heq]; rfl)
    rw [Parts.authority, Parts.userText, huser, p.hostText_bracketed hb] at heq
    obtain rfl : rest = p.host ++ 93 :: p.portText := by simpa using heq.symm
    rw [takeWhile_stop (p.host_closed hb) (.inr ⟨93, _, rfl, rfl⟩), p.onionHost_eq]
    simp
  · exact h

end

theorem standardAuthority_of_none {url : Text} (h : afterSeparator url = none) :
    standardAuthority url = none := by
  unfold standardAuthority
  split
  · rename_i rest hdrop
    have hurl := List.takeWhile_append_dropWhile (p := fun b => notColon b && !endsAuthority b)
      (l := url)
    rw [hdrop] at hurl
    rw [← hurl, afterSeparator_scheme fun b hb => by
      simpa using (by simpa using List.mem_takeWhile_imp hb : _ ∧ _).1] at h
    cases h
  · rfl

def httpScheme : Text := utf8 "http://"
def httpsScheme : Text := utf8 "https://"

def isSpace (b : UInt8) : Bool := b = 32 || (9 ≤ b && b ≤ 13)
def isDigit (b : UInt8) : Bool := 48 ≤ b && b ≤ 57
def decimal (digits : Text) : Nat := digits.foldl (fun n b => 10 * n + (b.toNat - 48)) 0

/-- `strtol` where it reads the whole text. -/
def strtol (text : Text) : Option Int :=
  let signed : Int × Text := match text.dropWhile isSpace with
    | 43 :: digits => (1, digits)
    | 45 :: digits => (-1, digits)
    | digits => (1, digits)
  if signed.2 ≠ [] ∧ signed.2.all isDigit then some (signed.1 * decimal signed.2) else none

/-- The port after a colon: at most fifteen bytes of it are looked at. -/
def scanPort (defPort : Nat) (after : Text) : Option Nat :=
  let portbuf := (after.takeWhile (· ≠ 47)).take 15
  if portbuf = [] then some defPort
  else (strtol portbuf).bind fun pv => if 0 < pv ∧ pv ≤ 65535 then some pv.toNat else none

def scanAfter (defPort : Nat) : Text → Option Nat
  | 58 :: after => scanPort defPort after
  | _ => some defPort

def notColonSlash (b : UInt8) : Bool := b ≠ 58 && b ≠ 47

/-- The host and what follows it. -/
def scanHost : Text → Option (Text × Text)
  | 91 :: rest =>
    match rest.dropWhile (· ≠ 93) with
    | [] => none
    | _ :: after => some (rest.takeWhile (· ≠ 93), after)
  | text => some (text.takeWhile notColonSlash, text.dropWhile notColonSlash)

def pfParseHttpUrlHostPort (url : Text) : Option (Text × Nat) := do
  let (text, defPort) :=
    if httpScheme <+: url then (url.drop 7, 80)
    else if httpsScheme <+: url then (url.drop 8, 443)
    else (url, 80)
  let (host, after) ← scanHost text
  guard (host ≠ [] ∧ host.length + 1 ≤ 256)
  let port ← scanAfter defPort after
  pure (host, port)

/-- The last of the prefixes is compared over ten bytes, one less than it has. -/
def pfHttpHostIsLoopback (host : Text) : Bool :=
  host = utf8 "::1" || utf8 "127." <+: host || utf8 "::ffff:127" <+: host
    || host.map lower = utf8 "localhost"

/-- Whether the override variables are set. -/
structure Overrides where
  walletRemoteHttp : Bool
  walletBasicRemote : Bool
  escrowRemoteHttp : Bool

def noOverride : Overrides := ⟨false, false, false⟩

/-- Returns whether basic authentication is allowed. -/
def pfWalletRpcValidateUrlPolicy (env : Overrides) (url : Text) : Except String Bool := do
  failIf (url = []) "missing wallet-rpc url"
  failIf (¬ httpScheme <+: url ∧ ¬ httpsScheme <+: url)
    "wallet-rpc url must use http:// or https://"
  let (host, _) ← okOr (pfParseHttpUrlHostPort url) "invalid wallet-rpc url"
  failIf (httpScheme <+: url ∧ ¬ pfHttpHostIsLoopback host ∧ ¬ env.walletRemoteHttp)
    "wallet-rpc remote http:// blocked (use https:// or set NXMS_WALLET_RPC_ALLOW_REMOTE_HTTP=true)"
  pure (pfHttpHostIsLoopback host || env.walletBasicRemote)

def pfRequireEscrowBaseUrlPolicy (env : Overrides) (base : Text) (allowRemoteHttpOverride : Bool)
    (ctx : String) : Except String Unit :=
  if base = [] ∨ (¬ httpScheme <+: base.map lower ∧ ¬ httpsScheme <+: base.map lower) then .ok ()
  else do
    let (host, _) ← okOr (pfParseHttpUrlHostPort base) (ctx ++ ": invalid --base URL")
    failIf (httpScheme <+: base.map lower ∧ ¬ endsOnion host ∧ ¬ pfHttpHostIsLoopback host
        ∧ ¬ allowRemoteHttpOverride ∧ ¬ env.escrowRemoteHttp)
      (ctx ++ ": non-onion remote http:// base blocked (use .onion+socks5h, https://, loopback, "
        ++ "or set NEXUM_ESCROW_ALLOW_REMOTE_HTTP=true)")

def octet (part : Text) : Bool :=
  part ≠ [] && part.length ≤ 3 && part.all isDigit && decimal part ≤ 255

/-- An IPv4 literal in `127.0.0.0/8`. -/
def ipv4Loopback (host : Text) : Bool :=
  match host.splitOn 46 with
  | [a, b, c, d] => a = utf8 "127" && octet b && octet c && octet d
  | _ => false

def isLoopback (host : Text) : Bool :=
  host.map lower = utf8 "localhost" || host = utf8 "::1" || ipv4Loopback host
    || (utf8 "::ffff:" <+: host.map lower && ipv4Loopback (host.drop 7))

def loopbackHost (url : Text) : Bool := (standardHost url).any isLoopback

/-- **Nothing in clear to a remote host.** A URL that passes goes to the loopback, or to an onion
    host where that is allowed. -/
def PlainHttpSafe (url : Text) : Prop :=
  (∀ basic, pfWalletRpcValidateUrlPolicy noOverride url = .ok basic → loopbackHost url = true)
    ∧ ∀ ctx, pfRequireEscrowBaseUrlPolicy noOverride url false ctx = .ok () →
      loopbackHost url = true ∨ onionHost url = true

section
variable (p : Parts)

/-- A URL with the scheme `http`. -/
def Parts.http : Parts :=
  { p with
    scheme := utf8 "http"
    scheme_ne := by decide
    scheme_mem := by simpa using List.all_eq_true.mp (show (utf8 "http").all
      (fun b => notColon b && !endsAuthority b) = true by decide) }

/-- What follows a host without a port, up to a slash or a colon: the beginning of a query, or
    nothing. -/
def Parts.bare : Text :=
  match p.port with
  | none => p.tail.takeWhile notColonSlash
  | some _ => []

/-- What stands in the place of the host, up to the first colon or slash: the name before a password;
    user information and host; the host alone, if it is in brackets; or the host and a query. -/
def Parts.front : Text :=
  match p.user with
  | some (name, some _) => name
  | some (name, none) => name ++ 64 :: (p.hostText.takeWhile notColonSlash
      ++ if 58 ∈ p.hostText then [] else p.bare)
  | none => if p.bracketed then p.host else p.host ++ p.bare

/-- It is the loopback, or only begins like it. -/
def LooksLocal (text : Text) : Prop :=
  text = utf8 "::1" ∨ text.map lower = utf8 "localhost" ∨ utf8 "127." <+: text
    ∨ utf8 "::ffff:127" <+: text

/-- What stands in the place of the host looks like the loopback or ends in `.onion`, and the host
    does not. -/
def Parts.Misread : Prop :=
  (LooksLocal p.front ∧ isLoopback p.host = false)
    ∨ (endsOnion p.front = true ∧ isLoopback p.host = false ∧ endsOnion p.host = false)

theorem looksLocal_iff {text : Text} : pfHttpHostIsLoopback text = true ↔ LooksLocal text := by
  simp only [pfHttpHostIsLoopback, LooksLocal, Bool.or_eq_true, decide_eq_true_eq]
  tauto

/-- **What the scanner takes for the host.** -/
theorem Parts.scanHost_eq {x : Text × Text} (h : scanHost (p.authority ++ p.tail) = some x) :
    x.1 = p.front := by
  have hbare : (p.portText ++ p.tail).takeWhile notColonSlash = p.bare := by
    unfold Parts.portText Parts.bare
    split <;> rfl
  -- of the bytes in an authority, only a colon stops the scanner
  have hscan : ∀ {b}, endsAuthority b = false → b ≠ 58 → notColonSlash b = true := by
    intro b hb hcolon
    have hslash : b ≠ 47 := by
      rintro rfl
      cases hb
    simp [notColonSlash, hcolon, hslash]
  have hhostText : ∀ b ∈ p.hostText, b ≠ 58 → notColonSlash b = true := fun b hb =>
    hscan (p.hostport_mem b (List.mem_append_left _ hb)).1
  unfold scanHost at h
  split at h
  · -- brackets, and nothing before them
    rename_i rest heq
    obtain ⟨hnone, hb⟩ := p.bracketed_of_head heq
    rw [Parts.authority, Parts.userText, hnone, p.hostText_bracketed hb] at heq
    obtain rfl : rest = p.host ++ 93 :: (p.portText ++ p.tail) := by simpa using heq.symm
    simp only [dropWhile_stop (p.host_closed hb) ⟨93, _, rfl, rfl⟩,
      takeWhile_stop (p.host_closed hb) (.inr ⟨93, _, rfl, rfl⟩), Option.some.injEq] at h
    rw [← h, Parts.front, hnone]
    simp [hb]
  · rename_i hhead
    cases h
    have hname := p.name_mem
    dsimp only
    unfold Parts.authority Parts.userText at hhead ⊢
    unfold Parts.front
    cases huser : p.user with
    | none =>
      rw [huser] at hhead
      have hb : p.bracketed = false := by
        by_contra hb
        refine hhead (p.host ++ 93 :: (p.portText ++ p.tail)) ?_
        rw [List.nil_append, List.append_assoc, p.hostText_bracketed (by simpa using hb)]
      rw [p.hostText_plain hb] at hhostText ⊢
      have hcolon : ∀ b ∈ p.host, b ≠ 58 := fun b h => by simpa [notColon] using p.host_plain hb b h
      rw [List.nil_append, List.append_assoc, takeWhile_past (c := 58) rfl hhostText,
        if_neg fun h => hcolon 58 h rfl, hbare,
        List.takeWhile_eq_self_iff.mpr fun b h => hhostText b h (hcolon b h)]
      simp [hb]
    | some user =>
      obtain ⟨name, password⟩ := user
      have hplain : ∀ b ∈ name, notColonSlash b = true := by
        intro b hb
        obtain ⟨hcolon, hends⟩ := hname _ huser b hb
        exact hscan hends (by simpa [notColon] using hcolon)
      cases password with
      | some password =>
        simp only [List.append_assoc, List.cons_append]
        exact takeWhile_stop hplain (.inr ⟨58, _, rfl, rfl⟩)
      | none =>
        simp only [List.append_assoc, List.cons_append, List.nil_append]
        rw [List.takeWhile_append_of_pos hplain, List.takeWhile_cons_of_pos (by decide),
          takeWhile_past (c := 58) rfl hhostText, hbare]

theorem Parts.http_text : p.http.text = httpScheme ++ (p.authority ++ p.tail) := rfl

theorem Parts.http_scheme : httpScheme <+: p.http.text := ⟨_, p.http_text.symm⟩

theorem Parts.http_ne : p.http.text ≠ [] := List.cons_ne_nil _ _

theorem Parts.parse_eq {x : Text × Nat} (h : pfParseHttpUrlHostPort p.http.text = some x) :
    x.1 = p.front := by
  have hdrop : p.http.text.drop 7 = p.authority ++ p.tail := rfl
  simp only [pfParseHttpUrlHostPort, p.http_scheme, if_true, hdrop, Option.bind_eq_bind,
    Option.bind_eq_some_iff] at h
  obtain ⟨scanned, hscan, -, -, port, -, hx⟩ := h
  cases hx
  exact p.scanHost_eq hscan

theorem Parts.parsed_iff (P : Text → Prop) :
    (∃ x, pfParseHttpUrlHostPort p.http.text = some x ∧ P x.1)
      ↔ (pfParseHttpUrlHostPort p.http.text).isSome = true ∧ P p.front := by
  rw [Option.isSome_iff_exists, ← exists_and_right]
  exact exists_congr fun x => and_congr_right fun hparse => by rw [p.parse_eq hparse]

theorem Parts.wallet_accepts_iff :
    (∃ basic, pfWalletRpcValidateUrlPolicy noOverride p.http.text = .ok basic)
      ↔ (pfParseHttpUrlHostPort p.http.text).isSome = true ∧ LooksLocal p.front := by
  have hscheme := p.http_scheme
  rw [← p.parsed_iff, exists_congr fun x => and_congr_right fun _ => looksLocal_iff.symm]
  simp only [pfWalletRpcValidateUrlPolicy, bind_eq_ok, okOr_eq_ok, failIf_eq_ok, exists_unit,
    pure_eq_ok, noOverride]
  constructor
  · rintro ⟨basic, -, -, x, hparse, hblock, -⟩
    exact ⟨x, hparse, by simpa [hscheme] using hblock⟩
  · rintro ⟨x, hparse, hlocal⟩
    exact ⟨_, p.http_ne, by simp [hscheme], x, hparse, by simp [hlocal], rfl⟩

theorem Parts.escrow_accepts_iff :
    (∃ ctx, pfRequireEscrowBaseUrlPolicy noOverride p.http.text false ctx = .ok ())
      ↔ (pfParseHttpUrlHostPort p.http.text).isSome = true
        ∧ (endsOnion p.front = true ∨ LooksLocal p.front) := by
  have hlower : httpScheme <+: p.http.text.map lower := by
    rw [p.http_text, List.map_append]
    exact List.prefix_append _ _
  rw [← p.parsed_iff fun host => endsOnion host = true ∨ LooksLocal host,
    exists_congr fun x => and_congr_right fun _ => or_congr_right looksLocal_iff.symm]
  simp [pfRequireEscrowBaseUrlPolicy, bind_eq_ok, noOverride, p.http_ne, hlower,
    or_iff_not_imp_left]

theorem Parts.misread_iff (huser : p.user = none) (hbare : p.bare = []) :
    p.Misread ↔ (utf8 "127." <+: p.host ∨ utf8 "::ffff:127" <+: p.host)
      ∧ isLoopback p.host = false := by
  have hfront : p.front = p.host := by
    simp only [Parts.front, huser, hbare, List.append_nil, ite_self]
  have hown : ∀ {text : Text}, text = utf8 "::1" ∨ text.map lower = utf8 "localhost" →
      isLoopback text = true := by
    rintro text (h | h) <;> simp [isLoopback, h]
  rw [Parts.Misread, hfront, LooksLocal]
  constructor
  · rintro (⟨hlooks, hno⟩ | ⟨hyes, -, hno⟩)
    · rcases hlooks with h | h | h
      · exact absurd (hown (.inl h)) (by simp [hno])
      · exact absurd (hown (.inr h)) (by simp [hno])
      · exact ⟨h, hno⟩
    · rw [hyes] at hno
      cases hno
  · rintro ⟨h, hno⟩
    exact .inl ⟨.inr (.inr h), hno⟩

end

end Nexum.Cli.Url
