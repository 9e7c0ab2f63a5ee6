import Nexum.Lib.Bytes
import Nexum.Lib.Hex
import Nexum.Lib.Split

/-!
# Digest headers

A wallet's HTTP server asks for a digest with a list of attributes, and is answered with another.
Values are put between quotes, with a backslash in front of quotes and backslashes; the reader
undoes that **with two replacements, one after the other**. That they come in the right order is
`unescape_escape`; that a comma or an equals sign in a value does no harm is `attributes_read`.
Both crates have these functions, and what differs between them is the acceptance of an algorithm
and where the nonce count comes from.
-/

namespace Nexum.Signer.DigestHeader

open Nexum.Lib

abbrev Text := List Char

/-! ## 1. The code -/

/-- `str::replace` of two characters by one. -/
def replacePair (a b c : Char) : Text → Text
  | [] => []
  | [x] => [x]
  | x :: y :: rest =>
    if x = a ∧ y = b then c :: replacePair a b c rest else x :: replacePair a b c (y :: rest)

/-- `str::replace` of one character. -/
def replaceChar (a : Char) (by_ : Text) (value : Text) : Text :=
  value.flatMap fun c => if c = a then by_ else [c]

def escapeDigestValue (value : Text) : Text :=
  replaceChar '"' ['\\', '"'] (replaceChar '\\' ['\\', '\\'] value)

def unescapeDigestValue (value : Text) : Text :=
  replacePair '\\' '\\' '\\' (replacePair '\\' '"' '"' value)

abbrev Attributes := List (Text × Text)

def Attributes.insert (out : Attributes) (key value : Text) : Attributes :=
  out.filter (·.1 ≠ key) ++ [(key, value)]

def pushPart (out : Attributes) (rawPart : Text) : Attributes :=
  let p := trimChars rawPart
  if p = [] then out
  else
    match p.dropWhile (· ≠ '=') with
    | [] => out
    | _ :: v =>
      let key := (trimChars (p.takeWhile (· ≠ '='))).map Char.toLower
      let value := trimChars v
      if value.head? = some '"' ∧ value.getLast? = some '"' ∧ 2 ≤ value.length then
        out.insert key (unescapeDigestValue value.tail.dropLast)
      else out.insert key value

structure Scan where
  out : Attributes
  part : Text
  inQuotes : Bool
  escaped : Bool

def Scan.step (s : Scan) (ch : Char) : Scan :=
  if s.escaped then { s with part := s.part ++ [ch], escaped := false }
  else if ch = '\\' then { s with part := s.part ++ [ch], escaped := true }
  else if ch = '"' then { s with part := s.part ++ [ch], inQuotes := !s.inQuotes }
  else if ch = ',' ∧ ¬ s.inQuotes then { s with out := pushPart s.out s.part, part := [] }
  else { s with part := s.part ++ [ch] }

def parseDigestAttributes (input : Text) : Attributes :=
  let s := input.foldl Scan.step ⟨[], [], false, false⟩
  if trimChars s.part ≠ [] then pushPart s.out s.part else s.out

structure DigestChallenge where
  realm : Text
  nonce : Text
  qop : Option Text
  algorithm : Text
  opaque_ : Option Text
  stale : Bool

def chooseQop (raw : Text) : Option Text :=
  if (raw.splitOn ',').any fun token => (trimChars token).map Char.toLower == chars "auth" then
    some (chars "auth")
  else ((raw.splitOn ',').head?.map trimChars).filter (· ≠ [])

/-- `parse_header`, with the algorithms that are accepted. -/
def parseHeaderWith (accepts : Text → Bool) (raw : Text) : Option DigestChallenge := do
  let trimmed := trimChars raw
  if ¬ (chars "digest ").isPrefixOf (trimmed.map Char.toLower) then none
  else
    let attrs := parseDigestAttributes (trimmed.drop 7)
    let realm ← attrs.lookup (chars "realm")
    let nonce ← attrs.lookup (chars "nonce")
    let algorithm := (attrs.lookup (chars "algorithm")).getD (chars "MD5")
    if ¬ accepts (algorithm.map Char.toLower) then none
    else
      some
        { realm, nonce, algorithm
          qop := (attrs.lookup (chars "qop")).bind chooseQop
          opaque_ := attrs.lookup (chars "opaque")
          stale := ((attrs.lookup (chars "stale")).map fun v =>
            v.map Char.toLower == chars "true").getD false }

/-- The signer's copy takes any algorithm. -/
def parseHeader : Text → Option DigestChallenge := parseHeaderWith fun _ => true

/-- The copy of the wallet crate. -/
def parseHeaderCore : Text → Option DigestChallenge :=
  parseHeaderWith fun algorithm => algorithm == chars "md5" || algorithm == chars "md5-sess"

/-- An attribute as it is written. -/
def quotedPart (key value : Text) : Text := key ++ '=' :: '"' :: (escapeDigestValue value ++ ['"'])

def barePart (key value : Text) : Text := key ++ '=' :: value

/-- `{:08x}`. -/
def ncText (nc : UInt32) : Text := chars (hexEncode (u32be nc.toNat))

section Build

variable (md5 : Text → Bytes 16)

def md5Hex (data : Text) : Text := chars (hexEncode (md5 data).data)

def digestResponse (challenge : DigestChallenge) (method uri username password cnonce nc : Text) :
    Text :=
  let algorithm := challenge.algorithm.map Char.toUpper
  let ha1Base := md5Hex md5 (username ++ ':' :: challenge.realm ++ ':' :: password)
  let ha1 := if algorithm = chars "MD5-SESS" then
      md5Hex md5 (ha1Base ++ ':' :: challenge.nonce ++ ':' :: cnonce)
    else ha1Base
  let ha2 := md5Hex md5 (method ++ ':' :: uri)
  match challenge.qop with
  | some qop => md5Hex md5 (ha1 ++ ':' :: challenge.nonce ++ ':' :: nc ++ ':' :: cnonce
      ++ ':' :: qop ++ ':' :: ha2)
  | none => md5Hex md5 (ha1 ++ ':' :: challenge.nonce ++ ':' :: ha2)

/-- The client's nonce is drawn by the caller, or handed in. -/
def buildDigestAuthorization (challenge : DigestChallenge)
    (method uri username password cnonce nc : Text) : Text :=
  let response := digestResponse md5 challenge method uri username password cnonce nc
  let parts := [quotedPart (chars "username") username, quotedPart (chars "realm") challenge.realm,
    quotedPart (chars "nonce") challenge.nonce, quotedPart (chars "uri") uri,
    chars "response=\"" ++ response ++ ['"'],
    barePart (chars "algorithm") (challenge.algorithm.map Char.toUpper)]
    ++ (challenge.opaque_.map fun v => quotedPart (chars "opaque") v).toList
    ++ match challenge.qop with
      | some qop => [barePart (chars "qop") qop, barePart (chars "nc") nc,
          quotedPart (chars "cnonce") cnonce]
      | none => []
  chars "Digest " ++ (chars ", ").intercalate parts

end Build

/-! ## 2. Escapes -/

theorem escapeDigestValue_cons (c : Char) (value : Text) : escapeDigestValue (c :: value)
    = (if c = '\\' ∨ c = '"' then ['\\', c] else [c]) ++ escapeDigestValue value := by
  unfold escapeDigestValue replaceChar
  rw [List.flatMap_cons, List.flatMap_append]
  congr 1
  by_cases hback : c = '\\'
  · subst hback
    rfl
  · by_cases hquote : c = '"' <;> simp [hback, hquote]

theorem escape_of_plain {value : Text} (h : ∀ c ∈ value, c ≠ '\\' ∧ c ≠ '"') :
    escapeDigestValue value = value := by
  induction value with
  | nil => rfl
  | cons c value ih =>
    obtain ⟨hback, hquote⟩ := h c List.mem_cons_self
    rw [escapeDigestValue_cons, if_neg (by simp [hback, hquote]),
      ih fun x hx => h x (List.mem_cons_of_mem c hx)]
    rfl

/-- An escaped text does not begin with a quote. -/
theorem head_escape (value : Text) : (escapeDigestValue value).head? ≠ some '"' := by
  cases value with
  | nil => nofun
  | cons c value =>
    rw [escapeDigestValue_cons]
    split
    · simp
    · rename_i h
      simp only [not_or] at h
      simpa using h.2

theorem replacePair_cons {a b c x : Char} {rest : Text} (h : x ≠ a ∨ rest.head? ≠ some b) :
    replacePair a b c (x :: rest) = x :: replacePair a b c rest := by
  cases rest with
  | nil => rfl
  | cons y rest =>
    rw [replacePair, if_neg]
    rintro ⟨rfl, rfl⟩
    simp at h

/-- The first replacement takes the backslashes off the quotes. -/
theorem replace_quotes (value : Text) : replacePair '\\' '"' '"' (escapeDigestValue value)
    = replaceChar '\\' ['\\', '\\'] value := by
  induction value with
  | nil => rfl
  | cons c value ih =>
    rw [escapeDigestValue_cons, replaceChar, List.flatMap_cons, ← replaceChar, ← ih]
    by_cases hback : c = '\\'
    · subst hback
      rw [if_pos (.inl rfl), if_pos rfl]
      show replacePair '\\' '"' '"' ('\\' :: '\\' :: escapeDigestValue value) = _
      rw [replacePair_cons (.inr (by simp)), replacePair_cons (.inr (head_escape value))]
      rfl
    · rw [if_neg hback]
      by_cases hquote : c = '"'
      · subst hquote
        rfl
      · rw [if_neg (by simp [hback, hquote])]
        exact replacePair_cons (.inl hback)

/-- The second one halves the rest. -/
theorem replace_backslashes (value : Text) :
    replacePair '\\' '\\' '\\' (replaceChar '\\' ['\\', '\\'] value) = value := by
  induction value with
  | nil => rfl
  | cons c value ih =>
    rw [replaceChar, List.flatMap_cons, ← replaceChar]
    by_cases hback : c = '\\'
    · subst hback
      rw [if_pos rfl]
      show '\\' :: replacePair '\\' '\\' '\\' (replaceChar '\\' ['\\', '\\'] value) = _
      rw [ih]
    · rw [if_neg hback]
      show replacePair '\\' '\\' '\\' (c :: replaceChar '\\' ['\\', '\\'] value) = _
      rw [replacePair_cons (.inl hback), ih]

theorem unescape_escape (value : Text) : unescapeDigestValue (escapeDigestValue value) = value := by
  rw [unescapeDigestValue, replace_quotes, replace_backslashes]

/-! ## 3. Attributes -/

def isBare (c : Char) : Bool := c.isAlphanum || c == '-'

theorem isBare_ne {c : Char} (h : isBare c = true) :
    (c ≠ '\\' ∧ c ≠ '"' ∧ c ≠ ',' ∧ c ≠ '=') ∧ isWhitespace c = false := by
  refine ⟨⟨?_, ?_, ?_, ?_⟩, isWhitespace_of_visible ?_⟩
  · rintro rfl
    exact absurd h (by decide)
  · rintro rfl
    exact absurd h (by decide)
  · rintro rfl
    exact absurd h (by decide)
  · rintro rfl
    exact absurd h (by decide)
  · simp only [isBare, Bool.or_eq_true, beq_iff_eq, isAlphanum_iff] at h
    rcases h with h | rfl
    · omega
    · decide

/-- An attribute and how it is written. -/
structure Attr where
  key : Text
  value : Text
  quoted : Bool

def Attr.text (a : Attr) : Text :=
  if a.quoted then quotedPart a.key a.value else barePart a.key a.value

/-- What needs quotes has them. -/
structure Attr.Ok (a : Attr) : Prop where
  named : a.key ≠ []
  key : ∀ c ∈ a.key, isBare c = true
  lower : a.key.map Char.toLower = a.key
  value : a.quoted = false → ∀ c ∈ a.value, isBare c = true

/-- What comes after the equals sign. -/
def Attr.right (a : Attr) : Text :=
  if a.quoted then '"' :: (escapeDigestValue a.value ++ ['"']) else a.value

theorem Attr.text_eq (a : Attr) : a.text = a.key ++ '=' :: a.right := by
  unfold text right
  split <;> rfl

theorem scan_plain {s : Scan} (hs : s.escaped = false) {text : Text}
    (h : ∀ c ∈ text, c ≠ '\\' ∧ c ≠ '"' ∧ c ≠ ',') :
    text.foldl Scan.step s = { s with part := s.part ++ text } := by
  induction text generalizing s with
  | nil => simp
  | cons c text ih =>
    obtain ⟨hback, hquote, hcomma⟩ := h c List.mem_cons_self
    have hstep : s.step c = { s with part := s.part ++ [c] } := by
      simp [Scan.step, hs, hback, hquote, hcomma]
    rw [List.foldl_cons, hstep, ih (s := { s with part := s.part ++ [c] }) hs fun x hx =>
      h x (List.mem_cons_of_mem c hx)]
    simp

theorem scan_escaped {s : Scan} (hs : s.escaped = false) (hquotes : s.inQuotes = true)
    (value : Text) : (escapeDigestValue value).foldl Scan.step s
      = { s with part := s.part ++ escapeDigestValue value } := by
  induction value generalizing s with
  | nil => simp [escapeDigestValue, replaceChar]
  | cons c value ih =>
    rw [escapeDigestValue_cons, List.foldl_append]
    have hstep : (if c = '\\' ∨ c = '"' then ['\\', c] else [c]).foldl Scan.step s
        = { s with part := s.part ++ if c = '\\' ∨ c = '"' then ['\\', c] else [c] } := by
      split
      · simp [Scan.step, hs]
      · rename_i h
        simp only [not_or] at h
        simp [Scan.step, hs, hquotes, h.1, h.2]
    rw [hstep, ih (s := { s with part := s.part ++ _ }) hs hquotes]
    simp

theorem scan_attr {s : Scan} (hs : s.escaped = false) (hquotes : s.inQuotes = false) {a : Attr}
    (ha : a.Ok) : a.text.foldl Scan.step s = { s with part := s.part ++ a.text } := by
  have hplain : ∀ {text : Text}, (∀ c ∈ text, isBare c = true) →
      ∀ c ∈ text, c ≠ '\\' ∧ c ≠ '"' ∧ c ≠ ',' := by
    intro text h c hc
    obtain ⟨⟨hback, hquote, hcomma, -⟩, -⟩ := isBare_ne (h c hc)
    exact ⟨hback, hquote, hcomma⟩
  have hkey : (a.key ++ ['=']).foldl Scan.step s
      = { s with part := s.part ++ (a.key ++ ['=']) } := by
    refine scan_plain hs fun c hc => ?_
    rcases List.mem_append.mp hc with hc | hc
    · exact hplain ha.key c hc
    · rw [List.mem_singleton.mp hc]
      decide
  rw [a.text_eq, show a.key ++ '=' :: a.right = (a.key ++ ['=']) ++ a.right by simp,
    List.foldl_append, hkey]
  unfold Attr.right
  cases hq : a.quoted with
  | false =>
    rw [if_neg (by decide), scan_plain (by exact hs) (hplain (ha.value hq))]
    simp
  | true =>
    rw [if_pos rfl, List.foldl_cons, List.foldl_append]
    have hopen : Scan.step { s with part := s.part ++ (a.key ++ ['=']) } '"'
        = { s with part := s.part ++ (a.key ++ ['=']) ++ ['"'], inQuotes := true } := by
      simp [Scan.step, hs, hquotes]
    rw [hopen, scan_escaped (by exact hs) rfl]
    simp [Scan.step, hs, hquotes]

theorem trimChars_of_ends {cs : Text}
    (h : ∀ c, cs.head? = some c ∨ cs.getLast? = some c → isWhitespace c = false) :
    trimChars cs = cs := by
  cases cs with
  | nil => rfl
  | cons c cs =>
    have htrim := trimMatches_framed (l := []) (r := []) nofun nofun (List.cons_ne_nil c cs) h
    rw [List.nil_append, List.append_nil] at htrim
    exact htrim

theorem ends_of_bare {cs : Text} (h : ∀ c ∈ cs, isBare c = true) :
    ∀ c, cs.head? = some c ∨ cs.getLast? = some c → isWhitespace c = false := fun c hc =>
  (isBare_ne (h c (hc.elim List.mem_of_mem_head? List.mem_of_getLast?))).2

/-- The value with its quotes has no blanks at its ends, and is read back. -/
theorem Attr.Ok.right_ends {a : Attr} (h : a.Ok) :
    ∀ c, a.right.head? = some c ∨ a.right.getLast? = some c → isWhitespace c = false := by
  unfold Attr.right
  cases hq : a.quoted with
  | false => exact ends_of_bare (h.value hq)
  | true =>
    intro c hc
    have hquote : c = '"' := by
      rw [if_pos rfl] at hc
      rcases hc with hc | hc
      · exact (Option.some.inj hc).symm
      · rw [← List.cons_append, List.getLast?_concat] at hc
        exact (Option.some.inj hc).symm
    rw [hquote]
    decide

theorem Attr.Ok.text_ends {a : Attr} (h : a.Ok) :
    ∀ c, a.text.head? = some c ∨ a.text.getLast? = some c → isWhitespace c = false := by
  intro c hc
  rw [a.text_eq] at hc
  rcases hc with hc | hc
  · refine ends_of_bare h.key c (.inl ?_)
    obtain ⟨k, key, hkey⟩ := List.exists_cons_of_ne_nil h.named
    rw [hkey] at hc ⊢
    exact hc
  · cases hright : a.right with
    | nil =>
      rw [hright, List.getLast?_concat] at hc
      cases hc
      decide
    | cons x right =>
      refine h.right_ends c (.inr ?_)
      rw [hright] at hc ⊢
      simpa using hc

theorem Attr.Ok.trim {a : Attr} (h : a.Ok) {lead : Text}
    (hlead : ∀ c ∈ lead, isWhitespace c = true) : trimChars (lead ++ a.text) = a.text := by
  have hne : a.text ≠ [] := by simp [a.text_eq]
  have htrim := trimMatches_framed (r := []) hlead nofun hne h.text_ends
  rw [List.append_nil] at htrim
  exact htrim

/-- **One attribute is read.** -/
theorem pushPart_attr {a : Attr} (h : a.Ok) {lead : Text}
    (hlead : ∀ c ∈ lead, isWhitespace c = true) {out : Attributes}
    (hnew : ∀ kv ∈ out, kv.1 ≠ a.key) :
    pushPart out (lead ++ a.text) = out ++ [(a.key, a.value)] := by
  have hne : a.text ≠ [] := by simp [a.text_eq]
  have hkey : ∀ c ∈ a.key, decide (c ≠ '=') = true := fun c hc =>
    decide_eq_true (isBare_ne (h.key c hc)).1.2.2.2
  have hdrop : a.text.dropWhile (· ≠ '=') = '=' :: a.right := by
    rw [a.text_eq, List.dropWhile_append_of_pos hkey]
    exact List.dropWhile_cons_of_neg (by simp)
  have htake : a.text.takeWhile (· ≠ '=') = a.key := by
    rw [a.text_eq, List.takeWhile_append_of_pos hkey]
    simp
  have hinsert : ∀ value, out.insert a.key value = out ++ [(a.key, value)] := by
    intro value
    rw [Attributes.insert, List.filter_eq_self.mpr fun kv hkv => decide_eq_true (hnew kv hkv)]
  unfold pushPart
  rw [h.trim hlead]
  dsimp only
  rw [if_neg hne, hdrop, htake, trimChars_of_ends (ends_of_bare h.key), h.lower]
  dsimp only
  rw [trimChars_of_ends h.right_ends, hinsert, hinsert]
  cases hq : a.quoted with
  | false =>
    have hright : a.right = a.value := by simp [Attr.right, hq]
    rw [hright, if_neg]
    rintro ⟨hhead, -⟩
    exact (isBare_ne (h.value hq _ (List.mem_of_mem_head? hhead))).1.2.1 rfl
  | true =>
    have hright : a.right = '"' :: (escapeDigestValue a.value ++ ['"']) := by simp [Attr.right, hq]
    rw [hright, if_pos]
    · rw [List.tail_cons, List.dropLast_concat, unescape_escape]
    · exact ⟨rfl, by rw [← List.cons_append, List.getLast?_concat], by simp⟩

/-- What has been read so far, and the attribute that is at the end. -/
theorem scan_attrs {a : Attr} {rest : List Attr} (hok : ∀ x ∈ a :: rest, x.Ok)
    (out : Attributes) (lead : Text)
    (hnew : (out.map Prod.fst ++ (a :: rest).map Attr.key).Nodup)
    (hlead : ∀ c ∈ lead, isWhitespace c = true) :
    let s := (rest.flatMap fun x => ',' :: ' ' :: x.text).foldl Scan.step
      ⟨out, lead ++ a.text, false, false⟩
    pushPart s.out s.part = out ++ (a :: rest).map (fun x => (x.key, x.value))
      ∧ trimChars s.part ≠ [] := by
  have ha := hok a List.mem_cons_self
  have hfresh : ∀ kv ∈ out, kv.1 ≠ a.key := by
    intro kv hkv heq
    exact (List.nodup_append.mp hnew).2.2 _ (List.mem_map_of_mem hkv) _ List.mem_cons_self heq
  induction rest generalizing a out lead with
  | nil =>
    refine ⟨pushPart_attr ha hlead hfresh, ?_⟩
    show trimChars (lead ++ a.text) ≠ []
    rw [ha.trim hlead, a.text_eq]
    simp
  | cons b rest ih =>
    have hb := hok b (by simp)
    have hstep : (',' :: ' ' :: b.text).foldl Scan.step ⟨out, lead ++ a.text, false, false⟩
        = ⟨out ++ [(a.key, a.value)], [' '] ++ b.text, false, false⟩ := by
      have hcomma : Scan.step ⟨out, lead ++ a.text, false, false⟩ ','
          = ⟨out ++ [(a.key, a.value)], [], false, false⟩ := by
        simp [Scan.step, pushPart_attr ha hlead hfresh]
      rw [List.foldl_cons, hcomma, List.foldl_cons]
      exact scan_attr rfl rfl hb
    rw [List.flatMap_cons, List.foldl_append, hstep]
    have hnodup : ((out ++ [(a.key, a.value)]).map Prod.fst ++ (b :: rest).map Attr.key).Nodup := by
      simpa using hnew
    have hblank : ∀ c ∈ [' '], isWhitespace c = true := by
      intro c hc
      rw [List.mem_singleton.mp hc]
      rfl
    have hfresh' : ∀ kv ∈ out ++ [(a.key, a.value)], kv.1 ≠ b.key := by
      intro kv hkv heq
      exact (List.nodup_append.mp hnodup).2.2 _ (List.mem_map_of_mem hkv) _ List.mem_cons_self heq
    have hthen := ih (fun x hx => hok x (List.mem_cons_of_mem a hx)) _ [' '] hnodup hblank hb
      hfresh'
    refine ⟨?_, hthen.2⟩
    rw [hthen.1]
    simp

theorem intercalate_eq (x : Text) (xs : List Text) :
    (chars ", ").intercalate (x :: xs) = x ++ xs.flatMap fun y => ',' :: ' ' :: y := by
  induction xs generalizing x with
  | nil => simp
  | cons y xs ih =>
    rw [List.intercalate_cons_cons, ih]
    simp

/-- **What is written is read.** -/
theorem attributes_read {attrs : List Attr} (hok : ∀ a ∈ attrs, a.Ok)
    (hkeys : (attrs.map Attr.key).Nodup) :
    parseDigestAttributes ((chars ", ").intercalate (attrs.map Attr.text))
      = attrs.map fun a => (a.key, a.value) := by
  cases attrs with
  | nil => rfl
  | cons a rest =>
    have hfirst : a.text.foldl Scan.step ⟨[], [], false, false⟩
        = ⟨[], [] ++ a.text, false, false⟩ := scan_attr rfl rfl (hok a List.mem_cons_self)
    obtain ⟨hread, hne⟩ := scan_attrs hok [] [] (by simpa using hkeys) nofun
    rw [List.map_cons, intercalate_eq, List.flatMap_map, parseDigestAttributes, List.foldl_append,
      hfirst]
    exact (if_pos hne).trans hread

/-! ## 4. Headers -/

theorem isBare_hex (bytes : List UInt8) : ∀ c ∈ chars (hexEncode bytes), isBare c = true := by
  intro c hc
  rw [chars_eq] at hc
  have hdigit := hexdigit_of_mem_hexEncode hc
  simp only [isAsciiHexdigit, hexValue] at hdigit
  rw [isBare, Bool.or_eq_true, isAlphanum_iff]
  left
  split at hdigit
  · omega
  · split at hdigit
    · omega
    · split at hdigit
      · omega
      · cases hdigit

/-- Letter case makes no difference. -/
theorem isBare_letterCase (c : Char) :
    isBare c.toLower = isBare c ∧ isBare c.toUpper = isBare c := by
  by_cases hascii : c.toNat < 128
  · have hall : ∀ n < 128, isBare (Char.ofNat n).toLower = isBare (Char.ofNat n)
        ∧ isBare (Char.ofNat n).toUpper = isBare (Char.ofNat n) := by decide +kernel
    simpa using hall c.toNat hascii
  · have hlarge : 128 ≤ c.val.toNat := Nat.not_lt.mp hascii
    delta Char.toLower Char.toUpper
    rw [dif_neg, dif_neg]
    · exact ⟨rfl, rfl⟩
    · simp only [UInt32.le_iff_toNat_le, not_and]
      intro _ hle
      exact absurd (hlarge.trans hle) (by decide)
    · simp only [UInt32.le_iff_toNat_le, ge_iff_le, not_and]
      intro _ hle
      exact absurd (hlarge.trans hle) (by decide)

/-- MD5 or MD5-sess, in any letter case. -/
def IsMd5 (algorithm : Text) : Prop :=
  algorithm.map Char.toLower = chars "md5" ∨ algorithm.map Char.toLower = chars "md5-sess"

theorem IsMd5.bare {algorithm : Text} (h : IsMd5 algorithm) :
    (∀ c ∈ algorithm, isBare c = true)
      ∧ ∀ c ∈ algorithm.map Char.toUpper, isBare c = true := by
  have hwords : ∀ name ∈ [chars "md5", chars "md5-sess"], name.all isBare = true := by
    decide +kernel
  have hlower := hwords (algorithm.map Char.toLower) (by simpa [IsMd5] using h)
  simp only [List.all_map, List.all_eq_true, Function.comp_apply, isBare_letterCase] at hlower
  exact ⟨hlower, by simpa [isBare_letterCase] using hlower⟩

/-- The names of attributes, in the order in which they are written. -/
def names : List Text :=
  ["username", "realm", "nonce", "uri", "response", "algorithm", "opaque", "qop", "nc", "cnonce",
    "stale"].map chars

theorem names_ok : (names.all fun key => key ≠ [] && key.all isBare && key.map Char.toLower == key)
    = true ∧ names.Nodup := by
  decide +kernel

theorem ok_of_names {attrs : List Attr} (hkeys : (attrs.map Attr.key).Sublist names)
    (hvalues : ∀ a ∈ attrs, a.quoted = false → ∀ c ∈ a.value, isBare c = true) :
    (∀ a ∈ attrs, a.Ok) ∧ (attrs.map Attr.key).Nodup := by
  refine ⟨fun a ha => ?_, hkeys.nodup names_ok.2⟩
  have hok := List.all_eq_true.mp names_ok.1 a.key (hkeys.subset (List.mem_map_of_mem ha))
  simp only [Bool.and_eq_true, decide_eq_true_eq, List.all_eq_true, beq_iff_eq] at hok
  exact ⟨hok.1.1, hok.1.2, hok.2, hvalues a ha⟩

/-- The attributes of an answer. -/
def authorizationAttrs (challenge : DigestChallenge) (uri username response cnonce nc : Text) :
    List Attr :=
  [⟨chars "username", username, true⟩, ⟨chars "realm", challenge.realm, true⟩,
    ⟨chars "nonce", challenge.nonce, true⟩, ⟨chars "uri", uri, true⟩,
    ⟨chars "response", response, true⟩,
    ⟨chars "algorithm", challenge.algorithm.map Char.toUpper, false⟩]
  ++ (challenge.opaque_.map fun v => ⟨chars "opaque", v, true⟩).toList
  ++ match challenge.qop with
    | some qop => [⟨chars "qop", qop, false⟩, ⟨chars "nc", nc, false⟩,
        ⟨chars "cnonce", cnonce, true⟩]
    | none => []

/-- The attributes of a challenge; only the words of the protocol may go without quotes. -/
def challengeAttrs (challenge : DigestChallenge) (quoted : Bool) : List Attr :=
  [⟨chars "realm", challenge.realm, true⟩, ⟨chars "nonce", challenge.nonce, true⟩,
    ⟨chars "algorithm", challenge.algorithm, quoted⟩]
  ++ (challenge.opaque_.map fun v => ⟨chars "opaque", v, true⟩).toList
  ++ (challenge.qop.map fun v => ⟨chars "qop", v, quoted⟩).toList
  ++ [⟨chars "stale", if challenge.stale then chars "true" else chars "false", quoted⟩]

def challengeLine (challenge : DigestChallenge) (quoted : Bool) : Text :=
  chars "Digest " ++ (chars ", ").intercalate ((challengeAttrs challenge quoted).map Attr.text)

theorem build_eq (md5 : Text → Bytes 16) (challenge : DigestChallenge)
    (method uri username password cnonce nc : Text) :
    buildDigestAuthorization md5 challenge method uri username password cnonce nc
      = chars "Digest " ++ (chars ", ").intercalate ((authorizationAttrs challenge uri username
        (digestResponse md5 challenge method uri username password cnonce nc) cnonce nc).map
          Attr.text) := by
  obtain ⟨data, hdata⟩ : ∃ data, digestResponse md5 challenge method uri username password cnonce nc
      = md5Hex md5 data := by
    unfold digestResponse
    dsimp only
    split <;> exact ⟨_, rfl⟩
  have hresponse : chars "response=\"" ++ md5Hex md5 data ++ ['"']
      = quotedPart (chars "response") (md5Hex md5 data) := by
    have hplain : ∀ c ∈ md5Hex md5 data, c ≠ '\\' ∧ c ≠ '"' := fun c hc =>
      ⟨(isBare_ne (isBare_hex _ c hc)).1.1, (isBare_ne (isBare_hex _ c hc)).1.2.1⟩
    rw [quotedPart, escape_of_plain hplain]
    simp
  unfold buildDigestAuthorization authorizationAttrs
  dsimp only
  rw [hdata, hresponse]
  cases challenge.opaque_ <;> cases challenge.qop <;> rfl

/-- The line ends with its last attribute. -/
theorem intercalate_concat (xs : List Text) (x : Text) :
    ∃ front, (chars ", ").intercalate (xs ++ [x]) = front ++ x := by
  cases xs with
  | nil => exact ⟨[], by simp⟩
  | cons y xs =>
    refine ⟨y ++ (xs.flatMap fun y => ',' :: ' ' :: y) ++ [',', ' '], ?_⟩
    rw [List.cons_append, intercalate_eq]
    simp

/-- What the reader finds under the names. -/
theorem lookup_challengeAttrs (challenge : DigestChallenge) (quoted : Bool) :
    let attrs := (challengeAttrs challenge quoted).map fun a => (a.key, a.value)
    attrs.lookup (chars "realm") = some challenge.realm
      ∧ attrs.lookup (chars "nonce") = some challenge.nonce
      ∧ attrs.lookup (chars "algorithm") = some challenge.algorithm
      ∧ attrs.lookup (chars "qop") = challenge.qop
      ∧ attrs.lookup (chars "opaque") = challenge.opaque_
      ∧ attrs.lookup (chars "stale")
        = some (if challenge.stale then chars "true" else chars "false") := by
  obtain ⟨realm, nonce, qop, algorithm, opaque_, stale⟩ := challenge
  cases qop <;> cases opaque_ <;> simp [challengeAttrs, List.lookup_cons]

theorem parseHeaderWith_line {accepts : Text → Bool} {challenge : DigestChallenge}
    (haccepts : accepts (challenge.algorithm.map Char.toLower) = true)
    (hqop : challenge.qop = none ∨ challenge.qop = some (chars "auth")) {quoted : Bool}
    (hok : ∀ a ∈ challengeAttrs challenge quoted, a.Ok)
    (hkeys : ((challengeAttrs challenge quoted).map Attr.key).Nodup) :
    parseHeaderWith accepts (challengeLine challenge quoted) = some challenge := by
  have htrim : trimChars (challengeLine challenge quoted) = challengeLine challenge quoted := by
    refine trimChars_of_ends fun c hc => ?_
    rcases hc with hc | hc
    · cases hc
      rfl
    · obtain ⟨attrs, last, hattrs⟩ : ∃ attrs last,
          challengeAttrs challenge quoted = attrs ++ [last] := ⟨_, _, rfl⟩
      have hlast : last.Ok := hok last (by simp [hattrs])
      refine hlast.text_ends c (.inr ?_)
      obtain ⟨front, hfront⟩ := intercalate_concat (attrs.map Attr.text) last.text
      rw [challengeLine, hattrs, List.map_append, List.map_singleton, hfront,
        ← List.append_assoc] at hc
      rwa [List.getLast?_append_of_ne_nil _ (by simp [last.text_eq])] at hc
  have hword : (chars "digest ").isPrefixOf ((challengeLine challenge quoted).map Char.toLower)
      = true := by
    have hlower : (chars "Digest ").map Char.toLower = chars "digest " := by decide
    rw [List.isPrefixOf_iff_prefix, challengeLine, List.map_append, hlower]
    exact List.prefix_append _ _
  have hrest : (challengeLine challenge quoted).drop 7
      = (chars ", ").intercalate ((challengeAttrs challenge quoted).map Attr.text) :=
    List.drop_left' (by decide)
  obtain ⟨hrealm, hnonce, halgorithm, hqop', hopaque, hstale⟩ :=
    lookup_challengeAttrs challenge quoted
  have hchosen : challenge.qop.bind chooseQop = challenge.qop := by
    rcases hqop with hqop | hqop <;> rw [hqop]
    · rfl
    · decide
  have hflag : ((if challenge.stale then chars "true" else chars "false").map Char.toLower
      == chars "true") = challenge.stale := by
    cases challenge.stale <;> decide
  unfold parseHeaderWith
  dsimp only
  rw [htrim, hword, hrest, attributes_read hok hkeys, hrealm, hnonce, halgorithm, hqop', hopaque,
    hstale, Option.map_some, hflag, hchosen]
  simp [haccepts]

section Ok

variable {challenge : DigestChallenge} (halgorithm : IsMd5 challenge.algorithm)
  (hauth : ∀ qop ∈ challenge.qop, ∀ c ∈ qop, isBare c = true)
include halgorithm hauth

theorem authorizationAttrs_ok (uri username response cnonce : Text) (nc : UInt32) :
    let attrs := authorizationAttrs challenge uri username response cnonce (ncText nc)
    (∀ a ∈ attrs, a.Ok) ∧ (attrs.map Attr.key).Nodup := by
  apply ok_of_names
  · unfold authorizationAttrs
    cases challenge.opaque_ <;> cases challenge.qop <;> exact List.isSublist_iff_sublist.mp rfl
  · intro a ha hbare
    simp only [authorizationAttrs, List.mem_append, List.mem_cons, List.not_mem_nil, or_false,
      Option.mem_toList, Option.map_eq_some_iff] at ha
    rcases ha with ((rfl | rfl | rfl | rfl | rfl | rfl) | ⟨v, -, rfl⟩) | ha
    · cases hbare
    · cases hbare
    · cases hbare
    · cases hbare
    · cases hbare
    · exact halgorithm.bare.2
    · cases hbare
    · cases hqop : challenge.qop with
      | none => simp [hqop] at ha
      | some qop =>
        simp only [hqop, List.mem_cons, List.not_mem_nil, or_false] at ha
        rcases ha with rfl | rfl | rfl
        · exact hauth qop hqop
        · exact isBare_hex _
        · cases hbare

theorem challengeAttrs_ok (quoted : Bool) :
    (∀ a ∈ challengeAttrs challenge quoted, a.Ok)
      ∧ ((challengeAttrs challenge quoted).map Attr.key).Nodup := by
  apply ok_of_names
  · unfold challengeAttrs
    cases challenge.opaque_ <;> cases challenge.qop <;> exact List.isSublist_iff_sublist.mp rfl
  · intro a ha hbare
    simp only [challengeAttrs, List.mem_append, List.mem_cons, List.not_mem_nil, or_false,
      Option.mem_toList, Option.map_eq_some_iff] at ha
    rcases ha with (((rfl | rfl | rfl) | ⟨v, -, rfl⟩) | ⟨qop, hqop, rfl⟩) | rfl
    · cases hbare
    · cases hbare
    · exact halgorithm.bare.1
    · cases hbare
    · exact hauth qop hqop
    · cases challenge.stale <;> exact List.all_eq_true.mp rfl

end Ok

/-- **Digest headers are read back**: what an answer says, by the parser, and what a challenge says,
    by the challenge's own reader in both crates. -/
theorem digest_headers_read (md5 : Text → Bytes 16) (challenge : DigestChallenge)
    (halgorithm : IsMd5 challenge.algorithm)
    (hqop : challenge.qop = none ∨ challenge.qop = some (chars "auth"))
    (method uri username password cnonce : Text) (nc : UInt32) :
    (∃ rest, buildDigestAuthorization md5 challenge method uri username password cnonce (ncText nc)
        = chars "Digest " ++ rest
      ∧ parseDigestAttributes rest = (authorizationAttrs challenge uri username
          (digestResponse md5 challenge method uri username password cnonce (ncText nc)) cnonce
          (ncText nc)).map fun a => (a.key, a.value))
    ∧ ∀ quoted, parseHeader (challengeLine challenge quoted) = some challenge
        ∧ parseHeaderCore (challengeLine challenge quoted) = some challenge := by
  have hauth : ∀ qop ∈ challenge.qop, ∀ c ∈ qop, isBare c = true := by
    intro qop hmem
    rcases hqop with hqop | hqop
    · rw [hqop] at hmem
      cases hmem
    · rw [hqop] at hmem
      cases hmem
      exact List.all_eq_true.mp (by decide)
  obtain ⟨hok, hkeys⟩ := authorizationAttrs_ok halgorithm hauth uri username
    (digestResponse md5 challenge method uri username password cnonce (ncText nc)) cnonce nc
  refine ⟨⟨_, build_eq .., attributes_read hok hkeys⟩, fun quoted => ?_⟩
  obtain ⟨hok, hkeys⟩ := challengeAttrs_ok halgorithm hauth quoted
  refine ⟨parseHeaderWith_line rfl hqop hok hkeys, parseHeaderWith_line ?_ hqop hok hkeys⟩
  rcases halgorithm with h | h <;> rw [h] <;> decide

/-- A challenge with quotes, backslashes, commas and equals signs in its values. -/
def sampleChallenge : DigestChallenge where
  realm := chars "a\"b\\, c=d"
  nonce := chars "\\\\\""
  qop := some (chars "auth")
  algorithm := chars "MD5-sess"
  opaque_ := some (chars ",\"")
  stale := true

theorem digest_headers_read_sample :
    parseHeader (challengeLine sampleChallenge false) = some sampleChallenge :=
  ((digest_headers_read (fun _ => ⟨List.replicate 16 0, rfl⟩) sampleChallenge
    (.inr (by decide)) (.inr rfl) [] [] [] [] [] 1).2 false).1

end Nexum.Signer.DigestHeader
