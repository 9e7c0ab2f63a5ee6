import Nexum.Lib.Split
import Nexum.Lib.Text

/-!
# What a log line shows

Details of a failure go through `sanitizeRuntimeDetail` before they are logged or sent: the text is
made one line, cut at 1024 bytes, dropped if it names a secret, and its words that look like a JWT
are replaced. A word looks like one if it is three dotted parts **with nothing but punctuation
around it**; a token in a path or next to a fourth part is left in. And the cut is made at a byte,
so a character that lies across it ends the program. `sanitized_iff` says when neither happens.
-/

namespace Nexum.Signer

open Nexum.Lib

/-! ## 1. The code -/

def byteLen (cs : List Char) : Nat := (cs.map Char.utf8Size).sum

/-- `&s[..n]`, which panics in the middle of a character. -/
def takeBytes : List Char → Nat → Option (List Char)
  | _, 0 => some []
  | [], _ + 1 => none
  | c :: cs, n + 1 =>
    if c.utf8Size ≤ n + 1 then (takeBytes cs (n + 1 - c.utf8Size)).map (c :: ·) else none

def oneLine (input : String) : List Char :=
  trimChars ((chars input).map fun c => if c = '\n' ∨ c = '\r' then ' ' else c)

def trimForLog (input : String) (maxLen : Nat) : Option (List Char) :=
  let compact := oneLine input
  if byteLen compact ≤ maxLen then some compact
  else (takeBytes compact maxLen).map (· ++ chars "...")

def splitWhitespace (raw : List Char) : List (List Char) :=
  (raw.splitOnP isWhitespace).filter (· ≠ [])

def isTokenChar (c : Char) : Bool :=
  c.isAlphanum || c == '-' || c == '_' || c == '='

/-- What `trim_matches` takes off a word. -/
def isFraming (c : Char) : Bool := !(isTokenChar c || c == '.')

def looksLikeJwtToken (token : List Char) : Bool :=
  match (trimMatches isFraming token).splitOn '.' with
  | [a, b, c] =>
    !(byteLen a < 8 || byteLen b < 8 || byteLen c < 8) && [a, b, c].all (·.all isTokenChar)
  | _ => false

def containsProbableJwt (raw : List Char) : Bool :=
  (splitWhitespace raw).any looksLikeJwtToken

def redactProbableJwtTokens (raw : List Char) : List Char :=
  [' '].intercalate ((splitWhitespace raw).map fun token =>
    if looksLikeJwtToken token then chars "<redacted.jwt>" else token)

/-- The texts that have a detail dropped as a whole. -/
def namesSecret (compact : List Char) : Bool :=
  let lower := toAsciiLowercase (String.ofList compact)
  ["authorization: bearer", "action_token=", "wallet_password", "password=", "\"password\""].any
    (containsText lower ·)

/-- `none` is a panic. -/
def sanitizeRuntimeDetail (raw : String) : Option (List Char) :=
  (trimForLog raw 1024).map fun compact =>
    if namesSecret compact then chars "redacted_sensitive_detail"
    else if containsProbableJwt compact then redactProbableJwtTokens compact
    else compact

/-! ## 2. Tokens -/

def JwtPart (a : List Char) : Prop := 8 ≤ a.length ∧ ∀ c ∈ a, isTokenChar c = true

/-- Three dotted parts. -/
inductive IsJwt : List Char → Prop
  | dotted {a b c : List Char} (ha : JwtPart a) (hb : JwtPart b) (hc : JwtPart c) :
      IsJwt (a ++ '.' :: (b ++ '.' :: c))

/-- A complete token somewhere in the text. -/
def HasJwt (text : List Char) : Prop := ∃ t, IsJwt t ∧ t <:+: text

/-- A token with punctuation around it. -/
def Framed (word : List Char) : Prop :=
  ∃ l t r, word = l ++ (t ++ r) ∧ IsJwt t ∧ (∀ c ∈ l, isFraming c = true)
    ∧ ∀ c ∈ r, isFraming c = true

/-- A token's characters are those a word may not lose. -/
theorem IsJwt.not_framing {t : List Char} (h : IsJwt t) : ∀ c ∈ t, isFraming c = false := by
  obtain ⟨ha, hb, hc⟩ := h
  intro x hx
  simp only [List.mem_append, List.mem_cons] at hx
  rw [isFraming, Bool.not_eq_false']
  rcases hx with hx | rfl | hx | rfl | hx
  · simp [ha.2 x hx]
  · rfl
  · simp [hb.2 x hx]
  · rfl
  · simp [hc.2 x hx]

theorem IsJwt.ne_nil {t : List Char} (h : IsJwt t) : t ≠ [] := by
  obtain ⟨ha, hb, hc⟩ := h
  simp

theorem toNat_of_isTokenChar {c : Char} (h : isTokenChar c = true) :
    45 ≤ c.toNat ∧ c.toNat ≤ 122 := by
  simp only [isTokenChar, Bool.or_eq_true, beq_iff_eq, isAlphanum_iff] at h
  rcases h with ((h | rfl) | rfl) | rfl
  · omega
  · decide
  · decide
  · decide

theorem isFraming_of_whitespace {c : Char} (h : isWhitespace c = true) : isFraming c = true := by
  rw [isFraming, Bool.not_eq_true', Bool.eq_false_iff]
  intro hkept
  have hrange : 45 ≤ c.toNat ∧ c.toNat ≤ 122 := by
    rcases Bool.or_eq_true_iff.mp hkept with htoken | hdot
    · exact toNat_of_isTokenChar htoken
    · rw [beq_iff_eq.mp hdot]
      decide
  rw [isWhitespace_of_visible (by omega)] at h
  cases h

theorem HasJwt.two_dots {text : List Char} (h : HasJwt text) : 2 ≤ text.count '.' := by
  obtain ⟨t, ht, hin⟩ := h
  refine le_trans ?_ (hin.count_le '.')
  obtain ⟨ha, hb, hc⟩ := ht
  simp only [List.count_append, List.count_cons_self]
  omega

theorem byteLen_token {a : List Char} (h : ∀ c ∈ a, isTokenChar c = true) :
    byteLen a = a.length := by
  induction a with
  | nil => rfl
  | cons c a ih =>
    have hone : c.utf8Size = 1 := by
      have hc := (toNat_of_isTokenChar (h c List.mem_cons_self)).2
      rw [Char.utf8Size_eq_one_iff, UInt32.le_iff_toNat_le]
      exact le_trans hc (by decide)
    rw [byteLen, List.map_cons, List.sum_cons, hone, List.length_cons, Nat.add_comm]
    congr 1
    exact ih fun x hx => h x (List.mem_cons_of_mem c hx)

theorem splitOn_token {a b c : List Char} (ha : JwtPart a) (hb : JwtPart b) (hc : JwtPart c) :
    (a ++ '.' :: (b ++ '.' :: c)).splitOn '.' = [a, b, c] := by
  have hdot : ∀ {p : List Char}, JwtPart p → '.' ∉ p := by
    intro p hp hmem
    exact absurd (hp.2 _ hmem) (by decide)
  rw [List.splitOn_append_cons_self, List.splitOn_append_cons_self,
    List.splitOn_eq_singleton (hdot ha), List.splitOn_eq_singleton (hdot hb),
    List.splitOn_eq_singleton (hdot hc)]
  rfl

/-- **What the code takes for a token.** -/
theorem looksLikeJwtToken_iff (word : List Char) : looksLikeJwtToken word = true ↔ Framed word := by
  constructor
  · intro h
    obtain ⟨l, r, hword, hl, hr⟩ := trimMatches_spec isFraming word
    unfold looksLikeJwtToken at h
    split at h
    · rename_i a b c hsplit
      simp only [Bool.and_eq_true, Bool.not_eq_true', Bool.or_eq_false_iff, decide_eq_false_iff_not,
        Nat.not_lt, List.all_cons, List.all_nil, List.all_eq_true, and_true] at h
      obtain ⟨⟨⟨hla, hlb⟩, hlc⟩, ha, hb, hc⟩ := h
      rw [byteLen_token ha] at hla
      rw [byteLen_token hb] at hlb
      rw [byteLen_token hc] at hlc
      have hjoin : ['.'].intercalate ((trimMatches isFraming word).splitOn '.')
          = trimMatches isFraming word := List.intercalate_splitOn '.'
      rw [hsplit, List.intercalate_cons_cons, List.intercalate_cons_cons] at hjoin
      refine ⟨l, _, r, hword, ?_, hl, hr⟩
      rw [← hjoin]
      simpa using IsJwt.dotted ⟨hla, ha⟩ ⟨hlb, hb⟩ ⟨hlc, hc⟩
    · cases h
  · rintro ⟨l, t, r, rfl, ht, hl, hr⟩
    have htrim := trimMatches_framed hl hr ht.ne_nil fun c hc => ht.not_framing c
      (hc.elim List.mem_of_mem_head? List.mem_of_getLast?)
    obtain ⟨ha, hb, hc⟩ := ht
    rw [looksLikeJwtToken, htrim, splitOn_token ha hb hc]
    simp only [byteLen_token ha.2, byteLen_token hb.2, byteLen_token hc.2]
    simpa [ha.1, hb.1, hc.1] using ⟨ha.2, hb.2, hc.2⟩

/-! ## 3. The detail that comes out -/

theorem takeBytes_eq_some_iff {cs front : List Char} {n : Nat} :
    takeBytes cs n = some front ↔ byteLen front = n ∧ front <+: cs := by
  induction cs generalizing front n with
  | nil =>
    cases n with
    | zero =>
      cases front with
      | nil => simp [takeBytes, byteLen]
      | cons c front => simp [takeBytes]
    | succ n =>
      simp only [takeBytes, List.prefix_nil, reduceCtorEq, false_iff, not_and]
      rintro hlen rfl
      cases hlen
  | cons c cs ih =>
    have hpos := Char.utf8Size_pos c
    cases n with
    | zero =>
      cases front with
      | nil => simp [takeBytes, byteLen]
      | cons x front =>
        have hx := Char.utf8Size_pos x
        simp only [takeBytes, Option.some.injEq, reduceCtorEq, byteLen, List.map_cons,
          List.sum_cons, false_iff, not_and]
        omega
    | succ n =>
      simp only [takeBytes, Option.ite_none_right_eq_some, Option.map_eq_some_iff]
      constructor
      · rintro ⟨hle, rest, hrest, rfl⟩
        obtain ⟨hlen, hbegins⟩ := ih.mp hrest
        refine ⟨?_, List.cons_prefix_cons.mpr ⟨rfl, hbegins⟩⟩
        rw [byteLen] at hlen ⊢
        rw [List.map_cons, List.sum_cons, hlen]
        omega
      · rintro ⟨hlen, hbegins⟩
        cases front with
        | nil => cases hlen
        | cons x rest =>
          obtain ⟨rfl, hrest⟩ := List.cons_prefix_cons.mp hbegins
          rw [byteLen, List.map_cons, List.sum_cons] at hlen
          exact ⟨by omega, rest, ih.mpr ⟨by rw [byteLen]; omega, hrest⟩, rfl⟩

/-- There is a character's end at the cut, or nothing to cut. -/
def Cuttable (text : List Char) (maxLen : Nat) : Prop :=
  byteLen text ≤ maxLen ∨ ∃ front, byteLen front = maxLen ∧ front <+: text

theorem trimForLog_isSome_iff (input : String) (maxLen : Nat) :
    (trimForLog input maxLen).isSome = true ↔ Cuttable (oneLine input) maxLen := by
  unfold trimForLog Cuttable
  by_cases hlen : byteLen (oneLine input) ≤ maxLen
  · simp [hlen]
  · simp only [hlen, if_false, false_or, Option.isSome_map, Option.isSome_iff_exists,
      takeBytes_eq_some_iff]

theorem hasJwt_iff_word (text : List Char) :
    HasJwt text ↔ ∃ word ∈ splitWhitespace text, HasJwt word := by
  have hwords : ∀ t, IsJwt t → (t <:+: text ↔ ∃ word ∈ splitWhitespace text, t <:+: word) := by
    intro t ht
    have hblack : ∀ c ∈ t, isWhitespace c = false := by
      intro c hc
      rw [Bool.eq_false_iff]
      intro hblank
      exact absurd ((isFraming_of_whitespace hblank).symm.trans (ht.not_framing c hc)) nofun
    rw [infix_iff_pieces isWhitespace ht.ne_nil hblack]
    constructor
    · rintro ⟨word, hword, hin⟩
      refine ⟨word, List.mem_filter.mpr ⟨hword, ?_⟩, hin⟩
      rw [decide_eq_true_eq]
      intro hnil
      rw [hnil] at hin
      exact ht.ne_nil (List.infix_nil.mp hin)
    · rintro ⟨word, hword, hin⟩
      exact ⟨word, (List.mem_filter.mp hword).1, hin⟩
  constructor
  · rintro ⟨t, ht, hin⟩
    obtain ⟨word, hword, hin⟩ := (hwords t ht).mp hin
    exact ⟨word, hword, t, ht, hin⟩
  · rintro ⟨word, hword, t, ht, hin⟩
    exact ⟨t, ht, (hwords t ht).mpr ⟨word, hword, hin⟩⟩

theorem hasJwt_intercalate {words : List (List Char)} (hwords : ∀ word ∈ words, ' ' ∉ word) :
    HasJwt ([' '].intercalate words) ↔ ∃ word ∈ words, HasJwt word := by
  have hblank : ∀ t, IsJwt t → ' ' ∉ t := fun t ht hmem =>
    absurd (ht.not_framing _ hmem) (by decide)
  constructor
  · rintro ⟨t, ht, hin⟩
    obtain ⟨word, hword, hin⟩ := (infix_intercalate ht.ne_nil (hblank t ht) hwords).mp hin
    exact ⟨word, hword, t, ht, hin⟩
  · rintro ⟨word, hword, t, ht, hin⟩
    exact ⟨t, ht, (infix_intercalate ht.ne_nil (hblank t ht) hwords).mpr ⟨word, hword, hin⟩⟩

theorem blank_not_mem_word {text word : List Char} (h : word ∈ splitWhitespace text) :
    ' ' ∉ word := by
  intro hmem
  exact absurd (sep_not_mem_piece (List.mem_filter.mp h).1 _ hmem) (by decide)

theorem hasJwt_redacted (text : List Char) :
    HasJwt (redactProbableJwtTokens text)
      ↔ ∃ word ∈ splitWhitespace text, HasJwt word ∧ ¬ Framed word := by
  have hmark : ¬ HasJwt (chars "<redacted.jwt>") := fun h => absurd h.two_dots (by decide)
  rw [redactProbableJwtTokens, hasJwt_intercalate]
  · simp only [List.mem_map, exists_exists_and_eq_and]
    refine exists_congr fun word => and_congr_right fun _ => ?_
    rw [← looksLikeJwtToken_iff]
    by_cases hlooks : looksLikeJwtToken word = true
    · rw [if_pos hlooks]
      exact iff_of_false hmark fun h => h.2 hlooks
    · simp [hlooks]
  · intro word hword
    obtain ⟨token, htoken, rfl⟩ := List.mem_map.mp hword
    split
    · decide
    · exact blank_not_mem_word htoken

/-- **When the redaction does what it is for.** It returns exactly if the cut is between two
    characters. What it returns holds no token exactly if the whole detail was dropped, or every
    word with a token in it has nothing but punctuation around that token. -/
theorem sanitized_iff (raw : String) :
    ((sanitizeRuntimeDetail raw).isSome = true ↔ Cuttable (oneLine raw) 1024)
    ∧ ∀ out, sanitizeRuntimeDetail raw = some out →
      (¬ HasJwt out ↔ ∃ text, trimForLog raw 1024 = some text ∧ (namesSecret text = true
        ∨ ∀ word ∈ splitWhitespace text, HasJwt word → Framed word)) := by
  refine ⟨?_, fun out hout => ?_⟩
  · rw [sanitizeRuntimeDetail, Option.isSome_map, trimForLog_isSome_iff]
  · obtain ⟨text, htext, hout⟩ := Option.map_eq_some_iff.mp hout
    simp only [htext, Option.some.injEq, exists_eq_left']
    rw [← hout]
    by_cases hsecret : namesSecret text = true
    · have hnone : ¬ HasJwt (chars "redacted_sensitive_detail") := fun h =>
        absurd h.two_dots (by decide)
      rw [if_pos hsecret]
      exact iff_of_true hnone (.inl hsecret)
    · rw [if_neg hsecret]
      rw [or_iff_right hsecret]
      by_cases hjwt : containsProbableJwt text = true
      · rw [if_pos hjwt, hasJwt_redacted]
        simp
      · -- no word looks like a token, so none may hold one
        rw [if_neg hjwt, hasJwt_iff_word]
        have hplain : ∀ word ∈ splitWhitespace text, ¬ Framed word := by
          intro word hword hframed
          exact hjwt (List.any_eq_true.mpr ⟨word, hword, (looksLikeJwtToken_iff word).mpr hframed⟩)
        constructor
        · intro hnone word hword hhas
          exact absurd ⟨word, hword, hhas⟩ hnone
        · rintro hall ⟨word, hword, hhas⟩
          exact hplain word hword (hall word hword hhas)

/-- A character of two bytes after the last byte that fits. -/
theorem takeBytes_across (n : Nat) : takeBytes (List.replicate n 'a' ++ ['é']) (n + 1) = none := by
  induction n with
  | zero => rfl
  | succ n ih =>
    show Option.map _ (takeBytes (List.replicate n 'a' ++ ['é']) (n + 1)) = none
    rw [ih]
    rfl

theorem byteLen_across (n : Nat) : byteLen (List.replicate n 'a' ++ ['é']) = n + 2 := by
  induction n with
  | zero => rfl
  | succ n ih =>
    show 1 + byteLen (List.replicate n 'a' ++ ['é']) = n + 1 + 2
    omega

theorem oneLine_across (n : Nat) :
    oneLine (String.ofList (List.replicate (n + 1) 'a' ++ ['é']))
      = List.replicate (n + 1) 'a' ++ ['é'] := by
  have hmap : (List.replicate (n + 1) 'a' ++ ['é']).map
      (fun c => if c = '\n' ∨ c = '\r' then ' ' else c) = List.replicate (n + 1) 'a' ++ ['é'] := by
    simp
  have hends : ∀ c, (List.replicate (n + 1) 'a' ++ ['é']).head? = some c
      ∨ (List.replicate (n + 1) 'a' ++ ['é']).getLast? = some c → isWhitespace c = false := by
    intro c hc
    rw [List.getLast?_concat, List.replicate_succ] at hc
    rcases hc with hc | hc <;> cases hc <;> rfl
  have htrim := trimMatches_framed (l := []) (r := []) nofun nofun (by simp) hends
  rw [List.nil_append, List.append_nil] at htrim
  rw [oneLine, chars_eq, String.toList_ofList, hmap]
  exact htrim

/-- **A token in a path stays in the log**, and a character across the cut ends the program. -/
theorem token_logged :
    sanitizeRuntimeDetail "GET /v1/aaaaaaaa.bbbbbbbb.cccccccc/tx"
        = some (chars "GET /v1/aaaaaaaa.bbbbbbbb.cccccccc/tx")
      ∧ HasJwt (chars "GET /v1/aaaaaaaa.bbbbbbbb.cccccccc/tx")
      ∧ sanitizeRuntimeDetail (String.ofList (List.replicate 1023 'a' ++ ['é'])) = none := by
  refine ⟨by decide +kernel, ?_, ?_⟩
  · refine ⟨chars "aaaaaaaa" ++ '.' :: (chars "bbbbbbbb" ++ '.' :: chars "cccccccc"),
      .dotted ?_ ?_ ?_, ?_⟩
    · exact ⟨by decide, List.all_eq_true.mp (by decide)⟩
    · exact ⟨by decide, List.all_eq_true.mp (by decide)⟩
    · exact ⟨by decide, List.all_eq_true.mp (by decide)⟩
    · exact ⟨chars "GET /v1/", chars "/tx", by decide⟩
  · have hlong : ¬ byteLen (List.replicate 1023 'a' ++ ['é']) ≤ 1024 := by
      rw [byteLen_across]
      omega
    rw [sanitizeRuntimeDetail, trimForLog, oneLine_across 1022, if_neg hlong,
      takeBytes_across 1023]
    rfl

end Nexum.Signer
