import Nexum.Cli.Url
import Nexum.Lib.Split

/-!
# An environment for a shell

The assignments of an environment file are written out as `export` lines, for a shell to read. The
file is not trusted, so a line must not be more than an assignment: every value is put between
single quotes, where a shell looks for nothing but the closing one. `shellRead` is **a shell that
gives up as soon as anything stands outside quotes that could mean something**; `export_inert` says
that it reads every text that is written, and what it reads. Control characters become blanks up to
the code 31; **DEL is one too, and is written as it is** (`delete_kept`).
-/

namespace Nexum.Cli.EnvExport

open Nexum.Lib
open Nexum.Cli.Url (isSpace)

abbrev Text := List UInt8

/-! ## 1. The code -/

def isAlpha (c : UInt8) : Bool := (65 ≤ c && c ≤ 90) || (97 ≤ c && c ≤ 122)

def isAlnum (c : UInt8) : Bool := isAlpha c || (48 ≤ c && c ≤ 57)

def toUpper (c : UInt8) : UInt8 := if 97 ≤ c && c ≤ 122 then c - 32 else c

def validEnvKey : Text → Bool
  | [] => false
  | c :: rest => (c == 95 || isAlpha c) && rest.all fun c => c == 95 || isAlnum c

inductive Parsed
  | skipped | unparsed | assignment (key value : Text)

/-- A value without the quotes around it. -/
def stripQuotes (q : Text) : Text :=
  if 2 ≤ q.length ∧ ((q.head? = some 39 ∧ q.getLast? = some 39)
      ∨ (q.head? = some 34 ∧ q.getLast? = some 34)) then q.tail.dropLast
  else q

/-- From the key on. -/
def parseKeyValue (p : Text) : Parsed :=
  let key := p.takeWhile fun c => c == 95 || isAlnum c
  if key = [] ∨ ¬ validEnvKey key then .unparsed
  else
    match (p.drop key.length).dropWhile isSpace with
    | 61 :: rest =>
      let q := ((rest.dropWhile isSpace).reverse.dropWhile fun c => c == 13 || isSpace c).reverse
      if key.length ≥ 256 then .unparsed else .assignment key (stripQuotes q)
    | _ => .unparsed

def parseEnvAssignmentLine (line : Text) (requireExport : Bool) : Parsed :=
  let p := trimMatches isSpace line
  if p = [] ∨ p.head? = some 35 then .skipped
  else
    let hasExport := (utf8 "export").isPrefixOf p && (p.length == 6 || (p[6]?).any isSpace)
    let p := if hasExport then trimMatches isSpace (p.drop 6) else p
    if requireExport ∧ ¬ hasExport then .skipped
    else if p = [] then .skipped
    else parseKeyValue p

def secretWords : List Text :=
  ["TOKEN", "PASS", "SECRET", "KEY", "SEED", "AUTH", "COOKIE", "CRED"].map utf8

/-- The key is raised in a buffer of 256 bytes. -/
def envKeyIsSensitive (key : Text) : Bool :=
  let up := (key.take 255).map toUpper
  secretWords.any fun word => up.tails.any (word.isPrefixOf ·)

def quoteByte (c : UInt8) : Text :=
  if c = 39 then [39, 92, 39, 39]
  else if c = 13 ∨ c = 10 ∨ c = 0 ∨ (c < 0x20 ∧ c ≠ 9) then [32]
  else [c]

def shellSingleQuoted (value : Text) : Text := 39 :: (value.flatMap quoteByte ++ [39])

def envKv (key value : Text) : Text :=
  if key = [] then [] else key ++ 61 :: (shellSingleQuoted value ++ [10])

def envExportKv (key value : Text) : Text := utf8 "export " ++ envKv key value

structure Export where
  buf : Text
  kept : UInt32
  skippedSensitive : UInt32
  skippedUnparsed : UInt32

def appendLine (requireExport includeSensitive : Bool) (e : Export) (line : Text) : Export :=
  match parseEnvAssignmentLine line requireExport with
  | .assignment key value =>
    if !includeSensitive && envKeyIsSensitive key then
      { e with skippedSensitive := e.skippedSensitive + 1 }
    else { e with buf := e.buf ++ envExportKv key value, kept := e.kept + 1 }
  | .unparsed => { e with skippedUnparsed := e.skippedUnparsed + 1 }
  | .skipped => e

/-- The loop ends at the end of the text, so nothing after the last newline is no line. -/
def textLines (text : Text) : List Text :=
  let lines := text.splitOn 10
  if lines.getLast? = some [] then lines.dropLast else lines

def appendEnvAssignmentsFromText (buf text : Text) (requireExport includeSensitive : Bool) :
    Export :=
  (textLines text).foldl (appendLine requireExport includeSensitive) ⟨buf, 0, 0, 0⟩

/-! ## 2. A shell -/

inductive Mode
  | plain | escaped | quoted
  deriving DecidableEq

/-- The commands so far, each as its words, and where the shell is in the next one. -/
structure Shell where
  commands : List (List Text)
  words : List Text
  word : Option Text
  mode : Mode
  deriving DecidableEq

namespace Shell

def idle (commands : List (List Text)) : Shell := ⟨commands, [], none, .plain⟩

def put (s : Shell) (c : UInt8) : Shell := { s with word := some (s.word.getD [] ++ [c]) }

def endWord (s : Shell) : Shell := { s with words := s.words ++ s.word.toList, word := none }

/-- One byte. Outside quotes only letters, digits, `_` and `=` stand for themselves; whatever else
    a shell may give a meaning to is refused. -/
def read (s : Shell) (c : UInt8) : Option Shell :=
  match s.mode with
  | .quoted =>
    if c = 39 then some { s with mode := .plain } else some (s.put c)
  | .escaped => if c = 10 then none else some { s.put c with mode := .plain }
  | .plain =>
    if c = 39 then some { s with word := some (s.word.getD []), mode := .quoted }
    else if c = 92 then some { s with mode := .escaped }
    else if c = 32 ∨ c = 9 then some s.endWord
    else if c = 10 then some (idle (s.commands ++ [s.endWord.words]))
    else if isAlnum c ∨ c = 95 ∨ c = 61 then some (s.put c)
    else none

def readAll (s : Shell) (text : Text) : Option Shell := text.foldlM read s

end Shell

/-- The commands of a text, if it is nothing but complete commands of literal words. -/
def shellRead (text : Text) : Option (List (List Text)) :=
  ((Shell.idle []).readAll text).bind fun s =>
    if s = Shell.idle s.commands then some s.commands else none

/-! ## 3. What is written is read -/

/-- What a value's byte becomes. -/
def clean (c : UInt8) : UInt8 := if c < 0x20 ∧ c ≠ 9 then 32 else c

namespace Shell

variable {s : Shell}

theorem readAll_append (a b : Text) :
    s.readAll (a ++ b) = (s.readAll a).bind fun s => s.readAll b := List.foldlM_append ..

theorem readAll_cons (c : UInt8) (text : Text) :
    s.readAll (c :: text) = (s.read c).bind fun s => s.readAll text := List.foldlM_cons ..

theorem read_literal {c : UInt8} (hs : s.mode = .plain) (hc : isAlnum c ∨ c = 95 ∨ c = 61) :
    s.read c = some (s.put c) := by
  have hne : c ≠ 39 ∧ c ≠ 92 ∧ ¬ (c = 32 ∨ c = 9) ∧ c ≠ 10 := by
    refine ⟨?_, ?_, ?_, ?_⟩
    · rintro rfl
      revert hc
      decide
    · rintro rfl
      revert hc
      decide
    · rintro (rfl | rfl) <;> revert hc <;> decide
    · rintro rfl
      revert hc
      decide
  obtain ⟨hquote, hescape, hblank, hnewline⟩ := hne
  unfold read
  rw [hs]
  simp only [if_neg hquote, if_neg hescape, if_neg hblank, if_neg hnewline, if_pos hc]

/-- A word that means itself. -/
theorem readAll_literal {text : Text} (hs : s.mode = .plain) (hne : text ≠ [])
    (h : ∀ c ∈ text, (isAlnum c ∨ c = 95 ∨ c = 61)) :
    s.readAll text = some { s with word := some (s.word.getD [] ++ text) } := by
  induction text generalizing s with
  | nil => exact absurd rfl hne
  | cons c text ih =>
    rw [readAll_cons, read_literal hs (h c List.mem_cons_self), Option.bind_some]
    cases text with
    | nil => rfl
    | cons c' text =>
      rw [ih (s := s.put c) hs (List.cons_ne_nil c' text) fun x hx =>
        h x (List.mem_cons_of_mem c hx)]
      simp [put]

theorem readAll_quoteByte {w : Text} (hs : s.mode = .quoted) (hw : s.word = some w) (c : UInt8) :
    s.readAll (quoteByte c) = some { s with word := some (w ++ [clean c]) } := by
  obtain ⟨commands, words, word, mode⟩ := s
  cases hs
  cases hw
  unfold quoteByte
  split
  · rename_i hc
    subst hc
    rfl
  · rename_i hquote
    have hcontrol : (c = 13 ∨ c = 10 ∨ c = 0 ∨ (c < 0x20 ∧ c ≠ 9)) ↔ (c < 0x20 ∧ c ≠ 9) := by
      constructor
      · rintro (rfl | rfl | rfl | h)
        · decide
        · decide
        · decide
        · exact h
      · exact fun h => .inr (.inr (.inr h))
    rw [if_congr hcontrol rfl rfl, clean]
    split
    · rfl
    · rw [readAll_cons, read, if_neg hquote]
      rfl

theorem readAll_quoted {value w : Text} (hs : s.mode = .quoted) (hw : s.word = some w) :
    s.readAll (value.flatMap quoteByte) = some { s with word := some (w ++ value.map clean) } := by
  induction value generalizing s w with
  | nil =>
    rw [List.map_nil, List.append_nil, ← hw]
    rfl
  | cons c value ih =>
    rw [List.flatMap_cons, readAll_append, readAll_quoteByte hs hw, Option.bind_some,
      ih (s := { s with word := some (w ++ [clean c]) }) hs rfl]
    simp

end Shell

theorem literal_of_validEnvKey {key : Text} (h : validEnvKey key = true) :
    key ≠ [] ∧ ∀ c ∈ key, (isAlnum c ∨ c = 95 ∨ c = 61) := by
  cases key with
  | nil => cases h
  | cons c key =>
    simp only [validEnvKey, Bool.and_eq_true, Bool.or_eq_true, beq_iff_eq, List.all_eq_true] at h
    refine ⟨List.cons_ne_nil c key, fun x hx => ?_⟩
    rcases List.mem_cons.mp hx with rfl | hx
    · rcases h.1 with hc | hc
      · exact .inr (.inl hc)
      · exact .inl (by simp [isAlnum, hc])
    · rcases h.2 x hx with hc | hc
      · exact .inr (.inl hc)
      · exact .inl hc

theorem not_space_of_literal {c : UInt8} (h : isAlnum c ∨ c = 95 ∨ c = 61) : isSpace c = false := by
  have hlow : 33 ≤ c.toNat := by
    rcases h with h | rfl | rfl
    · simp only [isAlnum, isAlpha, Bool.or_eq_true, Bool.and_eq_true, decide_eq_true_eq,
        UInt8.le_iff_toNat_le, UInt8.reduceToNat] at h
      omega
    · decide
    · decide
  simp only [isSpace, Bool.or_eq_false_iff, Bool.and_eq_false_iff, decide_eq_false_iff_not,
    UInt8.le_iff_toNat_le, ← UInt8.toNat_inj, UInt8.reduceToNat]
  omega

/-- **One line is one command.** -/
theorem readAll_envExportKv {key : Text} (h : validEnvKey key = true) (value : Text)
    (commands : List (List Text)) :
    (Shell.idle commands).readAll (envExportKv key value)
      = some (.idle (commands ++ [[utf8 "export", key ++ 61 :: value.map clean]])) := by
  obtain ⟨hne, hkey⟩ := literal_of_validEnvKey h
  have hassign : ∀ c ∈ key ++ [61], (isAlnum c ∨ c = 95 ∨ c = 61) := by
    intro c hc
    rcases List.mem_append.mp hc with hc | hc
    · exact hkey c hc
    · exact .inr (.inr (List.mem_singleton.mp hc))
  have hletters : (utf8 "export").all isAlnum = true := by decide
  have hexport : ∀ c ∈ utf8 "export", (isAlnum c ∨ c = 95 ∨ c = 61) := fun c hc =>
    .inl (List.all_eq_true.mp hletters c hc)
  have htext : envExportKv key value
      = utf8 "export" ++ 32 :: ((key ++ [61]) ++ 39 :: (value.flatMap quoteByte ++ [39, 10])) := by
    have hblank : utf8 "export " = utf8 "export" ++ [32] := by decide
    simp [envExportKv, envKv, hne, shellSingleQuoted, hblank]
  rw [htext, Shell.readAll_append, Shell.readAll_literal rfl (by decide) hexport, Option.bind_some,
    Shell.readAll_cons]
  -- the blank ends the first word
  show Shell.readAll ⟨commands, [utf8 "export"], none, .plain⟩ _ = _
  rw [Shell.readAll_append, Shell.readAll_literal rfl (by simp) hassign, Option.bind_some,
    Shell.readAll_cons]
  show Shell.readAll ⟨commands, [utf8 "export"], some (key ++ [61]), .quoted⟩ _ = _
  rw [Shell.readAll_append, Shell.readAll_quoted rfl rfl, Option.bind_some, List.append_assoc]
  rfl

/-- The assignments that are written. -/
def written (requireExport includeSensitive : Bool) (text : Text) : List (Text × Text) :=
  (textLines text).filterMap fun line =>
    match parseEnvAssignmentLine line requireExport with
    | .assignment key value =>
      if !includeSensitive && envKeyIsSensitive key then none else some (key, value)
    | _ => none

theorem buf_append (buf text : Text) (requireExport includeSensitive : Bool) :
    (appendEnvAssignmentsFromText buf text requireExport includeSensitive).buf
      = buf ++ (written requireExport includeSensitive text).flatMap
          fun kv => envExportKv kv.1 kv.2 := by
  unfold appendEnvAssignmentsFromText written
  generalize textLines text = lines
  have hloop : ∀ e : Export, (lines.foldl (appendLine requireExport includeSensitive) e).buf
      = e.buf ++ (lines.filterMap fun line =>
        match parseEnvAssignmentLine line requireExport with
        | .assignment key value =>
          if !includeSensitive && envKeyIsSensitive key then none else some (key, value)
        | _ => none).flatMap fun kv => envExportKv kv.1 kv.2 := by
    induction lines with
    | nil => simp
    | cons line lines ih =>
      intro e
      rw [List.foldl_cons, ih, List.filterMap_cons, appendLine]
      cases parseEnvAssignmentLine line requireExport with
      | skipped => rfl
      | unparsed => rfl
      | assignment key value =>
        dsimp only
        split <;> simp
  exact hloop _

theorem shellRead_flatMap {kvs : List (Text × Text)} (h : ∀ kv ∈ kvs, validEnvKey kv.1 = true) :
    shellRead (kvs.flatMap fun kv => envExportKv kv.1 kv.2)
      = some (kvs.map fun kv => [utf8 "export", kv.1 ++ 61 :: kv.2.map clean]) := by
  have hrun : ∀ commands, (Shell.idle commands).readAll
      (kvs.flatMap fun kv => envExportKv kv.1 kv.2) = some (.idle (commands
        ++ kvs.map fun kv => [utf8 "export", kv.1 ++ 61 :: kv.2.map clean])) := by
    induction kvs with
    | nil =>
      intro commands
      simp [Shell.readAll]
    | cons kv kvs ih =>
      intro commands
      rw [List.flatMap_cons, Shell.readAll_append,
        readAll_envExportKv (h kv List.mem_cons_self), Option.bind_some,
        ih fun x hx => h x (List.mem_cons_of_mem kv hx)]
      simp
  rw [shellRead, hrun, Option.bind_some]
  exact if_pos rfl

/-! ## 4. Where the assignments come from -/

def Blank (t : Text) : Prop := ∀ c ∈ t, isSpace c = true

/-- What is between the outer quotes, if there are any. -/
def Unquoted (q value : Text) : Prop :=
  q = 39 :: (value ++ [39]) ∨ q = 34 :: (value ++ [34])
    ∨ (value = q ∧ ∀ inner, q ≠ 39 :: (inner ++ [39]) ∧ q ≠ 34 :: (inner ++ [34]))

/-- The line is an assignment of this value to this key, exported or not. -/
def Assigns (line key value : Text) : Prop :=
  ∃ lead gap a q b, line = lead ++ (key ++ (gap ++ 61 :: (a ++ (q ++ b))))
    ∧ (Blank lead ∨ ∃ x y, lead = x ++ (utf8 "export" ++ y) ∧ Blank x ∧ Blank y ∧ y ≠ [])
    ∧ Blank gap ∧ Blank a ∧ Blank b
    ∧ (∀ c, q.head? = some c ∨ q.getLast? = some c → isSpace c = false) ∧ Unquoted q value

theorem unquoted_stripQuotes (q : Text) : Unquoted q (stripQuotes q) := by
  unfold stripQuotes
  split
  · rename_i h
    obtain ⟨hlen, hends⟩ := h
    have hinner : ∀ x, q.head? = some x → q.getLast? = some x →
        q = x :: (q.tail.dropLast ++ [x]) := by
      intro x hfirst hlast
      cases q with
      | nil => cases hfirst
      | cons y t =>
        cases hfirst
        have ht : t ≠ [] := by
          rintro rfl
          simp at hlen
        have hlast : t.getLast? = some x := by
          rwa [List.getLast?_cons_of_ne_nil ht] at hlast
        rw [List.tail_cons, List.dropLast_append_getLast? x hlast]
    rcases hends with ⟨hfirst, hlast⟩ | ⟨hfirst, hlast⟩
    · exact .inl (hinner 39 hfirst hlast)
    · exact .inr (.inl (hinner 34 hfirst hlast))
  · rename_i h
    refine .inr (.inr ⟨rfl, fun inner => ⟨fun heq => h ?_, fun heq => h ?_⟩⟩)
    · rw [show q = (39 :: inner) ++ [39] from heq]
      exact ⟨by simp, .inl ⟨rfl, List.getLast?_concat ..⟩⟩
    · rw [show q = (34 :: inner) ++ [34] from heq]
      exact ⟨by simp, .inr ⟨rfl, List.getLast?_concat ..⟩⟩

theorem parseKeyValue_spec {p key value : Text} (h : parseKeyValue p = .assignment key value) :
    validEnvKey key = true ∧ key.length < 256 ∧ ∃ gap a q b,
      p = key ++ (gap ++ 61 :: (a ++ (q ++ b))) ∧ Blank gap ∧ Blank a ∧ Blank b
        ∧ (∀ c, q.head? = some c ∨ q.getLast? = some c → isSpace c = false)
        ∧ Unquoted q value := by
  have hspace : (fun c : UInt8 => c == 13 || isSpace c) = isSpace := by
    funext c
    by_cases hc : c = 13
    · subst hc
      decide
    · simp [hc]
  unfold parseKeyValue at h
  dsimp only at h
  split at h
  · cases h
  · rename_i hkey
    split at h
    · rename_i rest hrest
      split at h
      · cases h
      · rename_i hlen
        rw [hspace] at h
        cases h
        simp only [not_or, not_not] at hkey
        obtain ⟨a, b, hq, ha, hb⟩ := trimMatches_spec isSpace rest
        refine ⟨hkey.2, by omega,
          (p.drop (p.takeWhile fun c => c == 95 || isAlnum c).length).takeWhile isSpace, a,
          trimMatches isSpace rest, b, ?_, fun c hc => List.mem_takeWhile_imp hc, ha, hb,
          fun c => trimMatches_ends isSpace rest, unquoted_stripQuotes _⟩
        rw [← hq, ← hrest, List.takeWhile_append_dropWhile]
        exact (List.prefix_iff_eq_append.mp (List.takeWhile_prefix _)).symm
    · cases h

theorem parseEnvAssignmentLine_spec {line key value : Text} {requireExport : Bool}
    (h : parseEnvAssignmentLine line requireExport = .assignment key value) :
    validEnvKey key = true ∧ key.length < 256 ∧ Assigns line key value := by
  obtain ⟨l, r, hline, hl, hr⟩ := trimMatches_spec isSpace line
  unfold parseEnvAssignmentLine at h
  dsimp only at h
  generalize trimMatches isSpace line = p at h hline
  split at h
  · cases h
  · split at h
    · cases h
    · generalize hstart : (if ((utf8 "export").isPrefixOf p
        && (p.length == 6 || (p[6]?).any isSpace)) = true then trimMatches isSpace (p.drop 6)
        else p) = start at h
      split at h
      · cases h
      · obtain ⟨hvalid, hlen, gap, a, q, b, hp, hgap, ha, hb, hends, hvalue⟩ := parseKeyValue_spec h
        refine ⟨hvalid, hlen, ?_⟩
        have hblank : ∀ {x y : Text}, Blank x → Blank y → Blank (x ++ y) := fun hx hy c hc =>
          (List.mem_append.mp hc).elim (hx c) (hy c)
        rw [← hstart] at hp
        split at hp
        · rename_i hexport
          obtain ⟨l', r', hrest, hl', hr'⟩ := trimMatches_spec isSpace (p.drop 6)
          rw [Bool.and_eq_true, List.isPrefixOf_iff_prefix] at hexport
          have hwhole : utf8 "export" ++ p.drop 6 = p := List.prefix_iff_eq_append.mp hexport.1
          refine ⟨l ++ (utf8 "export" ++ l'), gap, a, q, b ++ (r' ++ r), ?_,
            .inr ⟨l, l', rfl, hl, hl', ?_⟩, hgap, ha, hblank hb (hblank hr' hr), hends, hvalue⟩
          · rw [hline, ← hwhole, hrest, hp]
            simp
          · -- the byte after the word is a blank, and no key begins with one
            rintro rfl
            obtain ⟨hkne, hliteral⟩ := literal_of_validEnvKey hvalid
            obtain ⟨k, key, rfl⟩ := List.exists_cons_of_ne_nil hkne
            have hkey : p[6]? = some k := by
              rw [← List.head?_drop, hrest, hp]
              rfl
            have hsix : p.length ≠ 6 := by
              intro hsix
              rw [List.getElem?_eq_none (by omega)] at hkey
              cases hkey
            have hspace : isSpace k = true := by simpa [hsix, hkey] using hexport.2
            rw [not_space_of_literal (hliteral k List.mem_cons_self)] at hspace
            cases hspace
        · refine ⟨l, gap, a, q, b ++ r, ?_, .inl hl, hgap, ha, hblank hb hr, hends, hvalue⟩
          rw [hline, hp]
          simp

theorem sensitive_of_secret {key part : Text} (hlen : key.length < 256) (hpart : part <:+: key)
    (h : part.map toUpper ∈ secretWords) : envKeyIsSensitive key = true := by
  obtain ⟨t, hbegins, hsuffix⟩ := List.infix_iff_prefix_suffix.mp (hpart.map toUpper)
  unfold envKeyIsSensitive
  dsimp only
  rw [List.take_of_length_le (by omega), List.any_eq_true]
  refine ⟨_, h, List.any_eq_true.mpr ⟨t, (List.mem_tails _ _).mpr hsuffix, ?_⟩⟩
  exact List.isPrefixOf_iff_prefix.mpr hbegins

/-- **The text that is written is inert.** -/
theorem export_inert (buf text : Text) (requireExport includeSensitive : Bool) :
    ∃ appended, (appendEnvAssignmentsFromText buf text requireExport includeSensitive).buf
        = buf ++ appended
      ∧ shellRead appended = some ((written requireExport includeSensitive text).map
          fun kv => [utf8 "export", kv.1 ++ 61 :: kv.2.map clean])
      ∧ ∀ kv ∈ written requireExport includeSensitive text, validEnvKey kv.1 = true
        ∧ (∃ line ∈ text.splitOn 10, Assigns line kv.1 kv.2)
        ∧ (includeSensitive = false → ∀ part, part <:+: kv.1 → part.map toUpper ∉ secretWords) := by
  have hspec : ∀ kv ∈ written requireExport includeSensitive text, validEnvKey kv.1 = true
      ∧ (∃ line ∈ text.splitOn 10, Assigns line kv.1 kv.2)
      ∧ (includeSensitive = false → ∀ part, part <:+: kv.1 →
        part.map toUpper ∉ secretWords) := by
    intro kv hkv
    obtain ⟨line, hline, hkept⟩ := List.mem_filterMap.mp hkv
    have hmem : line ∈ text.splitOn 10 := by
      unfold textLines at hline
      dsimp only at hline
      split at hline
      · exact List.mem_of_mem_dropLast hline
      · exact hline
    split at hkept
    · rename_i key value hparsed
      obtain ⟨hvalid, hlen, hassigns⟩ := parseEnvAssignmentLine_spec hparsed
      split at hkept
      · cases hkept
      · rename_i hplain
        cases hkept
        refine ⟨hvalid, ⟨line, hmem, hassigns⟩, fun hoff part hpart hsecret => hplain ?_⟩
        rw [hoff, sensitive_of_secret hlen hpart hsecret]
        rfl
    · cases hkept
  exact ⟨_, buf_append .., shellRead_flatMap fun kv hkv => (hspec kv hkv).1, hspec⟩

/-- `iscntrl` in the C locale. -/
def isControl (c : UInt8) : Bool := c < 0x20 || c == 0x7f

/-- **DEL is a control character and stays.** -/
theorem delete_kept :
    isControl 0x7f = true
      ∧ (appendEnvAssignmentsFromText [] (utf8 "A=" ++ [0x7f, 66]) false true).buf
        = utf8 "export A='" ++ [0x7f, 66] ++ utf8 "'\n" := by
  decide +kernel

end Nexum.Cli.EnvExport
