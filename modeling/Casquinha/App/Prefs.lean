import Casquinha.App.Loop
import Casquinha.Lib.Ring
import Casquinha.Lib.TextLines
import Mathlib.Data.Bool.AllAny
import Casquinha.Wire.HttpUrl

/-!
# The prefs file (`LoadPrefs`, `SavePrefs`)

The reader takes one line after the other and guesses what it is: a line with a colon is host and port
and ends the reading, a line that starts with a digit is a port and ends it too, any other line is a
host. A host that starts with a digit, a dotted quad above all, is taken for a port when it stands on a
line of its own (`loads_iff`).

The writer prints two lines of comment and the line `host:port` into 192 bytes and hands as many to
`FSWrite` as the text would have. What is read back is the server, and nothing behind the text is
written, if and only if the host and the port together have at most 63 characters (`save_load_iff`).
-/

set_option autoImplicit false

namespace Casquinha.App

open Lib Wire

/-- `gHost` and `gPort`. -/
structure Prefs where
  gHost : CStr
  gPort : Nat
deriving DecidableEq

/-! ## The reader -/

/-- `strncpy(gHost, p, sizeof(gHost) - 1)`, terminated. -/
def Prefs.setHost (s : Prefs) (p : Bytes) : Prefs := { s with gHost := (cstr p).fit 64 }

/-- `if (pt > 0 && pt < 65536) gPort = pt;`. -/
def Prefs.setPort (s : Prefs) (pt : Int) : Prefs :=
  if 0 < pt ∧ pt < 65536 then { s with gPort := pt.toNat } else s

/-- `*p == ' ' || *p == '\t'`. -/
def isIndent (c : UInt8) : Bool := c = 32 || c = 9

/-- The text in front of the last colon. -/
def beforeColon (p : Bytes) : Bytes := ((p.reverse.dropWhile (· ≠ 58)).drop 1).reverse

/-- The text behind the last colon. -/
def behindColon (p : Bytes) : Bytes := (p.reverse.takeWhile (· ≠ 58)).reverse

/-- The lines that `strtok` finds. -/
def prefsLoop : List Bytes → Prefs → Prefs
  | [], s => s
  | line :: lines, s =>
      match line.dropWhile isIndent with
      | [] => prefsLoop lines s
      | c :: rest =>
          let p := c :: rest
          if c = 35 then prefsLoop lines s
          else if (58 : UInt8) ∈ p then
            let s := if beforeColon p ≠ [] then s.setHost (beforeColon p) else s
            s.setPort (atoi (behindColon p))
          -- a bare port ends the reading, a bare host does not
          else if IsDigitByte c then s.setPort (atoi p)
          else prefsLoop lines (s.setHost p)

/-- `LoadPrefs`, on the bytes of the file. -/
def loadPrefs (file : Option Bytes) (s : Prefs) : Prefs :=
  match file with
  | none => s
  | some data =>
      let buf := cstr (data.take 255)
      -- `strtok(buf, "\r\n")`
      prefsLoop ((buf.bytes.splitOnP isEol).filter (· ≠ [])) s

/-! ## Documents -/

/-- A host as the file names it: at most 63 characters, no white space, no leading `#`. -/
structure HostName (host : CStr) : Prop where
  nonempty : host.bytes ≠ []
  short : host.length ≤ 63
  noSpace : ∀ c ∈ host.bytes, isSpaceByte c = false
  noHash : host.bytes.head? ≠ some 35

/-- The digits of a port. -/
structure PortDigits (digits : Bytes) (port : Nat) : Prop where
  nonempty : digits ≠ []
  all : ∀ c ∈ digits, IsDigitByte c
  value : decValue 0 digits = port
  pos : 1 ≤ port
  le : port ≤ 65535

/-- A blank line, or a comment behind an indentation. -/
def JunkLine (line : Bytes) : Prop :=
  ∃ indent rest, line = indent ++ rest ∧ (∀ c ∈ indent, c = 32 ∨ c = 9) ∧
    (rest = [] ∨ ∃ comment, rest = 35 :: comment)

/-- The two formats. -/
inductive Layout where
  | single
  | legacy
deriving DecidableEq

/-- The lines of a document: blank lines and comments around the line `host:port`, or around the host
and the port on lines of their own. -/
def Layout.Lines (layout : Layout) (host : CStr) (digits : Bytes) (lines : List Bytes) : Prop :=
  match layout with
  | .single =>
      ∃ before after, lines = before ++ (host.bytes ++ 58 :: digits) :: after ∧
        (∀ l ∈ before, JunkLine l) ∧ ∀ l ∈ after, JunkLine l
  | .legacy =>
      ∃ before between after, lines = before ++ host.bytes :: (between ++ digits :: after) ∧
        (∀ l ∈ before, JunkLine l) ∧ (∀ l ∈ between, JunkLine l) ∧ ∀ l ∈ after, JunkLine l

/-- The reader sets exactly this host and port, whatever was set before. -/
def Loads (text : Bytes) (host : CStr) (port : Nat) : Prop :=
  ∀ s : Prefs, loadPrefs (some text) s = ⟨host, port⟩

/-- The host starts with a digit, as a dotted quad does. -/
def StartsWithDigit (host : CStr) : Prop := ∃ c rest, host.bytes = c :: rest ∧ IsDigitByte c

/-! ## Reading one line -/

theorem isIndent_of_not_space {c : UInt8} (h : isSpaceByte c = false) : isIndent c = false := by
  simp only [isSpaceByte, Bool.or_eq_false_iff, beq_eq_false_iff_ne, ne_eq] at h
  simp [isIndent, h.1.1.1.1.1, h.1.1.1.1.2]

/-- Empty lines change nothing. -/
theorem prefsLoop_filter (lines : List Bytes) (s : Prefs) :
    prefsLoop (lines.filter (· ≠ [])) s = prefsLoop lines s := by
  induction lines generalizing s with
  | nil => rfl
  | cons line lines ih =>
      cases line with
      | nil => exact ih s
      | cons c rest =>
          rw [List.filter_cons_of_pos (by simp), prefsLoop, prefsLoop]
          simp only [ih]

/-- A blank line or a comment changes nothing. -/
theorem prefsLoop_junk {line : Bytes} (h : JunkLine line) (lines : List Bytes) (s : Prefs) :
    prefsLoop (line :: lines) s = prefsLoop lines s := by
  obtain ⟨indent, rest, rfl, hindent, hrest⟩ := h
  have skipped : (indent ++ rest).dropWhile isIndent = rest.dropWhile isIndent := by
    refine List.dropWhile_append_of_pos fun c hc => ?_
    rcases hindent c hc with rfl | rfl <;> rfl
  rw [prefsLoop, skipped]
  rcases hrest with rfl | ⟨comment, rfl⟩
  · rfl
  · rfl

theorem prefsLoop_junks {before : List Bytes} (h : ∀ l ∈ before, JunkLine l) (lines : List Bytes)
    (s : Prefs) : prefsLoop (before ++ lines) s = prefsLoop lines s := by
  induction before with
  | nil => rfl
  | cons line before ih =>
      rw [List.cons_append, prefsLoop_junk (h line List.mem_cons_self)]
      exact ih fun l hl => h l (List.mem_cons_of_mem _ hl)

theorem colon_split {host digits : Bytes} (hdigits : (58 : UInt8) ∉ digits) :
    beforeColon (host ++ 58 :: digits) = host ∧ behindColon (host ++ 58 :: digits) = digits := by
  have reversed : (host ++ 58 :: digits).reverse = digits.reverse ++ 58 :: host.reverse := by simp
  have pos : ∀ c ∈ digits.reverse, decide (c ≠ 58) = true := by
    intro c hc
    have : c ≠ 58 := ne_of_mem_of_not_mem (List.mem_reverse.1 hc) hdigits
    simpa using this
  constructor
  · rw [beforeColon, reversed, List.dropWhile_append_of_pos pos,
      List.dropWhile_cons_of_neg (by decide)]
    simp
  · rw [behindColon, reversed, List.takeWhile_append_of_pos pos,
      List.takeWhile_cons_of_neg (by decide)]
    simp

namespace PortDigits

variable {digits : Bytes} {port : Nat} (h : PortDigits digits port)

include h

theorem noColon : (58 : UInt8) ∉ digits := fun hc => absurd (h.all 58 hc) (by decide)

theorem atoi_eq : atoi digits = port := by
  have read := @atoi_digits digits h.nonempty h.all [] (by simp)
  rw [List.append_nil, h.value] at read
  exact read

theorem setPort (s : Prefs) : s.setPort (port : Int) = ⟨s.gHost, port⟩ := by
  have pos := h.pos
  have le := h.le
  rw [Prefs.setPort, if_pos ⟨by omega, by omega⟩, Int.toNat_natCast]

end PortDigits

namespace HostName

variable {host : CStr} (h : HostName host)

include h

theorem setHost (s : Prefs) : s.setHost host.bytes = ⟨host, s.gPort⟩ := by
  have fits : host.fit 64 = host := CStr.fit_eq_self (Nat.lt_succ_of_le h.short)
  rw [Prefs.setHost, cstr_bytes, fits]

/-- The first character: neither an indentation nor a comment. -/
theorem exists_head : ∃ c rest, host.bytes = c :: rest ∧ isIndent c = false ∧ c ≠ 35 := by
  obtain ⟨c, rest, hc⟩ := List.exists_cons_of_ne_nil h.nonempty
  refine ⟨c, rest, hc, isIndent_of_not_space (h.noSpace c (by simp [hc])), ?_⟩
  rintro rfl
  exact h.noHash (by simp [hc])

end HostName

/-- The line `host:port`. -/
theorem prefsLoop_single {host : CStr} {digits : Bytes} {port : Nat} (hhost : HostName host)
    (hport : PortDigits digits port) (lines : List Bytes) (s : Prefs) :
    prefsLoop ((host.bytes ++ 58 :: digits) :: lines) s = ⟨host, port⟩ := by
  obtain ⟨c, rest, hc, indent, noHash⟩ := hhost.exists_head
  obtain ⟨before, behind⟩ := @colon_split host.bytes digits hport.noColon
  have colon : (58 : UInt8) ∈ host.bytes ++ 58 :: digits := by simp
  have setBoth : ((s.setHost host.bytes).setPort (atoi digits)) = ⟨host, port⟩ := by
    rw [hhost.setHost, hport.atoi_eq, hport.setPort]
  rw [hc, List.cons_append] at before behind colon ⊢
  rw [prefsLoop, List.dropWhile_cons_of_neg (by simp [indent])]
  simp only [if_neg noHash, if_pos colon, before, behind]
  rw [if_pos (List.cons_ne_nil c rest), ← hc]
  exact setBoth

/-- A host on a line of its own. -/
theorem prefsLoop_host {host : CStr} (hhost : HostName host) (noColon : (58 : UInt8) ∉ host.bytes)
    (hdigit : ¬ StartsWithDigit host) (lines : List Bytes) (s : Prefs) :
    prefsLoop (host.bytes :: lines) s = prefsLoop lines ⟨host, s.gPort⟩ := by
  obtain ⟨c, rest, hc, indent, noHash⟩ := hhost.exists_head
  have letter : ¬ IsDigitByte c := fun hdig => hdigit ⟨c, rest, hc, hdig⟩
  have set := hhost.setHost s
  rw [hc] at noColon set ⊢
  rw [prefsLoop, List.dropWhile_cons_of_neg (by simp [indent])]
  simp only [if_neg noHash, if_neg noColon, if_neg letter, set]

/-- A line that starts with a digit and has no colon ends the reading with the host as it was. -/
theorem prefsLoop_digit {line : Bytes} {c : UInt8} {rest : Bytes} (hline : line = c :: rest)
    (hc : IsDigitByte c) (noColon : (58 : UInt8) ∉ line) (lines : List Bytes) (s : Prefs) :
    prefsLoop (line :: lines) s = s.setPort (atoi line) := by
  have indent := isIndent_of_not_space (isSpaceByte_of_digit hc)
  have noHash : c ≠ 35 := by
    rintro rfl
    exact absurd hc (by decide)
  subst hline
  rw [prefsLoop, List.dropWhile_cons_of_neg (by simp [indent])]
  simp only [if_neg noHash, if_neg noColon, if_pos hc]

/-! ## Reading a document -/

/-- The reader sees the lines of a document that fits in its buffer. -/
theorem loadPrefs_doc {text : CStr} {lines : List (Bytes × Ending)} {last : Bytes}
    (hdoc : text.bytes = doc lines last) (hlines : ∀ l ∈ lines, OneLine l.1) (hlast : OneLine last)
    (short : text.length ≤ 255) (s : Prefs) :
    loadPrefs (some text.bytes) s = prefsLoop (lines.map Prod.fst ++ [last]) s := by
  have whole : text.bytes.take 255 = text.bytes := List.take_of_length_le short
  have seen := filter_splitOnP_doc id rfl lines hlines hlast
  rw [List.map_id, List.map_id] at seen
  rw [loadPrefs, whole, cstr_bytes, hdoc, seen, prefsLoop_filter]

/-- What lies behind a NUL is not read. -/
theorem loadPrefs_behind (text : CStr) (more : Bytes) (s : Prefs) :
    loadPrefs (some (text.bytes ++ 0 :: more)) s = loadPrefs (some text.bytes) s := by
  have hcut : cstr ((text.bytes ++ 0 :: more).take 255) = cstr (text.bytes.take 255) := by
    apply CStr.ext'
    have hnul : ∀ n, ((0 :: more).take n).takeWhile (· ≠ (0 : UInt8)) = [] := by
      intro n
      cases n <;> rfl
    have hfree : ∀ c ∈ text.bytes.take 255, decide (c ≠ 0) = true := by
      intro c hc
      exact decide_eq_true (ne_of_mem_of_not_mem (List.mem_of_mem_take hc) text.nulFree)
    calc ((text.bytes ++ 0 :: more).take 255).takeWhile (· ≠ (0 : UInt8))
      _ = text.bytes.take 255 := by
          rw [List.take_append, List.takeWhile_append_of_pos hfree, hnul, List.append_nil]
      _ = (text.bytes.take 255).takeWhile (· ≠ (0 : UInt8)) := (List.takeWhile_eq_self_iff.2 hfree).symm
  simp only [loadPrefs, hcut]

theorem prefsLoop_legacy {host : CStr} {digits : Bytes} {port : Nat} (hhost : HostName host)
    (noColon : (58 : UInt8) ∉ host.bytes) (hport : PortDigits digits port)
    (hdigit : ¬ StartsWithDigit host) {between after : List Bytes}
    (hbetween : ∀ l ∈ between, JunkLine l) (s : Prefs) :
    prefsLoop (host.bytes :: (between ++ digits :: after)) s = ⟨host, port⟩ := by
  obtain ⟨d, more, hd⟩ := List.exists_cons_of_ne_nil hport.nonempty
  have first : IsDigitByte d := hport.all d (by simp [hd])
  rw [prefsLoop_host hhost noColon hdigit, prefsLoop_junks hbetween,
    prefsLoop_digit hd first hport.noColon, hport.atoi_eq, hport.setPort]

/-- A host that starts with a digit is left out. -/
theorem prefsLoop_quad {host : CStr} (lines : List Bytes) (noColon : (58 : UInt8) ∉ host.bytes)
    (hdigit : StartsWithDigit host) (s : Prefs) :
    (prefsLoop (host.bytes :: lines) s).gHost = s.gHost := by
  obtain ⟨c, rest, hc, hdig⟩ := hdigit
  rw [prefsLoop_digit hc hdig noColon, Prefs.setPort]
  split <;> rfl

/-- **A document sets exactly its host and port** if and only if it has them on one line, or its host
does not start with a digit. -/
theorem loads_iff {layout : Layout} {host : CStr} {digits : Bytes} {port : Nat} {text : CStr}
    {lines : List (Bytes × Ending)} {last : Bytes} (hhost : HostName host)
    (noColon : (58 : UInt8) ∉ host.bytes) (hport : PortDigits digits port)
    (hdoc : text.bytes = doc lines last) (hlines : ∀ l ∈ lines, OneLine l.1) (hlast : OneLine last)
    (hform : layout.Lines host digits (lines.map Prod.fst ++ [last])) (short : text.length ≤ 255) :
    Loads text.bytes host port ↔ layout = .single ∨ ¬ StartsWithDigit host := by
  have read : ∀ s, loadPrefs (some text.bytes) s = prefsLoop (lines.map Prod.fst ++ [last]) s :=
    loadPrefs_doc hdoc hlines hlast short
  cases layout with
  | single =>
      obtain ⟨before, after, hsplit, hbefore, -⟩ := hform
      refine iff_of_true (fun s => ?_) (.inl rfl)
      rw [read, hsplit, prefsLoop_junks hbefore, prefsLoop_single hhost hport]
  | legacy =>
      obtain ⟨before, between, after, hsplit, hbefore, hbetween, -⟩ := hform
      simp only [reduceCtorEq, false_or]
      constructor
      · intro loads hdigit
        -- nothing is known of the host that was set before
        have kept := prefsLoop_quad (between ++ digits :: after) noColon hdigit ⟨.empty, 0⟩
        have set := loads ⟨.empty, 0⟩
        rw [read, hsplit, prefsLoop_junks hbefore] at set
        rw [set] at kept
        exact hhost.nonempty (congrArg CStr.bytes kept)
      · intro hdigit s
        rw [read, hsplit, prefsLoop_junks hbefore,
          prefsLoop_legacy hhost noColon hport hdigit hbetween]

/-- `ReloadConfig` follows the file. -/
theorem reloadConfig_loads {text : Bytes} {host : CStr} {port : Nat} (loads : Loads text host port)
    (hhost : HostName host) (s : Globals) :
    let p := loadPrefs (some text) ⟨s.gHost, s.gPort⟩
    (reloadConfig s p.gHost p.gPort).gHost = host ∧ (reloadConfig s p.gHost p.gPort).gPort = port := by
  have fits : host.fit 64 = host := CStr.fit_eq_self (Nat.lt_succ_of_le hhost.short)
  rw [loads]
  simp only [reloadConfig]
  split
  · exact ⟨fits, rfl⟩
  · next same =>
      simp only [configMoved, fits, Bool.or_eq_true, decide_eq_true_eq, not_or, not_not] at same
      exact ⟨same.1.symm, same.2.symm⟩

/-! ## Two documents -/

theorem hostName_quad : HostName (.lit "192.0.2.10") :=
  ⟨by decide, by decide, List.all_iff_forall_prop.1 (by decide), by decide⟩

theorem portDigits_gopher : PortDigits (ascii "70") 70 :=
  ⟨by decide, List.all_iff_forall_prop.1 (by decide), by decide, by decide, by decide⟩

theorem junkLine_nil : JunkLine [] := ⟨[], [], rfl, List.forall_mem_nil _, .inl rfl⟩

theorem junkLine_blank : JunkLine (ascii "  ") :=
  ⟨ascii "  ", [], by decide, List.all_iff_forall_prop.1 (by decide), .inl rfl⟩

theorem junkLine_comment : JunkLine (ascii " # here: too") :=
  ⟨ascii " ", ascii "# here: too", by decide, List.all_iff_forall_prop.1 (by decide),
    .inr ⟨ascii " here: too", by decide⟩⟩

/-- A comment, a blank line and the server, with three endings. -/
def singleDoc : List (Bytes × Ending) :=
  [(ascii " # here: too", .cr), (ascii "  ", .crlf), (ascii "192.0.2.10:70", .lf)]

/-- The server on two lines. -/
def legacyDoc : List (Bytes × Ending) := [(ascii "192.0.2.10", .cr), (ascii "70", .cr)]

theorem loads_iff_singleDoc : Loads (cstr (doc singleDoc [])).bytes (.lit "192.0.2.10") 70 := by
  refine (@loads_iff .single (.lit "192.0.2.10") (ascii "70") 70 (cstr (doc singleDoc [])) singleDoc []
    hostName_quad (by decide) portDigits_gopher (by decide) (by decide) (by decide) ?_
    (by decide)).2 (.inl rfl)
  refine ⟨[ascii " # here: too", ascii "  "], [[]], by decide, ?_, ?_⟩
  · intro l hl
    rcases List.mem_cons.1 hl with rfl | hl
    · exact junkLine_comment
    · rw [List.mem_singleton.1 hl]
      exact junkLine_blank
  · intro l hl
    rw [List.mem_singleton.1 hl]
    exact junkLine_nil

/-- **A dotted quad on a line of its own** is taken for a port: the host stays what it was. -/
theorem quad_is_taken_for_a_port :
    (cstr (doc legacyDoc [])).bytes = ascii "192.0.2.10\r70\r" ∧
      Layout.legacy.Lines (.lit "192.0.2.10") (ascii "70") (legacyDoc.map Prod.fst ++ [[]]) ∧
      loadPrefs (some (cstr (doc legacyDoc [])).bytes) ⟨.lit "old", 7070⟩ = ⟨.lit "old", 192⟩ ∧
      ¬ Loads (cstr (doc legacyDoc [])).bytes (.lit "192.0.2.10") 70 := by
  have read : loadPrefs (some (cstr (doc legacyDoc [])).bytes) ⟨.lit "old", 7070⟩ =
      ⟨.lit "old", 192⟩ := by decide +kernel
  refine ⟨by decide, ⟨[], [], [[]], by decide, by simp, by simp, ?_⟩, read, fun loads => ?_⟩
  · intro l hl
    rw [List.mem_singleton.1 hl]
    exact junkLine_nil
  · rw [loads] at read
    exact absurd read (by decide)

/-! ## The writer -/

/-- The first line of the header. -/
def headerEdit : CStr := .lit "# Casquinha backend. Edit host:port, save, switch back to Casquinha."

/-- The second line of the header. -/
def headerWhat : CStr := .lit "# gopher control endpoint (dotted-quad or hostname):port"

/-- What `SavePrefs` formats. -/
def prefsText (host : CStr) (port : Nat) : CStr :=
  headerEdit ++ .lit "\r" ++ headerWhat ++ .lit "\r" ++ host ++ .lit ":" ++ decimal port ++ .lit "\r"

/-- The size of `buf` in `SavePrefs`. -/
def prefsBufSize : Nat := 192

/-- `buf` and what lies behind it on the stack, after `snprintf`. -/
def prefsBuf (stack : Nat → UInt8) (host : CStr) (port : Nat) : Nat → UInt8 :=
  blit stack 0 (((prefsText host port).fit prefsBufSize).bytes ++ [0])

/-- `count`: what `snprintf` would have written. -/
def prefsCount (host : CStr) (port : Nat) : Nat := (prefsText host port).length

/-- `SavePrefs`: the bytes of the file. -/
def savePrefs (stack : Nat → UInt8) (host : CStr) (port : Nat) : Bytes :=
  readMem (prefsBuf stack host port) 0 (prefsCount host port)

/-- The characters that `snprintf` has formatted into `buf`. -/
def prefsFormatted (host : CStr) (port : Nat) : Nat := ((prefsText host port).fit prefsBufSize).length

/-- The two lines of the header. -/
def prefsHeader : List (Bytes × Ending) := [(headerEdit.bytes, .cr), (headerWhat.bytes, .cr)]

theorem length_doc_prefsHeader (last : Bytes) : (doc prefsHeader last).length = 126 + last.length := by
  have edit : headerEdit.bytes.length = 68 := by decide
  have what : headerWhat.bytes.length = 56 := by decide
  simp only [prefsHeader, doc, Ending.bytes, List.length_append, List.length_cons, List.length_nil, edit, what]
  omega

/-- The text as a document of three lines. -/
def prefsLines (host : CStr) (port : Nat) : List (Bytes × Ending) :=
  [(headerEdit.bytes, .cr), (headerWhat.bytes, .cr), (host.bytes ++ 58 :: decimalBytes port, .cr)]

theorem prefsText_bytes (host : CStr) (port : Nat) :
    (prefsText host port).bytes = doc (prefsLines host port) [] := by
  have cr : (CStr.lit "\r").bytes = [13] := by decide
  have colon : (CStr.lit ":").bytes = [58] := by decide
  simp only [prefsText, prefsLines, doc, Ending.bytes, CStr.bytes_append, bytes_decimal, cr, colon]
  simp only [List.append_assoc, List.cons_append, List.nil_append, List.append_nil]

/-- The header goes before the server. -/
theorem prefsText_headed (host : CStr) (port : Nat) :
    (prefsText host port).bytes = doc prefsHeader (host.bytes ++ 58 :: decimalBytes port ++ [13]) := by
  rw [prefsText_bytes]
  simp only [prefsLines, prefsHeader, doc, Ending.bytes, List.append_nil]

theorem prefsCount_eq (host : CStr) (port : Nat) :
    prefsCount host port = 128 + host.length + (decimalBytes port).length := by
  rw [prefsCount, CStr.length, prefsText_headed, length_doc_prefsHeader]
  simp only [CStr.length, List.length_append, List.length_cons, List.length_nil]
  omega

theorem prefsFormatted_eq (host : CStr) (port : Nat) :
    prefsFormatted host port = min 191 (prefsCount host port) := by
  rw [prefsFormatted, CStr.length, CStr.fit, List.length_take]
  rfl

/-- A text that fits in the buffer is the file. -/
theorem savePrefs_of_fits (stack : Nat → UInt8) {host : CStr} {port : Nat}
    (fits : prefsCount host port < prefsBufSize) :
    savePrefs stack host port = (prefsText host port).bytes := by
  have whole : (prefsText host port).fit prefsBufSize = prefsText host port := CStr.fit_eq_self fits
  have spelled := readMem_blit stack 0 ((prefsText host port).bytes ++ [0])
  rw [List.length_append, readMem_add] at spelled
  rw [savePrefs, prefsBuf, whole]
  exact List.append_inj_left' spelled (by rw [length_readMem])

/-- A text that does not fit is cut, and what lies behind the buffer is saved with it. -/
theorem savePrefs_of_cut (stack : Nat → UInt8) {host : CStr} {port : Nat}
    (cut : prefsBufSize ≤ prefsCount host port) :
    savePrefs stack host port = ((prefsText host port).fit prefsBufSize).bytes ++
      0 :: readMem stack prefsBufSize (prefsCount host port - prefsBufSize) := by
  obtain ⟨more, count⟩ := Nat.exists_eq_add_of_le cut
  have full : (((prefsText host port).fit prefsBufSize).bytes ++ [0]).length = prefsBufSize := by
    have formatted := prefsFormatted_eq host port
    rw [prefsFormatted, CStr.length] at formatted
    rw [prefsBufSize] at cut
    rw [List.length_append, formatted, List.length_singleton, prefsBufSize]
    omega
  have behind : readMem (prefsBuf stack host port) prefsBufSize more = readMem stack prefsBufSize more :=
    List.map_congr_left fun i _ => blit_of_ge (by omega)
  have spelled := readMem_blit stack 0 (((prefsText host port).fit prefsBufSize).bytes ++ [0])
  rw [full] at spelled
  rw [savePrefs, count, Nat.add_sub_cancel_left, readMem_add, Nat.zero_add, behind, prefsBuf, spelled,
    List.append_assoc, List.singleton_append]

theorem portDigits_decimal {port : Nat} (pos : 1 ≤ port) (le : port ≤ 65535) :
    PortDigits (decimalBytes port) port :=
  ⟨decimalBytes_ne_nil port, fun _ => isDigitByte_of_mem_decimalBytes, decValue_decimalBytes port, pos, le⟩

theorem not_isEol_of_not_space {c : UInt8} (h : isSpaceByte c = false) : isEol c = false := by
  simp only [isSpaceByte, Bool.or_eq_false_iff, beq_eq_false_iff_ne, ne_eq] at h
  simp [isEol, h.1.1.1.2, h.1.1.2]

theorem oneLine_server {host : CStr} {digits : Bytes} {port : Nat} (hhost : HostName host)
    (hport : PortDigits digits port) : OneLine (host.bytes ++ 58 :: digits) := by
  intro c hc
  rcases List.mem_append.1 hc with hc | hc
  · exact not_isEol_of_not_space (hhost.noSpace c hc)
  · rcases List.mem_cons.1 hc with rfl | hc
    · rfl
    · exact not_isEol_of_not_space (isSpaceByte_of_digit (hport.all c hc))

theorem junkLine_header : JunkLine headerEdit.bytes ∧ JunkLine headerWhat.bytes :=
  ⟨⟨[], headerEdit.bytes, rfl, by simp, .inr ⟨headerEdit.bytes.tail, by decide⟩⟩,
    ⟨[], headerWhat.bytes, rfl, by simp, .inr ⟨headerWhat.bytes.tail, by decide⟩⟩⟩

/-- The reader skips the header. -/
theorem loadPrefs_headed {text : CStr} {lines : List (Bytes × Ending)} {last : Bytes}
    (hdoc : text.bytes = doc (prefsHeader ++ lines) last) (hlines : ∀ l ∈ lines, OneLine l.1)
    (hlast : OneLine last) (short : text.length ≤ 255) (s : Prefs) :
    loadPrefs (some text.bytes) s = prefsLoop (lines.map Prod.fst ++ [last]) s := by
  have header : ∀ l ∈ prefsHeader.map Prod.fst, JunkLine l := by
    intro l hl
    rcases List.mem_cons.1 hl with rfl | hl
    · exact junkLine_header.1
    · rw [List.mem_singleton.1 hl]
      exact junkLine_header.2
  have oneLine : ∀ l ∈ prefsHeader ++ lines, OneLine l.1 := by
    intro l hl
    rcases List.mem_append.1 hl with hl | hl
    · rcases List.mem_cons.1 hl with rfl | hl
      · exact (by decide : OneLine headerEdit.bytes)
      · rw [List.mem_singleton.1 hl]
        exact (by decide : OneLine headerWhat.bytes)
    · exact hlines l hl
  rw [loadPrefs_doc hdoc oneLine hlast short, List.map_append, List.append_assoc, prefsLoop_junks header]

/-- The text that is formatted names the server. -/
theorem loads_prefsText {host : CStr} {port : Nat} (hhost : HostName host) (pos : 1 ≤ port)
    (le : port ≤ 65535) (short : prefsCount host port ≤ 255) :
    Loads (prefsText host port).bytes host port := by
  intro s
  have oneLine : ∀ l ∈ [(host.bytes ++ 58 :: decimalBytes port, Ending.cr)], OneLine l.1 := by
    intro l hl
    rw [List.mem_singleton.1 hl]
    exact oneLine_server hhost (portDigits_decimal pos le)
  rw [loadPrefs_headed (prefsText_bytes host port) oneLine (by decide) short]
  exact prefsLoop_single hhost (portDigits_decimal pos le) [[]] s

/-- **What is saved is loaded, and nothing else is written**, if and only if the host and the port have
at most 63 characters together. -/
theorem save_load_iff (stack : Nat → UInt8) {host : CStr} {port : Nat} (hhost : HostName host)
    (pos : 1 ≤ port) (le : port ≤ 65535) :
    (Loads (savePrefs stack host port) host port ∧
        prefsCount host port ≤ prefsFormatted host port) ↔
      host.length + (decimalBytes port).length ≤ 63 := by
  have count := prefsCount_eq host port
  have formatted := prefsFormatted_eq host port
  constructor
  · rintro ⟨-, inside⟩
    omega
  · intro fits
    refine ⟨?_, by omega⟩
    rw [savePrefs_of_fits stack (by rw [prefsBufSize]; omega)]
    exact loads_prefsText hhost pos le (by omega)

theorem save_load_iff_quad :
    Loads (savePrefs (fun _ => 0xAA) (.lit "192.0.2.10") 70) (.lit "192.0.2.10") 70 ∧
      prefsCount (.lit "192.0.2.10") 70 ≤ prefsFormatted (.lit "192.0.2.10") 70 :=
  (save_load_iff (fun _ => 0xAA) hostName_quad (by decide) (by decide)).2 (by decide)

/-- A host of 63 characters. -/
def longHost : CStr := cstr (List.replicate 63 97)

theorem hostName_longHost : HostName longHost :=
  ⟨by decide, by decide, List.all_iff_forall_prop.1 (by decide), by decide⟩

theorem portDigits_seven : PortDigits [55] 7 :=
  ⟨by decide, fun c hc => List.mem_singleton.1 hc ▸ by decide, by decide, by decide, by decide⟩

/-- The text for the long host, as the buffer holds it. -/
theorem fit_longHost :
    ((prefsText longHost 70).fit prefsBufSize).bytes = doc prefsHeader (longHost.bytes ++ 58 :: [55]) := by
  have whole : (prefsText longHost 70).bytes =
      doc prefsHeader (longHost.bytes ++ 58 :: [55]) ++ [48, 13] := by
    have digits : decimalBytes 70 = [55, 48] := by decide
    rw [prefsText_headed, digits]
    simp only [prefsHeader, doc, List.append_assoc, List.cons_append, List.nil_append]
  have length : (doc prefsHeader (longHost.bytes ++ 58 :: [55])).length = prefsBufSize - 1 := by
    rw [length_doc_prefsHeader]
    decide
  calc (prefsText longHost 70).bytes.take (prefsBufSize - 1)
    _ = (doc prefsHeader (longHost.bytes ++ 58 :: [55]) ++ [48, 13]).take (prefsBufSize - 1) := by rw [whole]
    _ = doc prefsHeader (longHost.bytes ++ 58 :: [55]) := List.take_left' length

/-- **A host of 63 characters** is saved with two bytes more than were formatted, the last one from
behind the buffer, and its port is read back without its last digit. -/
theorem long_host_is_cut :
    HostName longHost ∧ prefsFormatted longHost 70 = 191 ∧ prefsCount longHost 70 = 193 ∧
      savePrefs (fun _ => 0xAA) longHost 70 =
        ((prefsText longHost 70).fit prefsBufSize).bytes ++ [0, 0xAA] ∧
      loadPrefs (some (savePrefs (fun _ => 0xAA) longHost 70)) ⟨.lit "old", 7070⟩ = ⟨longHost, 7⟩ ∧
      ¬ Loads (savePrefs (fun _ => 0xAA) longHost 70) longHost 70 := by
  have count : prefsCount longHost 70 = 193 := by
    rw [prefsCount_eq]
    decide
  have formatted : prefsFormatted longHost 70 = 191 := by
    rw [prefsFormatted_eq, count]
    rfl
  have saved : savePrefs (fun _ => 0xAA) longHost 70 =
      ((prefsText longHost 70).fit prefsBufSize).bytes ++ [0, 0xAA] := by
    rw [savePrefs_of_cut _ (by rw [count]; decide), count]
    rfl
  have read : loadPrefs (some (savePrefs (fun _ => 0xAA) longHost 70)) ⟨.lit "old", 7070⟩ =
      ⟨longHost, 7⟩ := by
    -- the port has lost its last digit
    rw [saved, loadPrefs_behind, loadPrefs_headed fit_longHost (List.forall_mem_nil _)
      (oneLine_server hostName_longHost portDigits_seven)
      (Nat.le_trans (Nat.le_of_eq formatted) (by decide))]
    exact prefsLoop_single hostName_longHost portDigits_seven [] _
  refine ⟨hostName_longHost, formatted, count, saved, read, ?_⟩
  intro loads
  rw [loads] at read
  exact absurd read (by decide)

end Casquinha.App
