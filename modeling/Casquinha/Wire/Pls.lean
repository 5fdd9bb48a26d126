import Casquinha.Lib.TextLines
import Mathlib.Data.Bool.AllAny

/-!
# The first URL of a playlist (`src/cq_pls.c`)

The scanner takes one line after the other, trims it into a buffer of 1024 bytes, and keeps two
candidates: the value of the `File` entry with the least index so far, and the first bare URL. An entry
is consumed as such even when its value is empty; a line that only starts like one is looked at again as
a bare line.

What the scanner returns is stated on the trimmed lines alone (`PlaylistChoice`). `longMax` is
`LONG_MAX`, where `strtol` saturates; copies of a line are taken to succeed.
-/

set_option autoImplicit false

namespace Casquinha.Wire

open Lib

/-! ## Characters -/

/-- `is_ws`. -/
def isWs (c : UInt8) : Bool := c = 32 || c = 9 || c = 13 || c = 10 || c = 11 || c = 12

/-- `lc`. -/
def lc (c : UInt8) : UInt8 := if 65 ≤ c ∧ c ≤ 90 then c - 65 + 97 else c

/-- `starts_ci`. The terminator of the line differs from every character of the prefix. -/
def startsCi : Bytes → Bytes → Bool
  | _, [] => true
  | [], _ :: _ => false
  | c :: s, d :: pfx => if lc c ≠ lc d then false else startsCi s pfx

/-- `all_digits`. -/
def allDigits (s : Bytes) (n : Nat) : Bool := (s.take n).all fun c => decide (IsDigitByte c)

/-- `strtol(s, NULL, 10)`, on a text that starts with a digit. -/
def strtol (longMax : Nat) (s : Bytes) : Nat :=
  min longMax (decValue 0 (s.takeWhile fun c => decide (IsDigitByte c)))

/-! ## The scanner -/

/-- The two candidates: `best_idx` with `best_pls`, and `first_bare`. -/
structure PlsScan where
  best : Option (Nat × Bytes)
  firstBare : Option Bytes

/-- The index and the value of a line that is consumed as a `File` entry. -/
def fileEntry (longMax : Nat) (line : Bytes) : Option (Nat × Bytes) :=
  if startsCi line (ascii "file") then
    -- `strchr(line, '=')`
    if (61 : UInt8) ∈ line ∧ 4 ≤ line.idxOf 61 then
      let eq := line.idxOf 61
      let keynum := line.drop 4
      let knlen := eq - 4
      if allDigits keynum knlen then
        let idx := if knlen = 0 then 1 else strtol longMax keynum
        some (if idx = 0 then 1 else idx, (line.drop (eq + 1)).dropWhile isWs)
      else none
    else none
  else none

/-- `"http://"` or `"https://"`, in any case. -/
def isUrl (line : Bytes) : Bool :=
  startsCi line (ascii "http://") || startsCi line (ascii "https://")

/-- `!best_pls || idx < best_idx`. -/
def takesEntry (best : Option (Nat × Bytes)) (idx : Nat) : Bool :=
  match best with
  | none => true
  | some (bestIdx, _) => idx < bestIdx

/-- One trimmed line. -/
def plsLine (longMax : Nat) (scan : PlsScan) (line : Bytes) : PlsScan :=
  if line = [] then scan
  else
    match fileEntry longMax line with
    | some (idx, val) =>
        if val ≠ [] ∧ takesEntry scan.best idx then { scan with best := some (idx, val) } else scan
    | none =>
        -- a line that only starts like an entry falls through
        if line.head? ≠ some 35 ∧ isUrl line ∧ scan.firstBare = none then
          { scan with firstBare := some line }
        else scan

/-- The size of `line` in `cq_pls_first_url`. -/
def plsLineSize : Nat := 1024

/-- `for (;;)`: one line up to the next CR or LF. -/
def plsLoop (longMax : Nat) (scan : PlsScan) (p : Bytes) : PlsScan :=
  let raw := p.takeWhile fun c => !isEol c
  let scan := plsLine longMax scan ((trim isWs raw).take (plsLineSize - 1))
  match _h : p.drop raw.length with
  | [] => scan
  -- skip the single CR or LF
  | _ :: p' => plsLoop longMax scan p'
termination_by p.length
decreasing_by
  have := congrArg List.length _h
  rw [List.length_drop, List.length_cons] at this
  omega

/-- `cq_pls_first_url`. -/
def cqPlsFirstUrl (longMax : Nat) (text : CStr) : Option Bytes :=
  let scan := plsLoop longMax ⟨none, none⟩ text.bytes
  match scan.best with
  | some (_, val) => some val
  | none => scan.firstBare

/-! ## The choice -/

/-- The trimmed lines of a text. -/
def plsLines (text : CStr) : List Bytes := (text.bytes.splitOnP isEol).map (trim isWs)

/-- The index that the digits of a key stand for. -/
def entryIndex (longMax : Nat) (digits : Bytes) : Nat := max 1 (min longMax (decValue 0 digits))

/-- `File<digits>=<value>`. -/
def EntryLine (longMax : Nat) (line : Bytes) (idx : Nat) (val : Bytes) : Prop :=
  ∃ key digits rest, line = key ++ digits ++ 61 :: rest ∧ key.map lc = ascii "file" ∧
    (∀ c ∈ digits, IsDigitByte c) ∧ idx = entryIndex longMax digits ∧ val = rest.dropWhile isWs

/-- An entry with a value. -/
def FileLine (longMax : Nat) (line : Bytes) (idx : Nat) (val : Bytes) : Prop :=
  EntryLine longMax line idx val ∧ val ≠ []

/-- A line that starts with a scheme, in any case. -/
def BareUrl (line : Bytes) : Prop :=
  (line.take 7).map lc = ascii "http://" ∨ (line.take 8).map lc = ascii "https://"

/-- What a playlist offers: the `File` line with the least index, the first among equals; if there is
none, the first bare URL. -/
inductive PlaylistChoice (longMax : Nat) (lines : List Bytes) : Option Bytes → Prop
  | file {before after : List Bytes} {line val : Bytes} {idx : Nat}
      (split : lines = before ++ line :: after) (entry : FileLine longMax line idx val)
      (least : ∀ l ∈ before, ∀ i v, FileLine longMax l i v → idx < i)
      (first : ∀ l ∈ after, ∀ i v, FileLine longMax l i v → idx ≤ i) :
      PlaylistChoice longMax lines (some val)
  | bare {before after : List Bytes} {line : Bytes}
      (noFile : ∀ l ∈ lines, ∀ i v, ¬ FileLine longMax l i v)
      (split : lines = before ++ line :: after) (url : BareUrl line)
      (first : ∀ l ∈ before, ¬ BareUrl l) :
      PlaylistChoice longMax lines (some line)
  | none (noFile : ∀ l ∈ lines, ∀ i v, ¬ FileLine longMax l i v)
      (noBare : ∀ l ∈ lines, ¬ BareUrl l) :
      PlaylistChoice longMax lines none

/-! ## Lines -/

theorem startsCi_iff (s pfx : Bytes) :
    startsCi s pfx = true ↔ (s.take pfx.length).map lc = pfx.map lc := by
  induction pfx generalizing s with
  | nil => simp [startsCi]
  | cons d pfx ih =>
      cases s with
      | nil => simp [startsCi]
      | cons c s =>
          rw [startsCi, List.length_cons, List.take_succ_cons, List.map_cons, List.map_cons,
            List.cons.injEq, ← ih]
          by_cases same : lc c = lc d <;> simp [same]

theorem isUrl_iff (line : Bytes) : isUrl line = true ↔ BareUrl line := by
  have http : (ascii "http://").map lc = ascii "http://" := by decide
  have https : (ascii "https://").map lc = ascii "https://" := by decide
  rw [isUrl, Bool.or_eq_true, startsCi_iff, startsCi_iff, http, https]
  rfl

/-- The loop takes the lines of the text one after the other. -/
theorem plsLoop_eq_foldl (longMax : Nat) (scan : PlsScan) (p : Bytes) :
    plsLoop longMax scan p =
      ((p.splitOnP isEol).map fun raw => (trim isWs raw).take (plsLineSize - 1)).foldl
        (plsLine longMax) scan := by
  induction hn : p.length using Nat.strong_induction_on generalizing p scan with
  | h n ih =>
    obtain ⟨here, ⟨hd, whole⟩ | ⟨c, p', hd, stops, whole⟩⟩ := cut_at_eol p
    · rw [plsLoop, hd]
      conv_rhs => rw [whole, splitOnP_line here]
      rfl
    · have shorter : p'.length < n := by
        rw [← hn, whole, List.length_append, List.length_cons]
        omega
      rw [plsLoop, hd]
      conv_rhs => rw [whole, List.splitOnP_append_cons_of_forall_mem here c stops]
      simp only [ih _ shorter _ p' rfl]
      rfl

theorem notMem_of_lc_file {key : Bytes} (hkey : key.map lc = ascii "file") :
    (61 : UInt8) ∉ key := by
  intro h
  have : lc 61 ∈ ascii "file" := hkey ▸ List.mem_map_of_mem h
  exact absurd this (by decide)

theorem length_of_lc_file {key : Bytes} (hkey : key.map lc = ascii "file") : key.length = 4 := by
  have := congrArg List.length hkey
  rw [List.length_map] at this
  exact this

/-- The index of an entry: no digits and zero count as one. -/
theorem strtol_index (longMax : Nat) {digits : Bytes} (rest : Bytes)
    (hdigits : ∀ c ∈ digits, IsDigitByte c) :
    (if (if digits.length = 0 then 1 else strtol longMax (digits ++ 61 :: rest)) = 0 then 1
      else if digits.length = 0 then 1 else strtol longMax (digits ++ 61 :: rest)) =
      entryIndex longMax digits := by
  have read : (digits ++ 61 :: rest).takeWhile (fun c => decide (IsDigitByte c)) = digits := by
    rw [List.takeWhile_append_of_pos (by simpa using hdigits), List.takeWhile_cons_of_neg (by decide),
      List.append_nil]
  rw [strtol, read, entryIndex]
  cases digits with
  | nil => simp [decValue]
  | cons c digits =>
      simp only [List.length_cons, Nat.succ_ne_zero, if_false]
      split <;> omega

/-- A line split at its first `=`, behind a key that ends there. -/
theorem fileEntry_of_eq (longMax : Nat) {key digits rest : Bytes} (hkey : key.map lc = ascii "file")
    (hdigits : (61 : UInt8) ∉ digits) :
    fileEntry longMax (key ++ digits ++ 61 :: rest) =
      if digits.all fun c => IsDigitByte c then
        some (entryIndex longMax digits, rest.dropWhile isWs)
      else none := by
  have klen := length_of_lc_file hkey
  have starts : startsCi (key ++ digits ++ 61 :: rest) (ascii "file") = true := by
    have file : (ascii "file").map lc = ascii "file" := by decide
    have four : (ascii "file").length = key.length := klen.symm
    rw [startsCi_iff, four, List.append_assoc, List.take_left, hkey, file]
  have notBefore : (61 : UInt8) ∉ key ++ digits := by
    rw [List.mem_append]
    exact not_or.2 ⟨notMem_of_lc_file hkey, hdigits⟩
  have place : (key ++ digits ++ 61 :: rest).idxOf 61 = 4 + digits.length := by
    rw [List.idxOf_append_of_notMem notBefore, List.idxOf_cons_self, List.length_append, klen]
    rfl
  have keynum : (key ++ digits ++ 61 :: rest).drop 4 = digits ++ 61 :: rest := by
    rw [← klen, List.append_assoc, List.drop_left]
  have value : (key ++ digits ++ 61 :: rest).drop (4 + digits.length + 1) = rest := by
    have : 4 + digits.length + 1 = (key ++ digits ++ [61]).length := by
      simp [klen]
      omega
    have split : key ++ digits ++ 61 :: rest = key ++ digits ++ [61] ++ rest := List.append_cons _ _ _
    rw [split, this, List.drop_left]
  have number : 4 + digits.length - 4 = digits.length := by omega
  have all : allDigits (digits ++ 61 :: rest) digits.length = digits.all fun c => IsDigitByte c := by
    rw [allDigits, List.take_left]
  rw [fileEntry, if_pos starts, place, if_pos ⟨by simp, by omega⟩]
  simp only [keynum, number, value, all]
  split
  · next h => rw [strtol_index longMax rest (List.all_iff_forall_prop.1 h)]
  · rfl

/-- **What is consumed as an entry** is what reads `File<digits>=`. -/
theorem fileEntry_iff (longMax : Nat) (line : Bytes) (idx : Nat) (val : Bytes) :
    fileEntry longMax line = some (idx, val) ↔ EntryLine longMax line idx val := by
  constructor
  · intro h
    by_cases shape : startsCi line (ascii "file") = true ∧ (61 : UInt8) ∈ line ∧ 4 ≤ line.idxOf 61
    · obtain ⟨starts, hmem, hfour⟩ := shape
      have hlt := List.idxOf_lt_length_of_mem hmem
      have file : (ascii "file").map lc = ascii "file" := by decide
      have hkey : (line.take 4).map lc = ascii "file" := ((startsCi_iff _ _).1 starts).trans file
      have whole : line = line.take 4 ++ (line.take (line.idxOf 61)).drop 4 ++
          61 :: line.drop (line.idxOf 61 + 1) := by
        have front : line.take 4 = (line.take (line.idxOf 61)).take 4 := by
          rw [List.take_take, Nat.min_eq_left hfour]
        have here : (61 : UInt8) :: line.drop (line.idxOf 61 + 1) = line.drop (line.idxOf 61) := by
          rw [List.drop_eq_getElem_cons hlt, List.getElem_idxOf hlt]
        rw [front, List.take_append_drop, here, List.take_append_drop]
      have hdigits : (61 : UInt8) ∉ (line.take (line.idxOf 61)).drop 4 := by
        intro h
        exact Nat.lt_irrefl _ ((List.mem_take_iff_idxOf_lt hmem).1 (List.mem_of_mem_drop h))
      rw [whole, fileEntry_of_eq longMax hkey hdigits] at h
      split at h
      · next digits =>
          simp only [Option.some.injEq, Prod.mk.injEq] at h
          exact ⟨_, _, _, whole, hkey, List.all_iff_forall_prop.1 digits, h.1.symm, h.2.symm⟩
      · cases h
    · rw [fileEntry] at h
      split at h
      · next starts =>
          rw [if_neg fun hne => shape ⟨starts, hne⟩] at h
          cases h
      · cases h
  · rintro ⟨key, digits, rest, rfl, hkey, hdigits, rfl, rfl⟩
    have noEq : (61 : UInt8) ∉ digits := fun h => absurd (hdigits 61 h) (by decide)
    rw [fileEntry_of_eq longMax hkey noEq, if_pos (List.all_iff_forall_prop.2 hdigits)]

/-! ## The scan -/

/-- The entry of a line that has a value. -/
def lineEntry (longMax : Nat) (line : Bytes) : Option (Nat × Bytes) :=
  (fileEntry longMax line).filter fun e => e.2 ≠ []

theorem lineEntry_iff (longMax : Nat) (line : Bytes) (idx : Nat) (val : Bytes) :
    lineEntry longMax line = some (idx, val) ↔ FileLine longMax line idx val := by
  rw [lineEntry, Option.filter_eq_some_iff, fileEntry_iff, FileLine]
  simp

/-- A smaller index takes the place of the best one. -/
def betterEntry : Option (Nat × Bytes) → Nat × Bytes → Option (Nat × Bytes) :=
  List.argAux fun b c => b.1 < c.1

/-- A line that is consumed as an entry is no URL. -/
theorem isUrl_of_fileEntry {longMax : Nat} {line : Bytes} {e : Nat × Bytes}
    (h : fileEntry longMax line = some e) : isUrl line = false := by
  obtain ⟨key, digits, rest, rfl, hkey, -⟩ := (fileEntry_iff longMax line e.1 e.2).1 h
  have four := length_of_lc_file hkey
  obtain ⟨c, key, rfl⟩ := List.exists_cons_of_length_eq_add_one four
  have hc : lc c = 102 := (List.cons.inj hkey).1
  cases hurl : isUrl (c :: key ++ digits ++ 61 :: rest) with
  | false => rfl
  | true =>
      rcases (isUrl_iff _).1 hurl with h | h
      · have : lc c = 104 := (List.cons.inj h).1
        rw [hc] at this
        cases this
      · have : lc c = 104 := (List.cons.inj h).1
        rw [hc] at this
        cases this

/-- A URL is no comment. -/
theorem head_ne_of_isUrl {line : Bytes} (h : isUrl line = true) : line.head? ≠ some 35 := by
  cases line with
  | nil => simp
  | cons c line =>
      intro hc
      cases hc
      rcases (isUrl_iff _).1 h with h | h
      · have : lc 35 = 104 := (List.cons.inj h).1
        cases this
      · have : lc 35 = 104 := (List.cons.inj h).1
        cases this

theorem best_plsLine (longMax : Nat) (scan : PlsScan) (line : Bytes) :
    (plsLine longMax scan line).best =
      match lineEntry longMax line with
      | some e => betterEntry scan.best e
      | none => scan.best := by
  rw [plsLine]
  split
  · next empty =>
      subst empty
      rfl
  · rw [lineEntry]
    cases fileEntry longMax line with
    | none =>
        simp only [Option.filter_none]
        split <;> rfl
    | some e =>
        obtain ⟨idx, val⟩ := e
        by_cases hval : val = []
        · simp [hval, Option.filter_some]
        · cases hbest : scan.best with
          | none => simp [hval, Option.filter_some, takesEntry, betterEntry, List.argAux]
          | some b =>
              obtain ⟨bestIdx, bestVal⟩ := b
              by_cases less : idx < bestIdx
              · simp [hval, Option.filter_some, takesEntry, betterEntry, List.argAux, less]
              · simp [hval, Option.filter_some, takesEntry, betterEntry, List.argAux, less, hbest]

theorem firstBare_plsLine (longMax : Nat) (scan : PlsScan) (line : Bytes) :
    (plsLine longMax scan line).firstBare =
      scan.firstBare.or (if isUrl line then some line else none) := by
  rw [plsLine]
  split
  · next empty =>
      subst empty
      exact (Option.or_none).symm
  · cases hfile : fileEntry longMax line with
    | some e =>
        rw [isUrl_of_fileEntry hfile]
        simp only [Bool.false_eq_true, if_false, Option.or_none]
        split <;> rfl
    | none =>
        cases hurl : isUrl line with
        | false => simp
        | true =>
            have noComment := head_ne_of_isUrl hurl
            cases hbare : scan.firstBare with
            | none => simp [noComment]
            | some b => simp [hbare]

theorem best_foldl (longMax : Nat) (scan : PlsScan) (lines : List Bytes) :
    (lines.foldl (plsLine longMax) scan).best =
      (lines.filterMap (lineEntry longMax)).foldl betterEntry scan.best := by
  induction lines generalizing scan with
  | nil => rfl
  | cons line lines ih =>
      rw [List.foldl_cons, ih, best_plsLine]
      cases h : lineEntry longMax line with
      | none => rw [List.filterMap_cons_none h]
      | some e =>
          rw [List.filterMap_cons_some h]
          rfl

theorem firstBare_foldl (longMax : Nat) (scan : PlsScan) (lines : List Bytes) :
    (lines.foldl (plsLine longMax) scan).firstBare = scan.firstBare.or (lines.find? isUrl) := by
  induction lines generalizing scan with
  | nil => exact (Option.or_none).symm
  | cons line lines ih =>
      rw [List.foldl_cons, ih, firstBare_plsLine, Option.or_assoc, List.find?_cons]
      cases isUrl line <;> rfl

/-- What the scanner answers for its lines. -/
def answer (longMax : Nat) (lines : List Bytes) : Option Bytes :=
  match (lines.filterMap (lineEntry longMax)).argmin Prod.fst with
  | some e => some e.2
  | none => lines.find? isUrl

/-- The lines as they come to lie in the buffer. -/
def bufferedLines (text : CStr) : List Bytes :=
  (text.bytes.splitOnP isEol).map fun raw => (trim isWs raw).take (plsLineSize - 1)

theorem cqPlsFirstUrl_eq (longMax : Nat) (text : CStr) :
    cqPlsFirstUrl longMax text = answer longMax (bufferedLines text) := by
  have scanned : plsLoop longMax ⟨none, none⟩ text.bytes =
      (bufferedLines text).foldl (plsLine longMax) ⟨none, none⟩ :=
    plsLoop_eq_foldl longMax ⟨none, none⟩ text.bytes
  have least : ∀ l : List (Nat × Bytes), l.foldl betterEntry none = l.argmin Prod.fst := fun _ => rfl
  rw [cqPlsFirstUrl, scanned, answer]
  simp only [best_foldl, firstBare_foldl, Option.none_or, least]
  cases ((bufferedLines text).filterMap (lineEntry longMax)).argmin Prod.fst <;> rfl

/-- Lines that fit are in the buffer as they are. -/
theorem bufferedLines_of_short {text : CStr} (h : ∀ line ∈ plsLines text, line.length < plsLineSize) :
    bufferedLines text = plsLines text := by
  rw [bufferedLines, plsLines]
  refine List.map_congr_left fun raw hraw => List.take_of_length_le ?_
  have := h (trim isWs raw) (List.mem_map_of_mem hraw)
  omega

/-! ## What is chosen -/

/-- The answer is the choice. -/
theorem choice_answer (longMax : Nat) (lines : List Bytes) :
    PlaylistChoice longMax lines (answer longMax lines) := by
  have entry_iff : ∀ l i v, lineEntry longMax l = some (i, v) ↔ FileLine longMax l i v :=
    lineEntry_iff longMax
  rw [answer]
  cases hbest : (lines.filterMap (lineEntry longMax)).argmin Prod.fst with
  | some e =>
      obtain ⟨idx, val⟩ := e
      obtain ⟨before, after, hsplit, least, first⟩ := split_of_mem_argmin hbest
      obtain ⟨front, back, hlines, rfl, hback⟩ := List.filterMap_eq_append_iff.1 hsplit
      obtain ⟨skipped, line, after', rfl, hskipped, hline, rfl⟩ := List.filterMap_eq_cons_iff.1 hback
      have place : lines = (front ++ skipped) ++ line :: after' := by simp [hlines]
      refine .file place ((entry_iff _ _ _).1 hline) ?_ ?_
      · intro l hl i v hfile
        have he := (entry_iff l i v).2 hfile
        rcases List.mem_append.1 hl with hl | hl
        · exact least (i, v) (List.mem_filterMap.2 ⟨l, hl, he⟩)
        · rw [hskipped l hl] at he
          cases he
      · intro l hl i v hfile
        exact first (i, v) (List.mem_filterMap.2 ⟨l, hl, (entry_iff l i v).2 hfile⟩)
  | none =>
      have noFile : ∀ l ∈ lines, ∀ i v, ¬ FileLine longMax l i v := by
        intro l hl i v hfile
        have none_left := List.filterMap_eq_nil_iff.1 (List.argmin_eq_none.1 hbest) l hl
        rw [(entry_iff l i v).2 hfile] at none_left
        cases none_left
      cases hfind : lines.find? isUrl with
      | none =>
          refine .none noFile fun l hl hurl => ?_
          exact List.find?_eq_none.1 hfind l hl ((isUrl_iff l).2 hurl)
      | some line =>
          obtain ⟨hurl, before, after, hlines, hbefore⟩ := List.find?_eq_some_iff_append.1 hfind
          refine .bare noFile hlines ((isUrl_iff line).1 hurl) fun l hl hl' => ?_
          have := hbefore l hl
          rw [(isUrl_iff l).2 hl'] at this
          cases this

/-- Empty lines change nothing. -/
theorem answer_filter (longMax : Nat) (lines : List Bytes) :
    answer longMax (lines.filter (· ≠ [])) = answer longMax lines := by
  have noEntry : lineEntry longMax [] = none := rfl
  have entries : (lines.filter (· ≠ [])).filterMap (lineEntry longMax) =
      lines.filterMap (lineEntry longMax) := by
    rw [List.filterMap_filter]
    refine List.filterMap_congr fun line _ => ?_
    cases line with
    | nil => simp [noEntry]
    | cons c line => simp
  have urls : (lines.filter (· ≠ [])).find? isUrl = lines.find? isUrl := by
    rw [List.find?_filter]
    congr 1
    funext line
    cases line with
    | nil => simp [isUrl, startsCi, ascii]
    | cons c line => simp
  rw [answer, answer, entries, urls]

/-! ## Endings and order -/

/-- No two `File` lines have the same index. -/
def DistinctFiles (longMax : Nat) (lines : List Bytes) : Prop :=
  lines.Pairwise fun l l' => ∀ i v i' v', FileLine longMax l i v → FileLine longMax l' i' v' → i ≠ i'

/-- No two lines are bare URLs. -/
def OneBare (lines : List Bytes) : Prop := lines.Pairwise fun l l' => ¬ (BareUrl l ∧ BareUrl l')

theorem distinctFiles_iff (longMax : Nat) (lines : List Bytes) :
    DistinctFiles longMax lines ↔
      ((lines.filterMap (lineEntry longMax)).map Prod.fst).Nodup := by
  rw [List.Nodup, List.pairwise_map, List.pairwise_filterMap, DistinctFiles]
  have same : ∀ l l' : Bytes,
      (∀ i v i' v', FileLine longMax l i v → FileLine longMax l' i' v' → i ≠ i') ↔
        ∀ e, lineEntry longMax l = some e → ∀ e', lineEntry longMax l' = some e' → e.1 ≠ e'.1 := by
    intro l l'
    constructor
    · rintro h ⟨i, v⟩ he ⟨i', v'⟩ he'
      exact h i v i' v' ((lineEntry_iff _ _ _ _).1 he) ((lineEntry_iff _ _ _ _).1 he')
    · intro h i v i' v' hi hi'
      exact h (i, v) ((lineEntry_iff _ _ _ _).2 hi) (i', v') ((lineEntry_iff _ _ _ _).2 hi')
  simp only [same]

theorem oneBare_iff (lines : List Bytes) : OneBare lines ↔ (lines.filter isUrl).length ≤ 1 := by
  have pairs : OneBare lines ↔ (lines.filter isUrl).Pairwise fun _ _ => False := by
    rw [List.pairwise_filter, OneBare]
    simp only [isUrl_iff, not_and, imp_false]
  rw [pairs]
  match lines.filter isUrl with
  | [] => simp
  | [_] => simp
  | _ :: _ :: _ =>
      refine iff_of_false (fun h => ?_) (by simp)
      exact (List.pairwise_cons.1 h).1 _ List.mem_cons_self

/-- **The answer does not depend on the order** of lines whose indices differ, with one bare URL. -/
theorem answer_of_perm {longMax : Nat} {lines lines' : List Bytes} (perm : lines.Perm lines')
    (distinct : DistinctFiles longMax lines) (one : OneBare lines) :
    answer longMax lines = answer longMax lines' := by
  have best : (lines.filterMap (lineEntry longMax)).argmin Prod.fst =
      (lines'.filterMap (lineEntry longMax)).argmin Prod.fst :=
    argmin_eq_of_perm (perm.filterMap _) ((distinctFiles_iff longMax lines).1 distinct)
  have bare : lines.find? isUrl = lines'.find? isUrl := by
    have urls := perm.filter isUrl
    have short := (oneBare_iff lines).1 one
    rw [← List.head?_filter, ← List.head?_filter]
    match h : lines.filter isUrl with
    | [] =>
        rw [h, List.nil_perm] at urls
        rw [urls]
    | [line] =>
        rw [h, List.singleton_perm] at urls
        rw [← urls]
    | _ :: _ :: _ =>
        rw [h] at short
        simp at short
  rw [answer, answer, best, bare]

/-- The answer is that of the lines that are not blank. -/
theorem cqPlsFirstUrl_eq_filter (longMax : Nat) (text : CStr) :
    cqPlsFirstUrl longMax text = answer longMax ((bufferedLines text).filter (· ≠ [])) := by
  rw [answer_filter, cqPlsFirstUrl_eq]

/-- **The choice of a playlist.** The scanner returns the value of the `File` line with the least index,
the first among equals, else the first bare URL, else nothing. The endings of the lines do not matter,
nor does their order when the indices differ and one line at most is a bare URL. -/
theorem cqPlsFirstUrl_choice (longMax : Nat) :
    (∀ text : CStr, (∀ line ∈ plsLines text, line.length < 1024) →
      PlaylistChoice longMax (plsLines text) (cqPlsFirstUrl longMax text)) ∧
    (∀ (lines lines' : List (Bytes × Ending)) (last : Bytes) (text text' : CStr),
      (∀ l ∈ lines, OneLine l.1) → OneLine last → lines'.map Prod.fst = lines.map Prod.fst →
      text.bytes = doc lines last → text'.bytes = doc lines' last →
      cqPlsFirstUrl longMax text' = cqPlsFirstUrl longMax text) ∧
    (∀ text text' : CStr, (∀ line ∈ plsLines text, line.length < 1024) →
      ((plsLines text).filter (· ≠ [])).Perm ((plsLines text').filter (· ≠ [])) →
      DistinctFiles longMax (plsLines text) → OneBare (plsLines text) →
      cqPlsFirstUrl longMax text' = cqPlsFirstUrl longMax text) := by
  refine ⟨?_, ?_, ?_⟩
  · intro text short
    rw [cqPlsFirstUrl_eq, bufferedLines_of_short short]
    exact choice_answer longMax (plsLines text)
  · intro lines lines' last text text' hlines hlast same htext htext'
    have hlines' : ∀ l ∈ lines', OneLine l.1 := by
      intro l hl
      obtain ⟨m, hm, heq⟩ := List.mem_map.1 (same ▸ List.mem_map_of_mem hl : l.1 ∈ lines.map Prod.fst)
      exact heq ▸ hlines m hm
    rw [cqPlsFirstUrl_eq_filter, cqPlsFirstUrl_eq_filter, bufferedLines, bufferedLines, htext, htext',
      filter_splitOnP_doc _ rfl lines hlines hlast, filter_splitOnP_doc _ rfl lines' hlines' hlast, same]
  · intro text text' short perm distinct one
    have short' : ∀ line ∈ plsLines text', line.length < 1024 := by
      intro line hline
      by_cases blank : line = []
      · simp [blank]
      · have hmem : line ∈ (plsLines text').filter (· ≠ []) := by
          rw [List.mem_filter]
          exact ⟨hline, by simpa using blank⟩
        exact short line (List.mem_of_mem_filter (perm.mem_iff.2 hmem))
    rw [cqPlsFirstUrl_eq_filter, cqPlsFirstUrl_eq_filter, bufferedLines_of_short short,
      bufferedLines_of_short short']
    refine (answer_of_perm perm ?_ ?_).symm
    · exact List.Pairwise.filter _ distinct
    · exact List.Pairwise.filter _ one

/-- A directive, an entry without digits, a bare URL and an entry with a higher index. -/
def mixedPlaylist : List (Bytes × Ending) :=
  [(ascii "[playlist]", .crlf), (ascii "FILE02=http://b/2", .lf), (ascii "http://bare/", .cr),
    (ascii "file=", .lf), (ascii " File = http://x", .lf)]

/-- The text of that playlist with the endings that `ending` chooses, closed by an entry. -/
def mixedText (lines : List (Bytes × Ending)) : CStr := cstr (doc lines (ascii "File= http://a/1"))

theorem mixedPlaylist_choice :
    PlaylistChoice 2147483647 (plsLines (mixedText mixedPlaylist)) (some (ascii "http://a/1")) ∧
      cqPlsFirstUrl 2147483647
          (mixedText (mixedPlaylist.map fun l => (l.1, .cr))) = some (ascii "http://a/1") ∧
      cqPlsFirstUrl 2147483647 (mixedText mixedPlaylist.reverse) = some (ascii "http://a/1") := by
  obtain ⟨choice, endings, order⟩ := cqPlsFirstUrl_choice 2147483647
  have answers : cqPlsFirstUrl 2147483647 (mixedText mixedPlaylist) = some (ascii "http://a/1") := by
    rw [cqPlsFirstUrl_eq]
    decide +kernel
  have short : ∀ line ∈ plsLines (mixedText mixedPlaylist), line.length < 1024 := by decide +kernel
  refine ⟨answers ▸ choice _ short, ?_, ?_⟩
  · rw [← answers]
    exact endings mixedPlaylist (mixedPlaylist.map fun l => (l.1, .cr)) (ascii "File= http://a/1") _ _
      (by decide) (by decide) rfl (by decide +kernel) (by decide +kernel)
  · rw [← answers]
    exact order _ _ short (by decide +kernel) ((distinctFiles_iff _ _).2 (by decide +kernel))
      ((oneBare_iff _).2 (by decide +kernel))

end Casquinha.Wire
