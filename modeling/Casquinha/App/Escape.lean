import Casquinha.App.Clicked
import Casquinha.Lib.Percent

/-!
# Percent escapes on the wire (`EscInto`, `ToUTF8`, `RunSearch`)

`EscInto` writes a percent code, so what it has written reads back as a beginning of its text. The
search field is converted to UTF-8, escaped and printed behind the path of the search; the four
buffers on that way hold whatever a field of 127 bytes can become.
-/

set_option autoImplicit false

namespace Casquinha.App

open Lib Wire

/-! ## `EscInto` -/

theorem ne_percent_of_escSafe {k : Bool} {c : UInt8} (h : escSafe k c = true) : c ≠ 37 := by
  rintro rfl
  cases k <;> exact absurd h (by decide)

theorem escapeValue_hexDigit (c : UInt8) :
    escapeValue 37 (hexDigit (c >>> 4)) (hexDigit (c &&& 15)) = some c := by
  have every : ∀ n : Fin 256, escapeValue 37 (hexDigit (UInt8.ofNat n >>> 4))
      (hexDigit (UInt8.ofNat n &&& 15)) = some (UInt8.ofNat n) := by decide +kernel
  have hc := every ⟨c.toNat, c.toNat_lt⟩
  simpa using hc

/-- What `EscInto` writes for a byte, as a percent code. -/
def escCode (keepColon : Bool) : PercentCode where
  write := escByte keepColon
  reads := by
    intro c rest
    by_cases safe : escSafe keepColon c = true
    · rw [escByte, if_pos safe]
      exact percentDecode_plain (ne_percent_of_escSafe safe) rest
    · rw [escByte, if_neg safe]
      exact percentDecode_escape (escapeValue_hexDigit c) rest
  short := by
    intro c
    rw [escByte]
    split <;> simp

/-- The loop writes the code of the bytes that fit. -/
theorem escLoop_eq (max : Nat) (k : Bool) (o : Nat) (s : Bytes) :
    escLoop max k o s = ((escCode k).fitting max o s).flatMap (escByte k) := by
  induction s generalizing o with
  | nil => rfl
  | cons c s ih =>
      rw [escLoop, PercentCode.fitting]
      split
      · rw [ih, List.flatMap_cons]
        rfl
      · rfl

theorem zero_notMem_escByte {k : Bool} {c : UInt8} (hc : c ≠ 0) : (0 : UInt8) ∉ escByte k c := by
  have digit : ∀ n : Fin 256, (0 : UInt8) ≠ hexDigit (UInt8.ofNat n >>> 4) ∧
      (0 : UInt8) ≠ hexDigit (UInt8.ofNat n &&& 15) := by decide +kernel
  have hd := digit ⟨c.toNat, c.toNat_lt⟩
  simp only [UInt8.ofNat_toNat] at hd
  rw [escByte]
  split
  · simpa using hc.symm
  · simp [hd.1, hd.2]

theorem zero_notMem_flatMap_escByte {k : Bool} {s : Bytes} (hs : (0 : UInt8) ∉ s) :
    (0 : UInt8) ∉ s.flatMap (escByte k) := by
  intro h
  obtain ⟨c, hc, h0⟩ := List.mem_flatMap.1 h
  exact zero_notMem_escByte (ne_of_mem_of_not_mem hc hs) h0

/-- The text of `EscInto` is the code of the bytes that fit. -/
theorem escInto_bytes (s : CStr) (max : Nat) (k : Bool) :
    (escInto s max k).bytes = ((escCode k).fitting max 0 s.bytes).flatMap (escByte k) := by
  have inside := (escCode k).fitting_isPrefix max 0 s.bytes
  have nulFree : (0 : UInt8) ∉ (escCode k).fitting max 0 s.bytes :=
    fun h => s.nulFree (inside.subset h)
  rw [escInto, escLoop_eq, cstr_bytes_of_nulFree (zero_notMem_flatMap_escByte nulFree)]

/-- What `EscInto` has written reads back as the bytes that fit. -/
theorem percentDecode_escInto (s : CStr) (max : Nat) (k : Bool) :
    percentDecode (escInto s max k).bytes = (escCode k).fitting max 0 s.bytes := by
  rw [escInto_bytes]
  exact (escCode k).decode_write _

theorem length_escInto_lt (s : CStr) {max : Nat} (k : Bool) (hmax : 1 ≤ max) :
    (escInto s max k).length < max := by
  have := (escCode k).length_fitting_lt max 0 s.bytes hmax
  rw [CStr.length, escInto_bytes]
  simpa [escCode] using this

/-- The escaped text is at most three times as long. -/
theorem length_escInto_le (s : CStr) (max : Nat) (k : Bool) :
    (escInto s max k).length ≤ 3 * s.length := by
  have code := (escCode k).length_write_le ((escCode k).fitting max 0 s.bytes)
  have part := ((escCode k).fitting_isPrefix max 0 s.bytes).length_le
  rw [CStr.length, escInto_bytes]
  refine Nat.le_trans code ?_
  exact Nat.mul_le_mul_left 3 part

/-- A text escaped with room for three bytes a byte reads back whole. -/
theorem percentDecode_escInto_of_room {s : CStr} {max : Nat} {k : Bool} (h : 3 * s.length < max) :
    percentDecode (escInto s max k).bytes = s.bytes := by
  rw [percentDecode_escInto]
  refine (escCode k).fitting_eq_self ?_
  rw [Nat.zero_add]
  exact h

/-! ## The search field -/

/-- The converter of `ToUTF8`: MacRoman to UTF-8, at most three bytes a byte. `convert` is
`TECConvertText` with a room for its output; it succeeds when the text fits. -/
structure Converter where
  utf8 : UInt8 → Bytes
  nonempty : ∀ c, utf8 c ≠ []
  expands : ∀ c, (utf8 c).length ≤ 3
  nulFree : ∀ c, c ≠ 0 → (0 : UInt8) ∉ utf8 c
  convert : Bytes → Nat → Option Bytes
  converts : ∀ mac room, (mac.flatMap utf8).length ≤ room → convert mac room = some (mac.flatMap utf8)

/-- `ToUTF8`: the converted text, or the text itself when there is no converter or it fails. -/
def toUTF8 (gConvOut : Option Converter) (mac : CStr) (dstmax : Nat) : CStr :=
  match gConvOut.bind fun c => c.convert mac.bytes (dstmax - 1) with
  | some dst => cstr dst
  | none => mac.fit dstmax

/-- `RunSearch`, on the MacRoman text of the search field. -/
def runSearchField (env : Env) (s : Globals) (gConvOut : Option Converter) (q : CStr) : Globals :=
  if q.bytes = [] then s else runSearch env s (toUTF8 gConvOut q 384)

/-- The UTF-8 text of a field, whatever its length. -/
def wholeQuery (gConvOut : Option Converter) (q : CStr) : Bytes :=
  match gConvOut with
  | some c => q.bytes.flatMap c.utf8
  | none => q.bytes

namespace Converter

variable (c : Converter)

theorem zero_notMem_flatMap {mac : Bytes} (h : (0 : UInt8) ∉ mac) :
    (0 : UInt8) ∉ mac.flatMap c.utf8 := by
  intro h0
  obtain ⟨b, hb, h0⟩ := List.mem_flatMap.1 h0
  exact c.nulFree b (ne_of_mem_of_not_mem hb h) h0

theorem flatMap_ne_nil {mac : Bytes} (h : mac ≠ []) : mac.flatMap c.utf8 ≠ [] := by
  obtain ⟨b, mac, rfl⟩ := List.exists_cons_of_ne_nil h
  rw [List.flatMap_cons]
  exact List.append_ne_nil_of_left_ne_nil (c.nonempty b) _

end Converter

/-- A field of 127 bytes is converted whole into 384. -/
theorem toUTF8_bytes (gConvOut : Option Converter) {q : CStr} (hq : q.length ≤ 127) :
    (toUTF8 gConvOut q 384).bytes = wholeQuery gConvOut q := by
  have short : q.bytes.length ≤ 127 := hq
  cases gConvOut with
  | none =>
      have fits : q.fit 384 = q := CStr.fit_eq_self (Nat.lt_of_le_of_lt hq (by decide))
      simp only [toUTF8, Option.bind_none, fits, wholeQuery]
  | some c =>
      have grows := length_flatMap_le c.expands q.bytes
      have room : (q.bytes.flatMap c.utf8).length ≤ 384 - 1 := by omega
      simp only [toUTF8, Option.bind_some, c.converts q.bytes (384 - 1) room, wholeQuery]
      exact cstr_bytes_of_nulFree (c.zero_notMem_flatMap q.nulFree)

theorem length_wholeQuery_le (gConvOut : Option Converter) {q : CStr} (hq : q.length ≤ 127) :
    (wholeQuery gConvOut q).length ≤ 381 := by
  have short : q.bytes.length ≤ 127 := hq
  cases gConvOut with
  | none =>
      rw [wholeQuery]
      omega
  | some c =>
      have grows := length_flatMap_le c.expands q.bytes
      rw [wholeQuery]
      omega

theorem toUTF8_ne_nil (gConvOut : Option Converter) {q : CStr} (hq : q.length ≤ 127)
    (hne : q.bytes ≠ []) : (toUTF8 gConvOut q 384).bytes ≠ [] := by
  rw [toUTF8_bytes gConvOut hq]
  cases gConvOut with
  | none => exact hne
  | some c => exact c.flatMap_ne_nil hne

/-- No buffer between the field and the wire cuts the search. -/
theorem searchSel_toUTF8 (gConvOut : Option Converter) {q : CStr} (hq : q.length ≤ 127) :
    ∃ arg : CStr, searchSel (toUTF8 gConvOut q 384) = CStr.lit "/spot/api/1/search?q=" ++ arg ∧
      percentDecode arg.bytes = wholeQuery gConvOut q := by
  set q8 := toUTF8 gConvOut q 384 with hq8
  have length8 : q8.length ≤ 381 := by
    rw [CStr.length, hq8, toUTF8_bytes gConvOut hq]
    exact length_wholeQuery_le gConvOut hq
  have fits8 : q8.fit 384 = q8 := CStr.fit_eq_self (by omega)
  have escaped := length_escInto_le q8 1160 false
  refine ⟨escInto q8 1160 false, ?_, ?_⟩
  · rw [searchSel, fits8]
    apply CStr.fit_eq_self
    have path : (CStr.lit "/spot/api/1/search?q=").bytes.length = 21 := by decide
    have : (escInto q8 1160 false).bytes.length = (escInto q8 1160 false).length := rfl
    rw [CStr.length, CStr.bytes_append, List.length_append]
    omega
  · rw [percentDecode_escInto_of_room (by omega), hq8]
    exact toUTF8_bytes gConvOut hq

/-- A search that is no repeat asks for its selector; a repeat changes nothing. -/
theorem runSearchField_gSearchTx (env : Env) (s : Globals) (gConvOut : Option Converter) {q : CStr}
    (hq : q.length ≤ 127) (hne : q.bytes ≠ []) :
    (isRepeat env s (searchSel (toUTF8 gConvOut q 384)) = true →
        runSearchField env s gConvOut q = s) ∧
      (isRepeat env s (searchSel (toUTF8 gConvOut q 384)) = false →
        (runSearchField env s gConvOut q).gSearchTx =
          cqTxNew env s (searchSel (toUTF8 gConvOut q 384))) := by
  have hne8 := toUTF8_ne_nil gConvOut hq hne
  rw [runSearchField, if_neg hne, runSearch, if_neg hne8]
  rcases actionRepeat_cases env s (searchSel (toUTF8 gConvOut q 384)) with ⟨again, h⟩ | ⟨fresh, h⟩
  · rw [searchSel] at h again ⊢
    simp only [h, again]
    simp
  · rw [searchSel] at h fresh ⊢
    simp only [h, fresh]
    simp [cqTxNew]

/-- **Escaping loses nothing and stays inside its buffer.** What `EscInto` writes is a sequence of
whole escapes with its terminator inside, which reads back as a beginning of the text, and as the
whole text when there is room for three bytes a byte; the selector of a search reads back as the
whole query. -/
theorem escInto_lossless :
    (∀ (s : CStr) (max : Nat) (keepColon : Bool), 1 ≤ max →
      (escInto s max keepColon).length + 1 ≤ max ∧
      (∃ t, t <+: s.bytes ∧
        (escInto s max keepColon).bytes = t.flatMap (escByte keepColon) ∧
        percentDecode (escInto s max keepColon).bytes = t) ∧
      (3 * s.length < max → percentDecode (escInto s max keepColon).bytes = s.bytes)) ∧
    (∀ (env : Env) (s : Globals) (gConvOut : Option Converter) (q : CStr), q.length ≤ 127 →
      q.bytes ≠ [] →
      ∃ arg : CStr, percentDecode arg.bytes = wholeQuery gConvOut q ∧
        (isRepeat env s (.lit "/spot/api/1/search?q=" ++ arg) = true →
          runSearchField env s gConvOut q = s) ∧
        (isRepeat env s (.lit "/spot/api/1/search?q=" ++ arg) = false →
          (runSearchField env s gConvOut q).gSearchTx =
            cqTxNew env s (.lit "/spot/api/1/search?q=" ++ arg))) := by
  constructor
  · intro s max keepColon hmax
    refine ⟨length_escInto_lt s keepColon hmax, ?_, percentDecode_escInto_of_room⟩
    exact ⟨(escCode keepColon).fitting max 0 s.bytes, (escCode keepColon).fitting_isPrefix max 0 _,
      escInto_bytes s max keepColon, percentDecode_escInto s max keepColon⟩
  · intro env s gConvOut q hq hne
    obtain ⟨arg, hsel, hread⟩ := searchSel_toUTF8 gConvOut hq
    have sends := runSearchField_gSearchTx env s gConvOut hq hne
    rw [hsel] at sends
    exact ⟨arg, hread, sends⟩

/-- MacRoman as far as a field with a cedilla and a tilde needs it. -/
def romanUtf8 (c : UInt8) : Bytes :=
  if c = 0x8D then [0xC3, 0xA7] else if c = 0x8B then [0xC3, 0xA3] else [c]

/-- The converter of such a field. -/
def romanConverter : Converter where
  utf8 := romanUtf8
  nonempty := by
    intro c
    rw [romanUtf8]
    split
    · simp
    · split <;> simp
  expands := by
    intro c
    rw [romanUtf8]
    split
    · simp
    · split <;> simp
  nulFree := by
    intro c hc
    rw [romanUtf8]
    split
    · decide
    · split
      · decide
      · simpa using hc.symm
  convert mac room :=
    if (mac.flatMap romanUtf8).length ≤ room then some (mac.flatMap romanUtf8) else none
  converts := fun _ _ room => if_pos room

/-- The MacRoman text of "Construção". -/
def construcao : CStr := cstr (ascii "Constru" ++ [0x8D, 0x8B] ++ ascii "o")

/-- An escape that would be cut is left out; a search text with a cedilla and a tilde leaves whole. -/
theorem escInto_lossless_construcao :
    (escInto (.lit "a b") 5 true).length + 1 ≤ 5 ∧
      (∃ t, t <+: (CStr.lit "a b").bytes ∧
        (escInto (.lit "a b") 5 true).bytes = t.flatMap (escByte true) ∧
        percentDecode (escInto (.lit "a b") 5 true).bytes = t) ∧
      percentDecode (escInto (.lit "a b") 10 true).bytes = (CStr.lit "a b").bytes ∧
      ∃ arg : CStr,
        percentDecode arg.bytes = ascii "Constru" ++ [0xC3, 0xA7, 0xC3, 0xA3] ++ ascii "o" ∧
        (runSearchField (worldAt 1000 .running) (launch (.lit "h") 70 false false)
            (some romanConverter) construcao).gSearchTx =
          some ⟨0, .lit "h", 70, .lit "/spot/api/1/search?q=" ++ arg⟩ := by
  have cut := escInto_lossless.1 (.lit "a b") 5 true (by decide)
  have whole := escInto_lossless.1 (.lit "a b") 10 true (by decide)
  obtain ⟨arg, hread, -, hsent⟩ :=
    escInto_lossless.2 (worldAt 1000 .running) (launch (.lit "h") 70 false false)
      (some romanConverter) construcao (by decide) (by decide)
  refine ⟨cut.1, cut.2.1, whole.2.2 (by decide), arg, ?_, hsent rfl⟩
  rw [hread]
  decide

end Casquinha.App
