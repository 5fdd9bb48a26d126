import Mathlib.Data.List.TakeWhile
import Mathlib.Tactic.Linarith

/-!
# C strings and decimal text

Byte buffers, NUL-terminated strings and the decimal digits `%lu` prints. A `CStr` holds the bytes
before the terminator and carries the proof that none of them is NUL; `cstr` is the C view of a
buffer, which ends at its first NUL.

The digits of a natural number are read back by a left fold (`decValue_decimal`), so the decimal
text of a number is injective and contains digits only.
-/

set_option autoImplicit false

namespace Lib

/-- A byte buffer. -/
abbrev Bytes := List UInt8

/-- The bytes of an ASCII literal. -/
def ascii (s : String) : Bytes := s.toList.map fun c => UInt8.ofNat c.toNat

/-- A NUL-terminated string: the bytes before the terminator. -/
structure CStr where
  bytes : Bytes
  nulFree : (0 : UInt8) ∉ bytes
deriving DecidableEq

theorem CStr.ext' {s t : CStr} (h : s.bytes = t.bytes) : s = t := by
  cases s
  cases t
  cases h
  rfl

theorem CStr.bytes_inj {s t : CStr} : s.bytes = t.bytes ↔ s = t :=
  ⟨CStr.ext', fun h => h ▸ rfl⟩

theorem zero_notMem_takeWhile (b : Bytes) : (0 : UInt8) ∉ b.takeWhile (· ≠ 0) := by
  intro h
  simpa using List.mem_takeWhile_imp h

/-- The C view of a buffer: its bytes up to the first NUL. -/
def cstr (b : Bytes) : CStr := ⟨b.takeWhile (· ≠ 0), zero_notMem_takeWhile b⟩

theorem cstr_bytes_of_nulFree {b : Bytes} (h : (0 : UInt8) ∉ b) : (cstr b).bytes = b := by
  refine List.takeWhile_eq_self_iff.2 fun x hx => ?_
  simpa using ne_of_mem_of_not_mem hx h

@[simp] theorem cstr_bytes (s : CStr) : cstr s.bytes = s :=
  CStr.ext' (cstr_bytes_of_nulFree s.nulFree)

namespace CStr

/-- A string literal. -/
def lit (s : String) : CStr := cstr (ascii s)

/-- The empty string. -/
def empty : CStr := ⟨[], List.not_mem_nil⟩

instance : Inhabited CStr := ⟨empty⟩

/-- `strlen`. -/
def length (s : CStr) : Nat := s.bytes.length

/-- Concatenation. -/
def append (s t : CStr) : CStr :=
  ⟨s.bytes ++ t.bytes, by simp [s.nulFree, t.nulFree]⟩

instance : Append CStr := ⟨append⟩

@[simp] theorem bytes_append (s t : CStr) : (s ++ t).bytes = s.bytes ++ t.bytes := rfl

/-- The text that fits in a buffer of `size` bytes with its terminator, as `snprintf` and a
terminated `strncpy` leave it. -/
def fit (size : Nat) (s : CStr) : CStr :=
  ⟨s.bytes.take (size - 1), fun h => s.nulFree (List.mem_of_mem_take h)⟩

theorem fit_eq_self {size : Nat} {s : CStr} (h : s.length < size) : s.fit size = s :=
  ext' (List.take_of_length_le (show s.bytes.length ≤ size - 1 by
    have : s.bytes.length < size := h
    omega))

end CStr

/-! ## Decimal text -/

/-- Byte of a decimal digit. -/
def IsDigitByte (c : UInt8) : Prop := 48 ≤ c ∧ c ≤ 57

instance (c : UInt8) : Decidable (IsDigitByte c) := inferInstanceAs (Decidable (_ ∧ _))

/-- The bytes `%lu` prints. -/
def decimalBytes (n : Nat) : Bytes := (Nat.toDigits 10 n).map fun c => UInt8.ofNat c.toNat

/-- Value of a digit string read from the left, starting from `acc`. -/
def decValue (acc : Nat) (b : Bytes) : Nat := b.foldl (fun v c => v * 10 + (c.toNat - 48)) acc

theorem isDigitByte_ofChar {c : Char} (h : c.isDigit = true) : IsDigitByte (UInt8.ofNat c.toNat) := by
  simp only [Char.isDigit, Bool.and_eq_true, decide_eq_true_eq] at h
  have h1 : 48 ≤ c.toNat := h.1
  have h2 : c.toNat ≤ 57 := h.2
  constructor
  · rw [UInt8.le_iff_toNat_le, UInt8.toNat_ofNat_of_lt' (by simp [UInt8.size]; omega)]
    exact h1
  · rw [UInt8.le_iff_toNat_le, UInt8.toNat_ofNat_of_lt' (by simp [UInt8.size]; omega)]
    exact h2

theorem isDigitByte_of_mem_decimalBytes {n : Nat} {c : UInt8} (h : c ∈ decimalBytes n) :
    IsDigitByte c := by
  obtain ⟨d, hd, rfl⟩ := List.mem_map.1 h
  exact isDigitByte_ofChar (Nat.isDigit_of_mem_toDigits (by decide) (by decide) hd)

theorem decimalBytes_ne_nil (n : Nat) : decimalBytes n ≠ [] := by
  simp [decimalBytes, Nat.toDigits_ne_nil]

/-- The digits of a number read back as that number. -/
theorem decValue_decimalBytes (n : Nat) : decValue 0 (decimalBytes n) = n := by
  have key : ∀ (l : List Char), (∀ c ∈ l, c.isDigit = true) → ∀ acc,
      decValue acc (l.map fun c => UInt8.ofNat c.toNat) = Nat.ofDigitChars 10 l acc := by
    intro l
    induction l with
    | nil => intro _ acc; rfl
    | cons c l ih =>
        intro hl acc
        have hc : c.isDigit = true := hl c List.mem_cons_self
        have hlt : c.toNat < UInt8.size := by
          simp only [Char.isDigit, Bool.and_eq_true, decide_eq_true_eq] at hc
          have h2 : c.toNat ≤ 57 := hc.2
          simp only [UInt8.size]
          omega
        rw [List.map_cons, Nat.ofDigitChars_cons, ← ih fun d hd => hl d (List.mem_cons_of_mem _ hd)]
        show decValue (acc * 10 + ((UInt8.ofNat c.toNat).toNat - 48)) _ = _
        rw [UInt8.toNat_ofNat_of_lt' hlt, Nat.mul_comm]
        rfl
  rw [decimalBytes, key _ fun c hc => Nat.isDigit_of_mem_toDigits (by decide) (by decide) hc]
  exact Nat.ofDigitChars_ten_toDigits

theorem decimalBytes_inj {m n : Nat} : decimalBytes m = decimalBytes n ↔ m = n := by
  constructor
  · intro h
    rw [← decValue_decimalBytes m, h, decValue_decimalBytes]
  · intro h
    exact h ▸ rfl

theorem notMem_decimalBytes {c : UInt8} (h : ¬ IsDigitByte c) (n : Nat) : c ∉ decimalBytes n :=
  fun hc => h (isDigitByte_of_mem_decimalBytes hc)

/-- The decimal text of `n`. -/
def decimal (n : Nat) : CStr := ⟨decimalBytes n, notMem_decimalBytes (by decide) n⟩

@[simp] theorem bytes_decimal (n : Nat) : (decimal n).bytes = decimalBytes n := rfl

/-- A 64-bit number prints at most twenty digits. -/
theorem length_decimalBytes_le {n : Nat} (h : n < 2 ^ 64) : (decimalBytes n).length ≤ 20 := by
  rw [decimalBytes, List.length_map, Nat.length_toDigits_le_iff (by decide) (by decide)]
  omega

end Lib
