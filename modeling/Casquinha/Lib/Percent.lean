import Casquinha.Lib.CString

/-!
# Percent escapes

`percentDecode` reads a text with percent escapes. A `PercentCode` writes each byte as a text of at
most three bytes that reads back as that byte, whatever follows it; a text written byte by byte reads
back as a whole (`PercentCode.decode_write`).

An encoder with a bounded output stops in front of the first byte for which a whole escape might not
fit. What it has written is the code of a beginning of the text (`PercentCode.fitting`), which is the
whole text exactly when the code of all but its last byte leaves room for one more escape
(`PercentCode.fitting_eq_self_iff`).
-/

set_option autoImplicit false

namespace Lib

/-- A text written with at most `n` bytes a byte is at most `n` times as long. -/
theorem length_flatMap_le {write : UInt8 → Bytes} {n : Nat} (h : ∀ c, (write c).length ≤ n)
    (s : Bytes) : (s.flatMap write).length ≤ n * s.length := by
  induction s with
  | nil => simp
  | cons c s ih =>
      have := h c
      rw [List.flatMap_cons, List.length_append, List.length_cons, Nat.mul_succ]
      omega

/-- The value of a hex digit. -/
def hexValue (c : UInt8) : Option UInt8 :=
  if 48 ≤ c ∧ c ≤ 57 then some (c - 48)
  else if 65 ≤ c ∧ c ≤ 70 then some (c - 55)
  else if 97 ≤ c ∧ c ≤ 102 then some (c - 87)
  else none

/-- The byte a percent sign and the two bytes after it stand for. -/
def escapeValue (c h l : UInt8) : Option UInt8 :=
  if c = 37 then
    match hexValue h, hexValue l with
    | some h, some l => some (h <<< 4 ||| l)
    | _, _ => none
  else none

/-- Percent-decoding. A percent sign without two hex digits after it stands for itself. -/
def percentDecode : Bytes → Bytes
  | [] => []
  | [c] => [c]
  | [c, d] => [c, d]
  | c :: h :: l :: rest =>
      match escapeValue c h l with
      | some b => b :: percentDecode rest
      | none => c :: percentDecode (h :: l :: rest)

/-- A byte that is no percent sign stands for itself. -/
theorem percentDecode_plain {c : UInt8} (hc : c ≠ 37) (rest : Bytes) :
    percentDecode (c :: rest) = c :: percentDecode rest := by
  match rest with
  | [] => rfl
  | [_] => rfl
  | h :: l :: rest =>
      have none_here : escapeValue c h l = none := if_neg hc
      rw [percentDecode, none_here]

theorem percentDecode_escape {h l b : UInt8} (hb : escapeValue 37 h l = some b) (rest : Bytes) :
    percentDecode (37 :: h :: l :: rest) = b :: percentDecode rest := by
  rw [percentDecode, hb]

/-- A code for bytes that percent-decoding reads. -/
structure PercentCode where
  write : UInt8 → Bytes
  reads : ∀ c rest, percentDecode (write c ++ rest) = c :: percentDecode rest
  short : ∀ c, (write c).length ≤ 3

namespace PercentCode

variable (e : PercentCode)

/-- A text written byte by byte reads back. -/
theorem decode_write (s : Bytes) : percentDecode (s.flatMap e.write) = s := by
  induction s with
  | nil => rfl
  | cons c s ih => rw [List.flatMap_cons, e.reads, ih]

theorem length_write_le (s : Bytes) : (s.flatMap e.write).length ≤ 3 * s.length :=
  length_flatMap_le e.short s

/-- No byte is written as nothing. -/
theorem length_pos (c : UInt8) : 0 < (e.write c).length := by
  refine List.length_pos_iff.2 fun empty => ?_
  have lost := e.reads c []
  rw [empty] at lost
  cases lost

theorem length_le_write (s : Bytes) : s.length ≤ (s.flatMap e.write).length := by
  induction s with
  | nil => simp
  | cons c s ih =>
      have := e.length_pos c
      rw [List.flatMap_cons, List.length_append, List.length_cons]
      omega

/-- The beginning of a text that an encoder writes from position `o` on, when it stops in front of
the first byte that leaves no room for an escape and a terminator. -/
def fitting (max : Nat) : Nat → Bytes → Bytes
  | _, [] => []
  | o, c :: s => if o + 3 < max then c :: fitting max (o + (e.write c).length) s else []

theorem fitting_isPrefix (max o : Nat) (s : Bytes) : e.fitting max o s <+: s := by
  induction s generalizing o with
  | nil => exact List.nil_prefix
  | cons c s ih =>
      rw [fitting]
      split
      · exact (List.cons_prefix_cons).2 ⟨rfl, ih _⟩
      · exact List.nil_prefix

/-- The terminator has its place behind what is written. -/
theorem length_fitting_lt (max o : Nat) (s : Bytes) (ho : o < max) :
    o + ((e.fitting max o s).flatMap e.write).length < max := by
  induction s generalizing o with
  | nil => simpa [fitting] using ho
  | cons c s ih =>
      rw [fitting]
      split
      · next room =>
          have := e.short c
          have := ih (o + (e.write c).length) (by omega)
          rw [List.flatMap_cons, List.length_append]
          omega
      · simpa using ho

/-- The text is written whole exactly when all but its last byte leave room for one more escape. -/
theorem fitting_eq_self_iff (max o : Nat) (s : Bytes) :
    e.fitting max o s = s ↔ s = [] ∨ o + (s.dropLast.flatMap e.write).length + 3 < max := by
  induction s generalizing o with
  | nil => simp [fitting]
  | cons c s ih =>
      rw [fitting]
      by_cases room : o + 3 < max
      · rw [if_pos room, List.cons.injEq, and_iff_right rfl, ih]
        cases s with
        | nil => simpa using room
        | cons d s =>
            rw [List.dropLast_cons_cons, List.flatMap_cons, List.length_append]
            simp only [reduceCtorEq, false_or]
            omega
      · rw [if_neg room]
        simp only [reduceCtorEq, false_or, false_iff]
        omega

/-- A text whose bytes would all fit as escapes is written whole. -/
theorem fitting_eq_self {max o : Nat} {s : Bytes} (h : o + 3 * s.length < max) :
    e.fitting max o s = s := by
  rw [fitting_eq_self_iff]
  cases s with
  | nil => exact .inl rfl
  | cons c s =>
      have := e.length_write_le (c :: s).dropLast
      rw [List.length_dropLast, List.length_cons] at this
      rw [List.length_cons] at h
      exact .inr (by omega)

end PercentCode

end Lib
