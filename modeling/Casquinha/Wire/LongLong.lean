import Casquinha.Wire.Now

/-!
# Numbers of the wire and the 64-bit range

`cq_parse_ll` is to read a number as `longLongValue` does, which answers a number outside the 64-bit range with
the end of the range on its side. The loop multiplies and adds without looking. As long as the digits denote
less than `2^63`, no step leaves the range and the result is the number; from `2^63` on, some step leaves it
(`readsExactly_iff`). The smallest number, `-2^63`, is among these: its digits are read before its sign is
applied.
-/

set_option autoImplicit false

namespace Casquinha.Wire

open Lib

/-- A value of `long long`. -/
def InLongLong (x : Int) : Prop := -2 ^ 63 ≤ x ∧ x < 2 ^ 63

instance (x : Int) : Decidable (InLongLong x) := inferInstanceAs (Decidable (_ ∧ _))

theorem bmod_of_inLongLong {x : Int} (h : InLongLong x) : x.bmod (2 ^ 64) = x := by
  obtain ⟨hlow, hhigh⟩ := h
  exact Int.bmod_eq_of_le (by norm_num; exact hlow) (by norm_num; exact hhigh)

theorem inLongLong_bmod (x : Int) : InLongLong (x.bmod (2 ^ 64)) := by
  have hlow := Int.le_bmod (x := x) (m := 2 ^ 64) (by decide)
  have hhigh := Int.bmod_lt (x := x) (m := 2 ^ 64) (by decide)
  constructor
  · simpa using hlow
  · simpa using hhigh

/-! ## What is read -/

/-- The sign of a text and its digits, behind white space. -/
def signedDigits (s : CStr) : Bool × Bytes :=
  match s.bytes.dropWhile isSpaceByte with
  | [] => (false, [])
  | c :: rest =>
      if c = 43 then (false, rest.takeWhile fun d => IsDigitByte d)
      else if c = 45 then (true, rest.takeWhile fun d => IsDigitByte d)
      else (false, (c :: rest).takeWhile fun d => IsDigitByte d)

/-- What the digits denote. -/
def digitsValue (s : CStr) : Nat := decValue 0 (signedDigits s).2

/-- `longLongValue`: the number, or the end of the range that it is beyond. -/
def longLongValue (s : CStr) : Int :=
  let value : Int := if (signedDigits s).1 then -digitsValue s else digitsValue s
  max (-2 ^ 63) (min (2 ^ 63 - 1) value)

/-! ## The loop -/

/-- No product and no sum of the loop leaves the range. -/
def DigitsFit (v : Int) : Bytes → Prop
  | [] => True
  | c :: s =>
      IsDigitByte c →
        InLongLong (v * 10) ∧ InLongLong (v * 10 + ((c.toNat : Int) - 48)) ∧
          DigitsFit (v * 10 + ((c.toNat : Int) - 48)) s

/-- Nothing that `cq_parse_ll` computes leaves the range. -/
def SumsFit (s : CStr) : Prop :=
  match s.bytes.dropWhile isSpaceByte with
  | [] => True
  | c :: rest =>
      if c = 43 then DigitsFit 0 rest
      else if c = 45 then DigitsFit 0 rest ∧ InLongLong (-(parseDigits 0 rest))
      else DigitsFit 0 (c :: rest)

theorem le_decValue (v : Nat) (b : Bytes) : v ≤ decValue v b := by
  induction b generalizing v with
  | nil => exact Nat.le_refl v
  | cons c b ih =>
      have hrest := ih (v * 10 + (c.toNat - 48))
      show v ≤ decValue (v * 10 + (c.toNat - 48)) b
      omega

/-- A digit is worth what its byte is above `'0'`. -/
theorem digit_cast {c : UInt8} (h : IsDigitByte c) : ((c.toNat : Int) - 48) = (c.toNat - 48 : Nat) := by
  have hge : 48 ≤ c.toNat := h.1
  omega

/-- **The loop stays in range** exactly if what it has read and what it will read denote less than `2^63`. -/
theorem digitsFit_iff {v : Nat} (hv : v < 2 ^ 63) (s : Bytes) :
    DigitsFit v s ↔ decValue v (s.takeWhile fun d => IsDigitByte d) < 2 ^ 63 := by
  induction s generalizing v with
  | nil => simpa [DigitsFit, decValue] using hv
  | cons c s ih =>
      by_cases hc : IsDigitByte c
      · rw [DigitsFit, List.takeWhile_cons, if_pos (decide_eq_true hc), digit_cast hc]
        show _ ↔ decValue (v * 10 + (c.toNat - 48)) (s.takeWhile fun d => IsDigitByte d) < 2 ^ 63
        have hcast : ((v : Int) * 10 + (c.toNat - 48 : Nat)) = (v * 10 + (c.toNat - 48) : Nat) := by
          push_cast
          rfl
        rw [hcast]
        constructor
        · intro h
          obtain ⟨-, hsum, hrest⟩ := h hc
          have hlt : v * 10 + (c.toNat - 48) < 2 ^ 63 := by exact_mod_cast hsum.2
          exact (ih hlt).1 hrest
        · intro h _
          -- the value only grows from here on
          have hlt := lt_of_le_of_lt (le_decValue _ _) h
          refine ⟨⟨by omega, by omega⟩, ⟨by omega, by exact_mod_cast hlt⟩, (ih hlt).2 h⟩
      · rw [DigitsFit, List.takeWhile_cons, if_neg (by simpa using hc)]
        simp only [hc, false_imp_iff, true_iff]
        exact hv

/-- In range the loop computes the value of the digits. -/
theorem parseDigits_takeWhile {v : Nat} (hv : v < 2 ^ 63) {s : Bytes} (h : DigitsFit v s) :
    parseDigits v s = decValue v (s.takeWhile fun d => IsDigitByte d) := by
  induction s generalizing v with
  | nil => rfl
  | cons c s ih =>
      rw [parseDigits, List.takeWhile_cons]
      by_cases hc : IsDigitByte c
      · obtain ⟨-, hsum, hrest⟩ := h hc
        rw [if_pos hc, if_pos (decide_eq_true hc), bmod_of_inLongLong hsum]
        rw [digit_cast hc] at hsum hrest ⊢
        have hcast : ((v : Int) * 10 + (c.toNat - 48 : Nat)) = (v * 10 + (c.toNat - 48) : Nat) := by
          push_cast
          rfl
        rw [hcast] at hsum hrest ⊢
        exact ih (by exact_mod_cast hsum.2) hrest
      · rw [if_neg hc, if_neg (by simpa using hc)]
        rfl

/-- Every number that is read is a `long long`. -/
theorem inLongLong_parseDigits {v : Int} (hv : InLongLong v) (s : Bytes) : InLongLong (parseDigits v s) := by
  induction s generalizing v with
  | nil => exact hv
  | cons c s ih =>
      rw [parseDigits]
      split
      · exact ih (inLongLong_bmod _)
      · exact hv

theorem inLongLong_cqParseLl (s : Option CStr) : InLongLong (cqParseLl s) := by
  have hzero : InLongLong 0 := by decide
  cases s with
  | none => exact hzero
  | some s =>
      rw [cqParseLl]
      split
      · exact hzero
      · split
        · exact inLongLong_parseDigits hzero _
        · split
          · exact inLongLong_bmod _
          · exact inLongLong_parseDigits hzero _

/-! ## The whole text -/

/-- `cq_parse_ll` answers as `longLongValue` does, and nothing leaves the range on the way. -/
def ReadsExactly (s : CStr) : Prop := cqParseLl (some s) = longLongValue s ∧ SumsFit s

/-- The end of the range is not reached by numbers below it. -/
theorem clamp_eq {x : Int} (h : InLongLong x) : max (-2 ^ 63) (min (2 ^ 63 - 1) x) = x := by
  obtain ⟨hlow, hhigh⟩ := h
  omega

theorem inLongLong_natCast {n : Nat} (h : n < 2 ^ 63) : InLongLong n ∧ InLongLong (-(n : Int)) := by
  refine ⟨⟨?_, ?_⟩, ?_, ?_⟩ <;> omega

/-- **A number is read exactly** if and only if its digits denote less than `2^63`. -/
theorem readsExactly_iff (s : CStr) : ReadsExactly s ↔ digitsValue s < 2 ^ 63 := by
  rw [ReadsExactly, longLongValue, digitsValue, cqParseLl, SumsFit, signedDigits]
  cases s.bytes.dropWhile isSpaceByte with
  | nil => simp [decValue]
  | cons c rest =>
      have hfit := fun t => @digitsFit_iff 0 (by decide) t
      have hread := fun t => @parseDigits_takeWhile 0 (by decide) t
      simp only [Nat.cast_zero] at hfit hread
      dsimp only
      by_cases hplus : c = 43
      · simp only [if_pos hplus, Bool.false_eq_true, if_false]
        rw [hfit]
        constructor
        · exact fun h => h.2
        · intro h
          rw [hread rest ((hfit rest).2 h), clamp_eq (inLongLong_natCast h).1]
          exact ⟨rfl, h⟩
      · by_cases hminus : c = 45
        · simp only [if_neg hplus, if_pos hminus, if_true]
          rw [hfit]
          constructor
          · exact fun h => h.2.1
          · intro h
            have hneg := (inLongLong_natCast h).2
            rw [hread rest ((hfit rest).2 h), clamp_eq hneg, bmod_of_inLongLong hneg]
            exact ⟨rfl, h, hneg⟩
        · simp only [if_neg hplus, if_neg hminus, Bool.false_eq_true, if_false]
          rw [hfit]
          constructor
          · exact fun h => h.2
          · intro h
            rw [hread (c :: rest) ((hfit (c :: rest)).2 h), clamp_eq (inLongLong_natCast h).1]
            exact ⟨rfl, h⟩

end Casquinha.Wire
