import Mathlib.Data.List.Basic
import Mathlib.Data.Nat.Bits
import Mathlib.Tactic.Ring

/-!
# Bit strings

A bit string is a list of booleans, most significant bit first. `msbBits n v` writes the `n` low bits of a
number, `ofBits` reads a number back, and `bitsOf` is the bit string of a byte buffer. A field of a packed
format is a span of `bitsOf`, taken out by `drop` and `take` (`field`).

Reading undoes writing (`ofBits_msbBits`), a number is read from its parts (`ofBits_append`), and eight bits
of the string are a byte of the buffer (`drop_bitsOf`).
-/

set_option autoImplicit false

namespace Lib

/-- The `n` low bits of a number. -/
def msbBits : Nat → Nat → List Bool
  | 0, _ => []
  | n + 1, v => v.testBit n :: msbBits n v

/-- The number that a bit string writes. -/
def ofBits (bs : List Bool) : Nat := bs.foldl (fun acc b => 2 * acc + b.toNat) 0

/-- The bits of a byte buffer. -/
def bitsOf (data : List UInt8) : List Bool := data.flatMap fun b => msbBits 8 b.toNat

/-- The number in the `n` bits from `pos` on. -/
def field (bits : List Bool) (pos n : Nat) : Nat := ofBits ((bits.drop pos).take n)

/-! ## Numbers -/

@[simp] theorem length_msbBits (n v : Nat) : (msbBits n v).length = n := by
  induction n with
  | zero => rfl
  | succ n ih => rw [msbBits, List.length_cons, ih]

@[simp] theorem ofBits_nil : ofBits [] = 0 := rfl

theorem foldl_ofBits (bs : List Bool) (acc : Nat) :
    bs.foldl (fun acc b => 2 * acc + b.toNat) acc = acc * 2 ^ bs.length + ofBits bs := by
  induction bs generalizing acc with
  | nil => simp
  | cons b bs ih =>
      have hhead : ofBits (b :: bs) = (2 * 0 + b.toNat) * 2 ^ bs.length + ofBits bs := ih (2 * 0 + b.toNat)
      rw [List.foldl_cons, ih, hhead, List.length_cons, pow_succ]
      ring

theorem ofBits_cons (b : Bool) (bs : List Bool) :
    ofBits (b :: bs) = b.toNat * 2 ^ bs.length + ofBits bs := by
  rw [ofBits, List.foldl_cons, foldl_ofBits]
  simp

/-- The front part counts for as much as the back part is long. -/
theorem ofBits_append (as bs : List Bool) :
    ofBits (as ++ bs) = ofBits as * 2 ^ bs.length + ofBits bs := by
  rw [ofBits, List.foldl_append, foldl_ofBits]
  rfl

theorem ofBits_lt (bs : List Bool) : ofBits bs < 2 ^ bs.length := by
  induction bs with
  | nil => decide
  | cons b bs ih =>
      have hb : b.toNat ≤ 1 := Bool.toNat_le b
      have hle : b.toNat * 2 ^ bs.length ≤ 1 * 2 ^ bs.length := Nat.mul_le_mul_right _ hb
      rw [ofBits_cons, List.length_cons, pow_succ]
      omega

theorem ofBits_replicate_false (n : Nat) : ofBits (List.replicate n false) = 0 := by
  induction n with
  | zero => rfl
  | succ n ih => rw [List.replicate_succ, ofBits_cons, ih, Bool.toNat_false, Nat.zero_mul]

/-- **Reading undoes writing**, up to the bits that do not fit. -/
theorem ofBits_msbBits_mod (n v : Nat) : ofBits (msbBits n v) = v % 2 ^ n := by
  induction n with
  | zero => rw [msbBits, ofBits_nil, pow_zero, Nat.mod_one]
  | succ n ih =>
      rw [msbBits, ofBits_cons, length_msbBits, ih, Nat.mod_pow_succ, Nat.toNat_testBit, Nat.mul_comm]
      exact Nat.add_comm _ _

theorem ofBits_msbBits {n v : Nat} (h : v < 2 ^ n) : ofBits (msbBits n v) = v := by
  rw [ofBits_msbBits_mod, Nat.mod_eq_of_lt h]

/-- The front bits of a number are the bits of its quotient. -/
theorem take_msbBits {n k : Nat} (h : k ≤ n) (v : Nat) :
    (msbBits n v).take k = msbBits k (v / 2 ^ (n - k)) := by
  induction n generalizing k with
  | zero =>
      obtain rfl : k = 0 := Nat.le_zero.1 h
      rfl
  | succ n ih =>
      cases k with
      | zero => rfl
      | succ k =>
          rw [msbBits, List.take_succ_cons, ih (Nat.le_of_succ_le_succ h), msbBits,
            Nat.add_sub_add_right, Nat.testBit_div_two_pow, Nat.add_sub_of_le (Nat.le_of_succ_le_succ h)]

/-- More bits than a number has. -/
theorem take_msbBits_append (n k v : Nat) (bs : List Bool) :
    (msbBits n v ++ bs).take (n + k) = msbBits n v ++ bs.take k := by
  rw [List.take_append, length_msbBits, Nat.add_sub_cancel_left,
    List.take_of_length_le (by rw [length_msbBits]; exact Nat.le_add_right n k)]

/-- The bits behind the front ones do not depend on them. -/
theorem drop_msbBits {n k : Nat} (h : k ≤ n) (v : Nat) : (msbBits n v).drop k = msbBits (n - k) v := by
  induction n generalizing k with
  | zero =>
      obtain rfl : k = 0 := Nat.le_zero.1 h
      rfl
  | succ n ih =>
      cases k with
      | zero => rfl
      | succ k =>
          rw [msbBits, List.drop_succ_cons, ih (Nat.le_of_succ_le_succ h), Nat.add_sub_add_right]

/-- A low part that holds all of them has the same low bits. -/
theorem msbBits_mod_of_le {n k : Nat} (h : n ≤ k) (v : Nat) : msbBits n (v % 2 ^ k) = msbBits n v := by
  induction n with
  | zero => rfl
  | succ n ih =>
      rw [msbBits, ih (Nat.le_of_succ_le h), msbBits, Nat.testBit_mod_two_pow, decide_eq_true (Nat.lt_of_succ_le h),
        Bool.true_and]

/-- Masking clears the bits in front. -/
theorem msbBits_mod {n k : Nat} (h : k ≤ n) (v : Nat) :
    msbBits n (v % 2 ^ k) = List.replicate (n - k) false ++ msbBits k v := by
  induction n with
  | zero =>
      obtain rfl : k = 0 := Nat.le_zero.1 h
      rfl
  | succ n ih =>
      rcases Nat.lt_or_ge n k with hlt | hge
      · obtain rfl : k = n + 1 := Nat.le_antisymm h hlt
        rw [Nat.sub_self, msbBits_mod_of_le (Nat.le_refl _)]
        rfl
      · rw [msbBits, ih hge, Nat.testBit_mod_two_pow, decide_eq_false (Nat.not_lt.2 hge), Bool.false_and,
          Nat.succ_sub hge, List.replicate_succ]
        rfl

/-- **Writing undoes reading.** -/
theorem msbBits_ofBits (bs : List Bool) : msbBits bs.length (ofBits bs) = bs := by
  induction bs with
  | nil => rfl
  | cons b bs ih =>
      have hlt := ofBits_lt bs
      have hhead : (ofBits (b :: bs)).testBit bs.length = b := by
        rw [ofBits_cons, Nat.testBit_eq_decide_div_mod_eq, Nat.mul_comm,
          Nat.mul_add_div (Nat.two_pow_pos _), Nat.div_eq_of_lt hlt]
        cases b <;> rfl
      have htail : msbBits bs.length (ofBits (b :: bs)) = msbBits bs.length (ofBits bs) := by
        rw [← msbBits_mod_of_le (Nat.le_refl _), ofBits_cons, Nat.mul_comm, Nat.mul_add_mod, Nat.mod_eq_of_lt hlt]
      rw [List.length_cons, msbBits, hhead, htail, ih]

/-- A long number is its front part and its back part. -/
theorem msbBits_add (m n v : Nat) : msbBits (m + n) v = msbBits m (v / 2 ^ n) ++ msbBits n (v % 2 ^ n) := by
  have htake := take_msbBits (Nat.le_add_right m n) v
  have hdrop := drop_msbBits (Nat.le_add_right m n) v
  rw [Nat.add_sub_cancel_left] at htake hdrop
  rw [msbBits_mod_of_le (Nat.le_refl n), ← htake, ← hdrop, List.take_append_drop]

/-- Two numbers in one. -/
theorem pack_div {n b : Nat} (hb : b < 2 ^ n) (a : Nat) : (a * 2 ^ n + b) / 2 ^ n = a := by
  rw [Nat.mul_comm, Nat.mul_add_div (Nat.two_pow_pos _), Nat.div_eq_of_lt hb, Nat.add_zero]

theorem msbBits_pack {n b : Nat} (hb : b < 2 ^ n) (m a : Nat) :
    msbBits (m + n) (a * 2 ^ n + b) = msbBits m a ++ msbBits n b := by
  rw [msbBits_add, pack_div hb, Nat.mul_comm, Nat.mul_add_mod, Nat.mod_eq_of_lt hb]

theorem pack_lt {m n a b : Nat} (ha : a < 2 ^ m) (hb : b < 2 ^ n) : a * 2 ^ n + b < 2 ^ (m + n) := by
  have hle : (a + 1) * 2 ^ n ≤ 2 ^ m * 2 ^ n := Nat.mul_le_mul_right _ ha
  rw [Nat.succ_mul] at hle
  rw [pow_add]
  omega

/-! ## Buffers -/

@[simp] theorem bitsOf_nil : bitsOf [] = [] := rfl

theorem bitsOf_cons (b : UInt8) (data : List UInt8) :
    bitsOf (b :: data) = msbBits 8 b.toNat ++ bitsOf data := by
  rw [bitsOf, List.flatMap_cons, bitsOf]

theorem bitsOf_append (data more : List UInt8) : bitsOf (data ++ more) = bitsOf data ++ bitsOf more :=
  List.flatMap_append

@[simp] theorem length_bitsOf (data : List UInt8) : (bitsOf data).length = 8 * data.length := by
  induction data with
  | nil => rfl
  | cons b data ih =>
      rw [bitsOf_cons, List.length_append, length_msbBits, ih, List.length_cons]
      omega

/-- Eight bits are a byte. -/
theorem drop_bitsOf (data : List UInt8) (k : Nat) : (bitsOf data).drop (8 * k) = bitsOf (data.drop k) := by
  induction k generalizing data with
  | zero => rfl
  | succ k ih =>
      cases data with
      | nil => simp
      | cons b data =>
          rw [bitsOf_cons, List.drop_succ_cons, ← ih data, Nat.mul_succ, Nat.add_comm (8 * k),
            ← List.drop_drop, List.drop_left' (length_msbBits 8 b.toNat)]

/-- The bits from a position inside a byte on. -/
theorem drop_bitsOf_byte {data : List UInt8} {b : UInt8} {rest : List UInt8} {pos : Nat}
    (h : data.drop (pos / 8) = b :: rest) :
    (bitsOf data).drop pos = msbBits (8 - pos % 8) b.toNat ++ bitsOf rest := by
  have hpos : 8 * (pos / 8) + pos % 8 = pos := Nat.div_add_mod pos 8
  have hlt : pos % 8 ≤ 8 := Nat.le_of_lt (Nat.mod_lt _ (by decide))
  rw [← hpos, ← List.drop_drop, drop_bitsOf, hpos, h, bitsOf_cons,
    List.drop_append_of_le_length (by rwa [length_msbBits]), drop_msbBits hlt]

/-! ## Fields -/

theorem field_lt (bits : List Bool) (pos n : Nat) : field bits pos n < 2 ^ n := by
  have hle : ((bits.drop pos).take n).length ≤ n := by
    rw [List.length_take]
    exact Nat.min_le_left _ _
  exact Nat.lt_of_lt_of_le (ofBits_lt _) (Nat.pow_le_pow_right (by decide) hle)

/-- A field in front of the end of a buffer is that of the longer buffer. -/
theorem field_append {bits more : List Bool} {pos n : Nat} (h : pos + n ≤ bits.length) :
    field (bits ++ more) pos n = field bits pos n := by
  rw [field, field, List.drop_append_of_le_length (by omega),
    List.take_append_of_le_length (by rw [List.length_drop]; omega)]

end Lib
