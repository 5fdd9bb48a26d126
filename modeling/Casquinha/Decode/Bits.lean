import Casquinha.Lib.BitString
import Casquinha.Lib.CString

/-!
# The bit reader of the decoder (`src/minimp3.h`)

`getBits` collects a number from the bytes it lies in, first byte masked, last byte shifted. It moves on by
`n` bits whether they are there or not; past the limit it answers 0.

In front of the limit the number is that of the bit string of the buffer (`getBits_eq`), so a run of reads is
a list of fields at fixed positions, and no byte behind the limit is looked at (`getBits_append`).
-/

set_option autoImplicit false

namespace Casquinha.Decode

open Lib

/-- `bs_t`. -/
structure Bs where
  buf : Bytes
  pos : Nat
  limit : Int
deriving DecidableEq

/-- `bs_init`. -/
def bsInit (data : Bytes) (bytes : Int) : Bs :=
  { buf := data
    pos := 0
    limit := bytes * 8 }

/-- The byte at an index. -/
def byteAt (buf : Bytes) (i : Nat) : Nat := (buf.getD i 0).toNat

/-- `while ((shl -= 8) > 0)` of `get_bits`, and the answer behind it. `shl` is the value before the
decrement, and `p` stands behind `next`. -/
def getBitsLoop (buf : Bytes) : Nat → Nat → Nat → Nat → Nat → Nat
  | 0, _, _, _, cache => cache
  | fuel + 1, p, shl, next, cache =>
      if 8 < shl then
        getBitsLoop buf fuel (p + 1) (shl - 8) (byteAt buf p) (cache ||| (next <<< (shl - 8)) % 2 ^ 32)
      else cache ||| next >>> (8 - shl)

/-- `get_bits`. -/
def getBits (bs : Bs) (n : Nat) : Nat × Bs :=
  let s := bs.pos &&& 7
  let p := bs.pos >>> 3
  let bs' := { bs with pos := bs.pos + n }
  if bs.limit < bs'.pos then (0, bs')
  else (getBitsLoop bs.buf (n + s + 1) (p + 1) (n + s) (byteAt bs.buf p &&& 255 >>> s) 0, bs')

/-! ## What a read does -/

@[simp] theorem getBits_snd (bs : Bs) (n : Nat) : (getBits bs n).2 = { bs with pos := bs.pos + n } := by
  simp only [getBits]
  split <;> rfl

theorem getBits_past {bs : Bs} {n : Nat} (h : bs.limit < ↑(bs.pos + n)) : (getBits bs n).1 = 0 := by
  simp only [getBits, if_pos h]

theorem byteAt_lt (buf : Bytes) (i : Nat) : byteAt buf i < 256 := UInt8.toNat_lt _

theorem drop_of_lt (buf : Bytes) {i : Nat} (h : i < buf.length) :
    ∃ b, buf.drop i = b :: buf.drop (i + 1) ∧ byteAt buf i = b.toNat := by
  refine ⟨buf[i], List.drop_eq_getElem_cons h, ?_⟩
  rw [byteAt, List.getD_eq_getElem?_getD, List.getElem?_eq_getElem h, Option.getD_some]

/-- A multiple of a power of two and a smaller number have no bit in common. -/
theorem or_of_dvd {a b k : Nat} (ha : 2 ^ k ∣ a) (hb : b < 2 ^ k) : a ||| b = a + b := by
  obtain ⟨q, rfl⟩ := ha
  exact (Nat.two_pow_add_eq_or_of_lt hb q).symm

/-- **The loop** reads `shl` bits, of which eight are in `next` and the others from `p` on. -/
theorem getBitsLoop_eq (buf : Bytes) :
    ∀ (fuel p shl next cache : Nat), shl < fuel → 0 < shl → shl ≤ 32 → next < 256 → 2 ^ shl ∣ cache →
      8 * p + shl ≤ 8 * buf.length + 8 →
      getBitsLoop buf fuel p shl next cache =
        cache + ofBits ((msbBits 8 next ++ bitsOf (buf.drop p)).take shl) := by
  intro fuel
  induction fuel with
  | zero => exact fun _ _ _ _ hf => absurd hf (Nat.not_lt_zero _)
  | succ fuel ih =>
      intro p shl next cache hf hpos hle hnext hdvd hfits
      rw [getBitsLoop]
      split
      · next hmore =>
        -- eight bits go to the cache, the others are read from the next byte on
        obtain ⟨k, rfl⟩ : ∃ k, shl = k + 8 := ⟨shl - 8, by omega⟩
        obtain ⟨b, hdrop, hbyte⟩ := drop_of_lt buf (i := p) (by omega)
        have hshift : next * 2 ^ k < 2 ^ (k + 8) := by
          rw [pow_add, Nat.mul_comm]
          exact Nat.mul_lt_mul_of_pos_left hnext (Nat.two_pow_pos k)
        have hword : next * 2 ^ k < 2 ^ 32 :=
          Nat.lt_of_lt_of_le hshift (Nat.pow_le_pow_right (by decide) hle)
        have hcache : cache ||| (next <<< (k + 8 - 8)) % 2 ^ 32 = cache + next * 2 ^ k := by
          rw [Nat.add_sub_cancel, Nat.shiftLeft_eq, Nat.mod_eq_of_lt hword, or_of_dvd hdvd hshift]
        have hdvd' : 2 ^ k ∣ cache + next * 2 ^ k :=
          Nat.dvd_add ((Nat.pow_dvd_pow 2 (Nat.le_add_right k 8)).trans hdvd) (Nat.dvd_mul_left _ _)
        rw [hcache, Nat.add_sub_cancel, ih _ _ _ _ (by omega) (by omega) (by omega) (byteAt_lt buf p) hdvd'
          (by omega), hbyte, ← bitsOf_cons, ← hdrop, Nat.add_comm k 8, take_msbBits_append, ofBits_append,
          ofBits_msbBits hnext, List.length_take, length_bitsOf, List.length_drop,
          Nat.min_eq_left (by omega), Nat.add_assoc]
      · next hlast =>
        -- the last byte counts with its front bits
        have hlt : next / 2 ^ (8 - shl) < 2 ^ shl := by
          rw [Nat.div_lt_iff_lt_mul (Nat.two_pow_pos _), ← pow_add, Nat.add_sub_of_le (by omega)]
          exact hnext
        rw [Nat.shiftRight_eq_div_pow, or_of_dvd hdvd hlt,
          List.take_append_of_le_length (by rw [length_msbBits]; omega), take_msbBits (by omega),
          ofBits_msbBits hlt]

/-- **A read in front of the limit** answers with the field of the bit string. -/
theorem getBits_eq {bs : Bs} {n : Nat} (hn : 0 < n) (hle : n ≤ 25) (hlimit : (↑(bs.pos + n) : Int) ≤ bs.limit)
    (hbuf : bs.limit ≤ 8 * bs.buf.length) : (getBits bs n).1 = field (bitsOf bs.buf) bs.pos n := by
  have hand : bs.pos &&& 7 = bs.pos % 8 := Nat.and_two_pow_sub_one_eq_mod bs.pos 3
  have hshift : bs.pos >>> 3 = bs.pos / 8 := Nat.shiftRight_eq_div_pow bs.pos 3
  have hdiv : 8 * (bs.pos / 8) + bs.pos % 8 = bs.pos := Nat.div_add_mod bs.pos 8
  have hmod : bs.pos % 8 < 8 := Nat.mod_lt _ (by decide)
  obtain ⟨b, hdrop, hbyte⟩ := drop_of_lt bs.buf (i := bs.pos / 8) (by omega)
  -- the mask clears the bits in front of the position
  have hmask : byteAt bs.buf (bs.pos / 8) &&& 255 >>> (bs.pos % 8) = b.toNat % 2 ^ (8 - bs.pos % 8) := by
    have hones : 255 >>> (bs.pos % 8) = 2 ^ (8 - bs.pos % 8) - 1 := by
      generalize bs.pos % 8 = s at hmod
      revert s
      decide
    rw [hbyte, hones, Nat.and_two_pow_sub_one_eq_mod]
  have hbits : (msbBits 8 (b.toNat % 2 ^ (8 - bs.pos % 8)) ++ bitsOf (bs.buf.drop (bs.pos / 8 + 1))).take
      (n + bs.pos % 8) = List.replicate (bs.pos % 8) false ++ ((bitsOf bs.buf).drop bs.pos).take n := by
    rw [drop_bitsOf_byte hdrop, msbBits_mod (Nat.sub_le _ _), Nat.sub_sub_self (Nat.le_of_lt hmod),
      List.append_assoc, Nat.add_comm]
    rw [List.take_append, List.length_replicate, Nat.add_sub_cancel_left,
      List.take_of_length_le (by rw [List.length_replicate]; exact Nat.le_add_right _ n)]
  simp only [getBits, hand, hshift]
  rw [if_neg (Int.not_lt.2 hlimit), hmask, getBitsLoop_eq bs.buf _ _ _ _ _ (Nat.lt_succ_self _) (by omega) (by omega)
    ((Nat.mod_le _ _).trans_lt (UInt8.toNat_lt b)) (Nat.dvd_zero _) (by omega), hbits, ofBits_append,
    ofBits_replicate_false, Nat.zero_mul, Nat.zero_add, Nat.zero_add, field]

/-- **No byte behind the limit matters.** -/
theorem getBits_append {bs : Bs} {n : Nat} (hn : 0 < n) (hle : n ≤ 25) (hbuf : bs.limit ≤ 8 * bs.buf.length)
    (more : Bytes) : (getBits { bs with buf := bs.buf ++ more } n).1 = (getBits bs n).1 := by
  rcases lt_or_ge bs.limit ↑(bs.pos + n) with hpast | hlimit
  · rw [getBits_past hpast]
    exact getBits_past hpast
  · have hbuf' : bs.limit ≤ 8 * (bs.buf ++ more).length := by
      rw [List.length_append]
      omega
    have hfits : bs.pos + n ≤ (bitsOf bs.buf).length := by
      rw [length_bitsOf]
      omega
    rw [getBits_eq hn hle hlimit hbuf, ← field_append hfits, ← bitsOf_append]
    exact getBits_eq hn hle hlimit hbuf'

theorem getBits_lt {bs : Bs} {n : Nat} (hn : 0 < n) (hle : n ≤ 25) (hbuf : bs.limit ≤ 8 * bs.buf.length) :
    (getBits bs n).1 < 2 ^ n := by
  rcases lt_or_ge bs.limit ↑(bs.pos + n) with hpast | hlimit
  · rw [getBits_past hpast]
    exact Nat.two_pow_pos n
  · rw [getBits_eq hn hle hlimit hbuf]
    exact field_lt _ _ _

/-- **What a read of up to 25 bits answers**, at any position: the field of the bit string when it ends in front of
the limit, else 0; and the reader moves on by its length in both cases. -/
theorem getBits_law {bs : Bs} {n : Nat} (hn : 0 < n) (hle : n ≤ 25) (hbuf : bs.limit ≤ 8 * bs.buf.length) :
    getBits bs n = (if (↑(bs.pos + n) : Int) ≤ bs.limit then field (bitsOf bs.buf) bs.pos n else 0,
      { bs with pos := bs.pos + n }) := by
  have hvalue : (getBits bs n).1 = if (↑(bs.pos + n) : Int) ≤ bs.limit then field (bitsOf bs.buf) bs.pos n else 0 := by
    split
    · next hlimit => exact getBits_eq hn hle hlimit hbuf
    · next hpast => exact getBits_past (Int.not_le.1 hpast)
  rw [← hvalue, ← getBits_snd bs n]

/-- Nine bits across three bytes. -/
theorem getBits_law_across : getBits ⟨[0x01, 0xFF, 0x80], 7, 24⟩ 9 = (511, ⟨[0x01, 0xFF, 0x80], 16, 24⟩) :=
  (getBits_law (by decide) (by decide) (by decide)).trans (by decide +kernel)

/-! ## What is ahead -/

/-- The bits between the position and the limit. -/
structure Ahead (bs : Bs) (bits : List Bool) : Prop where
  buf : bs.limit ≤ 8 * bs.buf.length
  limit : bs.limit = ↑(bs.pos + bits.length)
  bits : ((bitsOf bs.buf).drop bs.pos).take bits.length = bits

/-- A buffer is ahead of a reader that starts on it. -/
theorem ahead_bsInit (data : Bytes) : Ahead (bsInit data data.length) (bitsOf data) where
  buf := by
    simp only [bsInit]
    omega
  limit := by
    simp only [bsInit, length_bitsOf]
    omega
  bits := by rw [bsInit, List.drop_zero, List.take_length]

/-- **A field that was written is read**, and the next one is ahead then. -/
theorem Ahead.getBits {bs : Bs} {n v : Nat} {rest : List Bool} (h : Ahead bs (msbBits n v ++ rest)) (hn : 0 < n)
    (hle : n ≤ 25) (hv : v < 2 ^ n) :
    Decode.getBits bs n = (v, { bs with pos := bs.pos + n }) ∧ Ahead { bs with pos := bs.pos + n } rest := by
  have hlimit := h.limit
  rw [List.length_append, length_msbBits] at hlimit
  have hbits := h.bits
  rw [List.length_append, length_msbBits, List.take_add] at hbits
  have hhead : ((bitsOf bs.buf).drop bs.pos).take n = msbBits n v := by
    refine (List.append_inj hbits ?_).1
    have hbuf := h.buf
    rw [List.length_take, List.length_drop, length_bitsOf, length_msbBits]
    omega
  constructor
  · have hvalue : (Decode.getBits bs n).1 = v := by
      rw [getBits_eq hn hle (by omega) h.buf, field, hhead, ofBits_msbBits hv]
    rw [← hvalue, ← getBits_snd bs n]
  · refine ⟨h.buf, by simp only; omega, ?_⟩
    rw [hhead] at hbits
    rw [← List.drop_drop]
    exact List.append_cancel_left hbits

/-- Enough bits are a field and what follows it. -/
theorem exists_field (bits : List Bool) {n : Nat} (h : n ≤ bits.length) :
    ∃ v rest, v < 2 ^ n ∧ bits = msbBits n v ++ rest ∧ rest.length = bits.length - n := by
  have hlen : (bits.take n).length = n := List.length_take_of_le h
  refine ⟨ofBits (bits.take n), bits.drop n, ?_, ?_, List.length_drop⟩
  · exact Nat.lt_of_lt_of_eq (ofBits_lt _) (by rw [hlen])
  · have hfield := msbBits_ofBits (bits.take n)
    rw [hlen] at hfield
    rw [hfield, List.take_append_drop]

end Casquinha.Decode
