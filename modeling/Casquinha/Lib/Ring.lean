import Mathlib.Data.List.Basic
import Mathlib.Data.Nat.ModEq
import Mathlib.Tactic.Linarith

/-!
# Circular buffers with one writer and one reader

A circular buffer is a memory of `size` cells that is addressed by ever-growing byte counters modulo
`size`. `ringWrite` and `ringRead` are the wrap-split copies. `Holds` says that the cells from a
counter on hold a given list; a write behind that list extends it and a read in front returns it.

`RingLog` records what one writer has sent and one reader has taken, together with the last value
each side has seen of the other side's counter. `RingLog.Inv` ties the log to the memory. Every move
of the two sides keeps it, as long as the counters a side sees do not run backwards: seeing an old
value only makes a side take less than it could.
-/

set_option autoImplicit false

namespace Lib

universe u

variable {α : Type u}

/-! ## Memory -/

/-- Copy `xs` to the cells from `off` on. -/
def blit (mem : Nat → α) (off : Nat) (xs : List α) : Nat → α :=
  fun j => if off ≤ j then (xs[j - off]?).getD (mem j) else mem j

/-- The `n` cells from `off` on. -/
def readMem (mem : Nat → α) (off n : Nat) : List α := (List.range n).map fun i => mem (off + i)

/-- The wrap-split copy of `xs` into a buffer of `size` cells at position `pos`. -/
def ringWrite (size : Nat) (mem : Nat → α) (pos : Nat) (xs : List α) : Nat → α :=
  let first := min (size - pos) xs.length
  blit (blit mem pos (xs.take first)) 0 (xs.drop first)

/-- The wrap-split copy of `n` cells out of a buffer of `size` cells from position `pos` on. -/
def ringRead (size : Nat) (mem : Nat → α) (pos n : Nat) : List α :=
  let first := min (size - pos) n
  readMem mem pos first ++ readMem mem 0 (n - first)

@[simp] theorem length_readMem (mem : Nat → α) (off n : Nat) : (readMem mem off n).length = n := by
  simp [readMem]

theorem getElem?_readMem (mem : Nat → α) {off n i : Nat} (hi : i < n) :
    (readMem mem off n)[i]? = some (mem (off + i)) := by
  simp [readMem, hi]

theorem blit_of_lt {mem : Nat → α} {off j : Nat} (xs : List α) (h : j < off) :
    blit mem off xs j = mem j := by
  simp [blit, Nat.not_le.2 h]

theorem blit_of_ge {mem : Nat → α} {off j : Nat} {xs : List α} (h : off + xs.length ≤ j) :
    blit mem off xs j = mem j := by
  have hnone : xs[j - off]? = none := List.getElem?_eq_none (by omega)
  simp [blit, hnone]

theorem blit_add {mem : Nat → α} {off i : Nat} {xs : List α} (h : i < xs.length) :
    blit mem off xs (off + i) = xs[i] := by
  simp [blit, h]

@[simp] theorem blit_nil (mem : Nat → α) (off : Nat) : blit mem off [] = mem := by
  funext j
  simp [blit]

theorem readMem_add (mem : Nat → α) (off n k : Nat) :
    readMem mem off (n + k) = readMem mem off n ++ readMem mem (off + n) k := by
  simp only [readMem, List.range_add, List.map_append, List.map_map, Function.comp_def, Nat.add_assoc]

theorem readMem_mono (mem : Nat → α) (off : Nat) {n k : Nat} (h : n ≤ k) :
    readMem mem off n <+: readMem mem off k := by
  obtain ⟨d, rfl⟩ := Nat.exists_eq_add_of_le h
  exact ⟨_, (readMem_add mem off n d).symm⟩

/-- A copy is read back. -/
theorem readMem_blit (mem : Nat → α) (off : Nat) (xs : List α) :
    readMem (blit mem off xs) off xs.length = xs := by
  apply List.ext_getElem (length_readMem _ _ _)
  intro i _ hi
  simp only [readMem, List.getElem_map, List.getElem_range]
  exact blit_add hi

/-- What lies in front of a copy stays. -/
theorem readMem_blit_of_le {mem : Nat → α} {start n off : Nat} (xs : List α) (h : start + n ≤ off) :
    readMem (blit mem off xs) start n = readMem mem start n := by
  apply List.map_congr_left
  intro i hi
  have hlt := List.mem_range.1 hi
  exact blit_of_lt xs (by omega)

@[simp] theorem length_ringRead (size : Nat) (mem : Nat → α) (pos n : Nat) :
    (ringRead size mem pos n).length = n := by
  simp only [ringRead, List.length_append, length_readMem]
  omega

/-- What has been copied to the start of a buffer is read from there. -/
theorem ringRead_blit {size n : Nat} (mem : Nat → α) {xs : List α} (hn : n ≤ xs.length)
    (hfit : n ≤ size) : ringRead size (blit mem 0 xs) 0 n = xs.take n := by
  have hfirst : min (size - 0) n = n := by omega
  have hpre : readMem (blit mem 0 xs) 0 n <+: xs := by
    have h := readMem_mono (blit mem 0 xs) 0 hn
    rwa [readMem_blit] at h
  simp only [ringRead, hfirst, Nat.sub_self]
  rw [List.prefix_iff_eq_take.1 hpre, length_readMem]
  exact List.append_nil _

/-- A position in the buffer, `i` cells further. -/
theorem mod_add_of_lt {size pos i : Nat} (hpos : pos < size) (hi : i < size) :
    (pos + i) % size = if pos + i < size then pos + i else pos + i - size := by
  split
  · exact Nat.mod_eq_of_lt (by assumption)
  · rw [Nat.mod_eq_sub_mod (by omega), Nat.mod_eq_of_lt (by omega)]

theorem getElem?_ringRead {size pos n i : Nat} (mem : Nat → α) (hpos : pos < size) (hn : n ≤ size)
    (hi : i < n) : (ringRead size mem pos n)[i]? = some (mem ((pos + i) % size)) := by
  rw [mod_add_of_lt hpos (by omega), ringRead]
  by_cases h : i < size - pos
  · rw [List.getElem?_append_left (by simp; omega), getElem?_readMem _ (by omega),
      if_pos (by omega)]
  · have hmin : min (size - pos) n = size - pos := by omega
    rw [List.getElem?_append_right (by simp; omega), length_readMem, hmin,
      getElem?_readMem _ (by omega), if_neg (by omega)]
    congr 2
    omega

/-- The cells the write covers hold what was written. -/
theorem ringWrite_covered {size pos i : Nat} {mem : Nat → α} {xs : List α} (hpos : pos < size)
    (hxs : xs.length ≤ size) (hi : i < xs.length) :
    ringWrite size mem pos xs ((pos + i) % size) = xs[i] := by
  rw [mod_add_of_lt hpos (by omega), ringWrite]
  by_cases h : pos + i < size
  · have hlen : (xs.drop (min (size - pos) xs.length)).length ≤ pos + i := by
      rw [List.length_drop]
      omega
    rw [if_pos h, blit_of_ge (by omega), blit_add (by rw [List.length_take]; omega)]
    exact List.getElem_take
  · have hmin : min (size - pos) xs.length = size - pos := by omega
    have hidx : pos + i - size = 0 + (i - (size - pos)) := by omega
    rw [if_neg h, hmin, hidx, blit_add (by rw [List.length_drop]; omega), List.getElem_drop]
    congr 1
    omega

/-- The other cells of the buffer keep their contents. -/
theorem ringWrite_other {size pos i : Nat} {mem : Nat → α} {xs : List α} (hpos : pos < size)
    (hi : xs.length ≤ i) (hlt : i < size) :
    ringWrite size mem pos xs ((pos + i) % size) = mem ((pos + i) % size) := by
  rw [mod_add_of_lt hpos hlt, ringWrite]
  by_cases h : pos + i < size
  · have hmin : min (size - pos) xs.length = xs.length := by omega
    rw [if_pos h, hmin, List.drop_length, blit_nil, List.take_length, blit_of_ge (by omega)]
  · rw [if_neg h, blit_of_ge (by rw [List.length_drop]; omega), blit_of_lt _ (by omega)]

/-! ## Contents -/

/-- The cells from counter `start` on hold `xs`. -/
def Holds (size : Nat) (mem : Nat → α) (start : Nat) (xs : List α) : Prop :=
  ∀ i (h : i < xs.length), mem ((start + i) % size) = xs[i]

theorem Holds.nil (size : Nat) (mem : Nat → α) (start : Nat) : Holds size mem start [] :=
  fun _ h => absurd h (Nat.not_lt_zero _)

theorem Holds.drop {size start : Nat} {mem : Nat → α} {xs : List α} (h : Holds size mem start xs)
    (k : Nat) : Holds size mem (start + k) (xs.drop k) := by
  intro i hi
  rw [List.length_drop] at hi
  rw [List.getElem_drop, ← h (k + i) (by omega), Nat.add_assoc]

theorem Holds.take {size start : Nat} {mem : Nat → α} {xs : List α} (h : Holds size mem start xs)
    (k : Nat) : Holds size mem start (xs.take k) := by
  intro i hi
  rw [List.length_take] at hi
  rw [List.getElem_take, ← h i (by omega)]

/-- Writing behind the contents extends them. -/
theorem Holds.write {size start : Nat} {mem : Nat → α} {xs : List α} (hsize : 0 < size)
    (h : Holds size mem start xs) (ys : List α) (hlen : xs.length + ys.length ≤ size) :
    Holds size (ringWrite size mem ((start + xs.length) % size) ys) start (xs ++ ys) := by
  have hpos : (start + xs.length) % size < size := Nat.mod_lt _ hsize
  intro i hi
  rw [List.length_append] at hi
  by_cases hix : i < xs.length
  · -- cell `i` lies `size - xs.length + i` cells after the start of the write
    have hcell : (start + i) % size =
        ((start + xs.length) % size + (size - xs.length + i)) % size := by
      rw [Nat.mod_add_mod, show start + xs.length + (size - xs.length + i) = start + i + size by
        omega, Nat.add_mod_right]
    rw [List.getElem_append_left hix, hcell,
      ringWrite_other hpos (by omega) (by omega), ← hcell, h i hix]
  · have hcell : (start + i) % size =
        ((start + xs.length) % size + (i - xs.length)) % size := by
      rw [Nat.mod_add_mod]
      congr 1
      omega
    rw [List.getElem_append_right (by omega), hcell,
      ringWrite_covered hpos (by omega) (by omega)]

/-- Reading in front of the contents returns them. -/
theorem Holds.read {size start n : Nat} {mem : Nat → α} {xs : List α} (hsize : 0 < size)
    (h : Holds size mem start xs) (hn : n ≤ xs.length) (hle : n ≤ size) :
    ringRead size mem (start % size) n = xs.take n := by
  have hpos : start % size < size := Nat.mod_lt _ hsize
  refine List.ext_getElem? fun i => ?_
  by_cases hi : i < n
  · rw [getElem?_ringRead mem hpos hle hi, List.getElem?_take_of_lt hi,
      List.getElem?_eq_getElem (by omega), Nat.mod_add_mod, h i (by omega)]
  · rw [List.getElem?_eq_none (by simp; omega), List.getElem?_eq_none (by simp; omega)]

/-! ## Wrapping counters -/

/-- A `w`-bit counter that started at `base` and has counted `n`. -/
def counter (w base n : Nat) : BitVec w := BitVec.ofNat w (base + n)

theorem counter_add (w base n k : Nat) :
    counter w base n + BitVec.ofNat w k = counter w base (n + k) := by
  rw [counter, counter, ← BitVec.ofNat_add, Nat.add_assoc]

/-- The difference of two readings is the reading of the time between them. -/
theorem ofNat_sub_ofNat {w a b : Nat} (h : a ≤ b) :
    BitVec.ofNat w b - BitVec.ofNat w a = BitVec.ofNat w (b - a) := by
  obtain ⟨k, rfl⟩ := Nat.exists_eq_add_of_le h
  rw [BitVec.ofNat_add, BitVec.add_comm, BitVec.add_sub_cancel, Nat.add_sub_cancel_left]

/-- A difference that is read as signed is below a bound when it is below it, or when its sign bit is set. -/
theorem toInt_ofNat_lt_iff {n : Nat} {k : Int} (hk : 0 ≤ k) (hk' : k ≤ 2 ^ 31) :
    (BitVec.ofNat 32 n).toInt < k ↔ (n % 2 ^ 32 : Nat) < k ∨ 2 ^ 31 ≤ n % 2 ^ 32 := by
  rw [BitVec.toInt_eq_toNat_cond, BitVec.toNat_ofNat]
  split <;> omega

theorem toNat_counter_sub {w base a b : Nat} (h : a ≤ b) (hlt : b - a < 2 ^ w) :
    (counter w base b - counter w base a).toNat = b - a := by
  obtain ⟨k, rfl⟩ : ∃ k, b = a + k := ⟨b - a, by omega⟩
  have hk : k < 2 ^ w := by omega
  rw [← counter_add, BitVec.add_comm, BitVec.add_sub_cancel, BitVec.toNat_ofNat,
    Nat.mod_eq_of_lt hk]
  omega

/-- A counter addresses the same cell as the count it stands for when the size divides the counter's
range, or when the counter has not wrapped. -/
theorem toNat_counter_mod {w base n size : Nat} (h : size ∣ 2 ^ w ∨ base + n < 2 ^ w) :
    (counter w base n).toNat % size = (base + n) % size := by
  rw [counter, BitVec.toNat_ofNat]
  rcases h with h | h
  · exact Nat.mod_mod_of_dvd _ h
  · rw [Nat.mod_eq_of_lt h]

/-- Contents addressed through a counter are the contents at the count it stands for. -/
theorem holds_counter {w base n size : Nat} {mem : Nat → α} {xs : List α}
    (h : size ∣ 2 ^ w ∨ base + n < 2 ^ w) :
    Holds size mem (counter w base n).toNat xs ↔ Holds size mem (base + n) xs := by
  have hcell : ∀ i, ((counter w base n).toNat + i) % size = (base + n + i) % size := by
    intro i
    rw [Nat.add_mod, toNat_counter_mod h, ← Nat.add_mod]
  simp only [Holds, hcell]

/-- Free space behind a counter: `size - (wr - rd)` in wrapping arithmetic. -/
theorem toNat_sub_counter_sub {w base a b : Nat} {size : BitVec w} (h : a ≤ b)
    (hle : b ≤ a + size.toNat) :
    (size - (counter w base b - counter w base a)).toNat = size.toNat - (b - a) := by
  have hsub : (counter w base b - counter w base a).toNat = b - a :=
    toNat_counter_sub h (lt_of_le_of_lt (by omega) size.isLt)
  rw [BitVec.toNat_sub_of_le (by rw [BitVec.le_def, hsub]; omega), hsub]

/-! ## Writer and reader -/

/-- What one writer and one reader have done, and what each has last seen of the other. -/
structure RingLog (α : Type u) where
  /-- Published by the writer. -/
  sent : List α
  /-- Written behind `sent` and not yet published. -/
  pending : List α
  /-- Copied out by the reader. -/
  taken : List α
  /-- The reader's count as the writer has last seen it. -/
  seenTaken : Nat
  /-- The writer's count as the reader has last seen it. -/
  seenSent : Nat

namespace RingLog

/-- Nothing sent, nothing taken. -/
def empty : RingLog α :=
  { sent := []
    pending := []
    taken := []
    seenTaken := 0
    seenSent := 0 }

/-- The writer reads the reader's counter and sees the value `v`. -/
def lookTaken (l : RingLog α) (v : Nat) : RingLog α := { l with seenTaken := v }

/-- The reader reads the writer's counter and sees the value `v`. -/
def lookSent (l : RingLog α) (v : Nat) : RingLog α := { l with seenSent := v }

/-- The writer puts `ys` behind what it has written. -/
def write (l : RingLog α) (ys : List α) : RingLog α := { l with pending := l.pending ++ ys }

/-- The writer publishes what it has written. -/
def publish (l : RingLog α) : RingLog α := { l with sent := l.sent ++ l.pending, pending := [] }

/-- The reader copies `ys` out and publishes its counter. -/
def take (l : RingLog α) (ys : List α) : RingLog α := { l with taken := l.taken ++ ys }

/-- The memory holds everything sent and not yet taken, and neither side has gone beyond what it has
seen of the other. -/
structure Inv (size base : Nat) (mem : Nat → α) (l : RingLog α) : Prop where
  seenTaken_le : l.seenTaken ≤ l.taken.length
  taken_le : l.taken.length ≤ l.seenSent
  seenSent_le : l.seenSent ≤ l.sent.length
  room : l.sent.length + l.pending.length ≤ l.seenTaken + size
  taken_prefix : l.taken <+: l.sent
  holds : Holds size mem (base + l.taken.length) (l.sent.drop l.taken.length ++ l.pending)

variable {size base : Nat} {mem : Nat → α} {l : RingLog α}

theorem Inv.empty (size base : Nat) (mem : Nat → α) : (RingLog.empty : RingLog α).Inv size base mem :=
  { seenTaken_le := Nat.le_refl 0
    taken_le := Nat.le_refl 0
    seenSent_le := Nat.le_refl 0
    room := by simp [RingLog.empty]
    taken_prefix := List.nil_prefix
    holds := Holds.nil _ _ _ }

/-- What is sent and not yet taken fits in the buffer. -/
theorem Inv.sent_le (h : l.Inv size base mem) : l.sent.length ≤ l.taken.length + size := by
  have := h.seenTaken_le
  have := h.room
  omega

theorem Inv.taken_le_sent (h : l.Inv size base mem) : l.taken.length ≤ l.sent.length :=
  h.taken_prefix.length_le

/-- Everything sent and not yet taken is intact. -/
theorem Inv.unread (h : l.Inv size base mem) :
    Holds size mem (base + l.taken.length) (l.sent.drop l.taken.length) := by
  have hholds := h.holds.take (l.sent.drop l.taken.length).length
  rwa [List.take_left] at hholds

theorem Inv.lookTaken (h : l.Inv size base mem) {v : Nat} (hge : l.seenTaken ≤ v)
    (hle : v ≤ l.taken.length) : (l.lookTaken v).Inv size base mem :=
  { h with
    seenTaken_le := hle
    room := by
      have := h.room
      simp only [RingLog.lookTaken]
      omega }

theorem Inv.lookSent (h : l.Inv size base mem) {v : Nat} (hge : l.seenSent ≤ v)
    (hle : v ≤ l.sent.length) : (l.lookSent v).Inv size base mem :=
  { h with
    taken_le := le_trans h.taken_le hge
    seenSent_le := hle }

/-- A write within the space the writer has seen. -/
theorem Inv.write (h : l.Inv size base mem) (hsize : 0 < size) (ys : List α)
    (hys : l.sent.length + l.pending.length + ys.length ≤ l.seenTaken + size) :
    (l.write ys).Inv size base
      (ringWrite size mem ((base + (l.sent.length + l.pending.length)) % size) ys) := by
  have hle := h.taken_le_sent
  have hseen := h.seenTaken_le
  have hlen : (l.sent.drop l.taken.length ++ l.pending).length =
      l.sent.length - l.taken.length + l.pending.length := by simp
  have hw := h.holds.write hsize ys (by rw [hlen]; omega)
  rw [hlen, show base + l.taken.length + (l.sent.length - l.taken.length + l.pending.length) =
    base + (l.sent.length + l.pending.length) by omega, List.append_assoc] at hw
  exact
    { seenTaken_le := h.seenTaken_le
      taken_le := h.taken_le
      seenSent_le := h.seenSent_le
      room := by
        simp only [RingLog.write, List.length_append]
        omega
      taken_prefix := h.taken_prefix
      holds := hw }

theorem Inv.publish (h : l.Inv size base mem) : l.publish.Inv size base mem :=
  { seenTaken_le := h.seenTaken_le
    taken_le := h.taken_le
    seenSent_le := by
      have := h.seenSent_le
      simp only [RingLog.publish, List.length_append]
      omega
    room := by
      have := h.room
      simpa [RingLog.publish] using this
    taken_prefix := h.taken_prefix.trans (List.prefix_append _ _)
    holds := by
      have := h.holds
      rwa [← List.drop_append_of_le_length h.taken_le_sent, ← List.append_nil (List.drop _ _)]
        at this }

/-- A read within what the reader has seen returns what was sent next. -/
theorem Inv.ringRead_eq (h : l.Inv size base mem) (hsize : 0 < size) {n : Nat}
    (hn : l.taken.length + n ≤ l.seenSent) :
    ringRead size mem ((base + l.taken.length) % size) n = (l.sent.drop l.taken.length).take n := by
  have hle := h.seenSent_le
  have hsent := h.sent_le
  rw [h.holds.read hsize (by simp; omega) (by omega), List.take_append_of_le_length (by simp; omega)]

theorem Inv.take (h : l.Inv size base mem) (hsize : 0 < size) {n : Nat}
    (hn : l.taken.length + n ≤ l.seenSent) :
    (l.take (ringRead size mem ((base + l.taken.length) % size) n)).Inv size base mem := by
  have hle := h.seenSent_le
  have hpre : l.taken ++ (l.sent.drop l.taken.length).take n = l.sent.take (l.taken.length + n) := by
    conv_lhs => rw [List.prefix_iff_eq_take.1 h.taken_prefix]
    rw [List.length_take, Nat.min_eq_left h.taken_le_sent, List.take_add]
  have hlen : (l.sent.take (l.taken.length + n)).length = l.taken.length + n := by
    rw [List.length_take]
    omega
  rw [h.ringRead_eq hsize hn, RingLog.take, hpre]
  refine
    { seenTaken_le := ?_
      taken_le := ?_
      seenSent_le := h.seenSent_le
      room := h.room
      taken_prefix := List.take_prefix _ _
      holds := ?_ }
  · have := h.seenTaken_le
    simp only [hlen]
    omega
  · simp only [hlen]
    exact hn
  · have hd := h.holds.drop n
    rw [List.drop_append_of_le_length (by simp; omega), List.drop_drop] at hd
    simpa only [hlen, Nat.add_assoc] using hd

end RingLog

end Lib
