import Casquinha.Audio.Service
import Mathlib.Data.List.TakeDrop

/-!
# Feeding the compressed ring

`DrainStreamToDec` and the hand-off claim, copy and commit until the ring is full or nothing is left. The
drain moves as much as there is and as fits (`drainLoop_moves`), in two rounds where the ring wraps. The
hand-off moves the window in one claim of a ring that was just armed (`handLoop_of_claim`).
-/

set_option autoImplicit false

namespace Casquinha.Audio

open Lib Decode Transport

/-! ## The compressed ring -/

/-- A claim is empty if and only if the ring is full. -/
theorem claim_eq_zero_iff {r : CqDecring 32} (hsize : r.compSize ≠ 0) :
    (cqDecringClaim r).2 = 0 ↔ cqDecringSpace r = 0 := by
  have hzero : (0 : BitVec 32).toNat = 0 := rfl
  have hmod : (r.compWr % r.compSize).toNat < r.compSize.toNat := by
    rw [BitVec.toNat_umod]
    refine Nat.mod_lt _ (Nat.pos_of_ne_zero fun h => hsize ?_)
    exact BitVec.eq_of_toNat_eq h
  have hlin : (r.compSize - r.compWr % r.compSize).toNat =
      r.compSize.toNat - (r.compWr % r.compSize).toNat :=
    BitVec.toNat_sub_of_le (BitVec.le_def.2 hmod.le)
  simp only [cqDecringClaim]
  split
  · exact Iff.rfl
  · -- the piece up to the end of the ring is never empty
    rename_i hge
    have hle := BitVec.not_lt.1 hge
    rw [BitVec.le_def, hlin] at hle
    constructor
    · intro h
      rw [h, hzero] at hlin
      omega
    · intro h
      rw [h, hzero] at hle
      omega

theorem claim_le_space (r : CqDecring 32) :
    (cqDecringClaim r).2.toNat ≤ (cqDecringSpace r).toNat := by
  simp only [cqDecringClaim]
  split
  · exact Nat.le_refl _
  · rename_i hge
    exact BitVec.le_def.1 (BitVec.not_lt.1 hge)

/-- `n` bytes more in the compressed ring, whatever they are. -/
def filled (r : CqDecring 32) (comp : Nat → UInt8) (n : Nat) : CqDecring 32 :=
  { r with
    comp := comp
    compWr := r.compWr + BitVec.ofNat 32 n }

theorem space_filled {r : CqDecring 32} (comp : Nat → UInt8) {n : Nat}
    (hn : n ≤ (cqDecringSpace r).toNat) :
    (cqDecringSpace (filled r comp n)).toNat = (cqDecringSpace r).toNat - n := by
  have hlt := (cqDecringSpace r).isLt
  have hn' : BitVec.ofNat 32 n ≤ cqDecringSpace r := by
    rw [BitVec.le_def, BitVec.toNat_ofNat, Nat.mod_eq_of_lt (by omega)]
    exact hn
  have hspace : cqDecringSpace (filled r comp n) = cqDecringSpace r - BitVec.ofNat 32 n := by
    simp only [cqDecringSpace, filled]
    bv_omega
  rw [hspace, BitVec.toNat_sub_of_le hn', BitVec.toNat_ofNat, Nat.mod_eq_of_lt (by omega)]

theorem filled_filled (r : CqDecring 32) (comp comp' : Nat → UInt8) (n m : Nat) :
    filled (filled r comp n) comp' m = filled r comp' (n + m) := by
  simp only [filled, BitVec.add_assoc, BitVec.ofNat_add]

theorem filled_zero (r : CqDecring 32) : filled r r.comp 0 = r := by
  simp [filled]

theorem Feed.commit_ring (f : Feed) (xs : Bytes) :
    ∃ comp, (f.commit xs).ring = filled f.ring comp xs.length := ⟨_, rfl⟩

theorem cqTxDrain_cqTxDrain (t : CqTransport) (n m : Nat) :
    (cqTxDrain (cqTxDrain t n).2 m).2 = (cqTxDrain t (n + m)).2 := by
  simp only [cqTxDrain, List.drop_drop, List.append_assoc, List.take_add]

/-- No more is drained than there is. -/
theorem cqTxDrain_min (t : CqTransport) (n : Nat) :
    cqTxDrain t n = cqTxDrain t (min n t.data.length) := by
  rcases Nat.le_total n t.data.length with h | h
  · rw [Nat.min_eq_left h]
  · simp only [cqTxDrain, Nat.min_eq_right h, List.take_of_length_le h, List.drop_of_length_le h,
      List.take_length, List.drop_length]

theorem cqTxDrain_zero (t : CqTransport) : (cqTxDrain t 0).2 = t := by
  simp [cqTxDrain]

/-- From `f` and `t` on, `n` bytes move from the transaction into the ring. -/
def Moves (f : Feed) (t : CqTransport) (n : Nat) (out : Feed × CqTransport) : Prop :=
  ∃ comp, out = (⟨filled f.ring comp n, f.committed ++ t.data.take n⟩, (cqTxDrain t n).2)

theorem moves_zero (f : Feed) (t : CqTransport) : Moves f t 0 (f, t) := by
  refine ⟨f.ring.comp, ?_⟩
  rw [filled_zero, cqTxDrain_zero, List.take_zero, List.append_nil]

/-- What moves behind one commit moves with it. -/
theorem Moves.behind_commit {f : Feed} {t : CqTransport} {k n : Nat} {out : Feed × CqTransport}
    (hk : k ≤ t.data.length) (h : Moves (f.commit (t.data.take k)) (cqTxDrain t k).2 n out) :
    Moves f t (k + n) out := by
  obtain ⟨comp, hcommit⟩ := f.commit_ring (t.data.take k)
  obtain ⟨comp', hrest⟩ := h
  rw [List.length_take, Nat.min_eq_left hk] at hcommit
  rw [hcommit, filled_filled, cqTxDrain_cqTxDrain] at hrest
  refine ⟨comp', hrest.trans ?_⟩
  have hbytes : f.committed ++ t.data.take k ++ (t.data.drop k).take n =
      f.committed ++ t.data.take (k + n) := by
    rw [List.take_add, List.append_assoc]
  exact congrArg (fun bytes => (Feed.mk _ bytes, _)) hbytes

/-- **`DrainStreamToDec`** moves what is buffered, as far as it fits. -/
theorem drainLoop_moves (fuel : Nat) (f : Feed) (t : CqTransport) (hsize : f.ring.compSize ≠ 0)
    (hfuel : t.data.length < fuel) :
    Moves f t (min (cqDecringSpace f.ring).toNat t.data.length) (drainLoop fuel f t) := by
  induction fuel generalizing f t with
  | zero => omega
  | succ fuel ih =>
      rw [drainLoop]
      dsimp only
      split
      · next hfull =>
        -- the ring is full
        rw [claim_eq_zero_iff hsize] at hfull
        have hnone : min (cqDecringSpace f.ring).toNat t.data.length = 0 := by
          rw [hfull]
          exact Nat.zero_min _
        rw [hnone]
        exact moves_zero f t
      · next hroom =>
        have hpos : 0 < (cqDecringClaim f.ring).2.toNat :=
          Nat.pos_of_ne_zero fun h => hroom (BitVec.eq_of_toNat_eq h)
        have hle := claim_le_space f.ring
        rw [cqTxDrain_min t]
        generalize hk : min (cqDecringClaim f.ring).2.toNat t.data.length = k
        split
        · next hempty =>
          -- nothing is buffered
          have hdata : t.data.length = 0 := by
            rcases List.take_eq_nil_iff.1 hempty with h | h
            · omega
            · rw [h, List.length_nil]
          have hzero : k = 0 := by omega
          rw [hdata, Nat.min_zero, hzero, cqTxDrain_zero]
          exact moves_zero f t
        · next hgot =>
          -- the rest is moved by the rounds that follow
          have hkpos : 0 < k := by
            refine Nat.pos_of_ne_zero fun h => hgot ?_
            rw [h]
            exact @List.take_zero _ t.data
          have hkdata : k ≤ t.data.length := by omega
          have hleft : (cqTxDrain t k).2.data.length = t.data.length - k := List.length_drop
          obtain ⟨comp, hcommit⟩ := f.commit_ring (t.data.take k)
          rw [List.length_take, Nat.min_eq_left hkdata] at hcommit
          have hspace : (cqDecringSpace (f.commit (t.data.take k)).ring).toNat =
              (cqDecringSpace f.ring).toNat - k := by
            rw [hcommit]
            exact space_filled comp (by omega)
          have hrest := ih (f.commit (t.data.take k)) (cqTxDrain t k).2 (by rw [hcommit]; exact hsize)
            (by omega)
          rw [hspace, hleft] at hrest
          have hmoved := hrest.behind_commit hkdata
          have hsum : k + min ((cqDecringSpace f.ring).toNat - k) (t.data.length - k) =
              min (cqDecringSpace f.ring).toNat t.data.length := by omega
          rw [hsum] at hmoved
          exact hmoved

theorem handLoop_nil (fuel : Nat) (f : Feed) : handLoop fuel f [] = f := by
  cases fuel with
  | zero => rfl
  | succ fuel => exact if_pos rfl

/-- The window fits into one claim of a new ring. -/
theorem handLoop_of_claim (f : Feed) {gComp : Bytes} (hne : gComp ≠ [])
    (hclaim : gComp.length ≤ (cqDecringClaim f.ring).2.toNat) :
    handLoop gComp.length f gComp = f.commit gComp := by
  obtain ⟨n, hn⟩ := Nat.exists_eq_succ_of_ne_zero (List.length_pos_iff.2 hne).ne'
  have hroom : (cqDecringClaim f.ring).2 ≠ 0 := by
    intro h
    have hzero : (cqDecringClaim f.ring).2.toNat = 0 := congrArg BitVec.toNat h
    omega
  rw [hn, handLoop, if_neg hne]
  dsimp only
  rw [if_neg hroom, List.take_of_length_le hclaim, List.drop_of_length_le hclaim, handLoop_nil]

/-- A ring of the compressed ring's size without anything in it is claimed from end to end. -/
theorem claim_of_empty {r : CqDecring 32} (hsize : r.compSize = BitVec.ofNat 32 cqAudCompRing)
    (hwr : r.compWr = 0) (hrd : r.compRd = 0) :
    (cqDecringClaim r).2 = BitVec.ofNat 32 cqAudCompRing := by
  have hspace : cqDecringSpace r = BitVec.ofNat 32 cqAudCompRing := by
    rw [cqDecringSpace, hsize, hwr, hrd]
    decide
  have hlin : r.compSize - r.compWr % r.compSize = BitVec.ofNat 32 cqAudCompRing := by
    rw [hsize, hwr]
    decide
  simp only [cqDecringClaim]
  rw [hspace, hlin, ite_self]

end Casquinha.Audio
