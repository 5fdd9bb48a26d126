import Casquinha.App.ViewLaws
import Casquinha.Wire.LongLong

/-!
# The two interpolators

`cq_now_interpolated_position_ms` and the progress bar of `cq_view_render` both add the time that has passed to
the position of the snapshot, and clamp the sum afterwards. The result lies within the track whatever the sum
was. The sum itself is a `long long` only while the position leaves room for the time that has passed
(`nowSums_iff`, `viewSums_iff`), and the position is whatever number the server has sent.
-/

set_option autoImplicit false

namespace Casquinha.App

open Lib Wire

/-- The milliseconds between two ticks. -/
def tickMs (snapTicks nowTicks : BitVec 32) : Int := ((nowTicks - snapTicks).toNat : Int) * 1000 / 60

/-- The sums of `cq_now_interpolated_position_ms` are made in range. -/
def NowSums (n : CqNow) (nowEpochMs : Int) : Prop :=
  n.state = .playing → 0 < n.ts →
    InLongLong (nowEpochMs - n.ts) ∧ InLongLong (n.positionMs + (nowEpochMs - n.ts))

/-- The products and the sum of the progress bar are made in range. -/
def ViewSums (v : CqViewIn) (s : CqNow) : Prop :=
  s.state = .playing →
    InLongLong (((v.nowTicks - v.snapTicks).toNat : Int) * 1000) ∧
      InLongLong (s.positionMs + tickMs v.snapTicks v.nowTicks)

/-- A position that lies within the track. -/
def WithinTrack (n : CqNow) (position : Int) : Prop := 0 ≤ position ∧ position ≤ n.durationMs

/-- `cq_now_interpolated_position_ms` stays in range, and its result in the track. -/
def NowExact (n : CqNow) (nowEpochMs : Int) : Prop :=
  NowSums n nowEpochMs ∧ (n.state = .playing → 0 < n.durationMs → 0 < n.ts →
    WithinTrack n (cqNowInterpolatedPositionMs n nowEpochMs))

/-- So does the progress bar. -/
def ViewExact (v : CqViewIn) (s : CqNow) : Prop :=
  ViewSums v s ∧ (s.state = .playing → 0 < s.durationMs →
    WithinTrack s (cqViewRender { v with snap := some s }).positionMs)

/-- The snapshot is playing with a `ts`, and its position leaves room for the time since then; a clock that
is behind the `ts` is not too far behind. -/
def RoomForEpoch (n : CqNow) (nowEpochMs : Int) : Prop :=
  n.state = .playing → 0 < n.ts →
    if n.ts ≤ nowEpochMs then n.positionMs ≤ 2 ^ 63 - 1 - (nowEpochMs - n.ts)
    else n.ts - 2 ^ 63 ≤ nowEpochMs ∧ -2 ^ 63 + (n.ts - nowEpochMs) ≤ n.positionMs

/-- The snapshot is playing, and its position leaves room for the time since its adoption. -/
def RoomForTicks (v : CqViewIn) (s : CqNow) : Prop :=
  s.state = .playing → s.positionMs ≤ 2 ^ 63 - 1 - tickMs v.snapTicks v.nowTicks

/-! ## Clamping -/

/-- What is clamped lies within the track. -/
theorem clamped_within {position duration : Int} (hduration : 0 < duration) :
    0 ≤ (if 0 < duration ∧ duration < (if position < 0 then 0 else position) then duration
      else if position < 0 then 0 else position) ∧
    (if 0 < duration ∧ duration < (if position < 0 then 0 else position) then duration
      else if position < 0 then 0 else position) ≤ duration := by
  split <;> split <;> omega

theorem interpolated_within {n : CqNow} (nowEpochMs : Int) (hplays : n.state = .playing)
    (hduration : 0 < n.durationMs) (hts : 0 < n.ts) :
    WithinTrack n (cqNowInterpolatedPositionMs n nowEpochMs) := by
  have hon : ¬ (n.state ≠ .playing ∨ n.ts ≤ 0) := by
    rintro (hstopped | hnone)
    · exact hstopped hplays
    · omega
  rw [WithinTrack, cqNowInterpolatedPositionMs, if_neg hon]
  exact clamped_within hduration

theorem rendered_within (v : CqViewIn) {s : CqNow} (hduration : 0 < s.durationMs) :
    WithinTrack s (cqViewRender { v with snap := some s }).positionMs := clamped_within hduration

/-! ## Sums -/

theorem tickMs_bounds (snapTicks nowTicks : BitVec 32) :
    0 ≤ tickMs snapTicks nowTicks ∧ tickMs snapTicks nowTicks < 2 ^ 37 := by
  have hlt := (nowTicks - snapTicks).isLt
  rw [tickMs]
  omega

theorem nowSums_iff {n : CqNow} {nowEpochMs : Int} (hposition : InLongLong n.positionMs)
    (hnow : InLongLong nowEpochMs) : NowSums n nowEpochMs ↔ RoomForEpoch n nowEpochMs := by
  obtain ⟨hlow, hhigh⟩ := hposition
  obtain ⟨hnowlow, hnowhigh⟩ := hnow
  rw [NowSums, RoomForEpoch]
  apply imp_congr_right
  intro _
  apply imp_congr_right
  intro hts
  rw [InLongLong, InLongLong]
  split
  -- a clock ahead of the `ts` can only go over the top
  · next hahead => omega
  -- and one behind it only under the bottom
  · next hbehind => omega

theorem viewSums_iff {v : CqViewIn} {s : CqNow} (hposition : InLongLong s.positionMs) :
    ViewSums v s ↔ RoomForTicks v s := by
  obtain ⟨hlow, hhigh⟩ := hposition
  obtain ⟨hnonneg, hsmall⟩ := tickMs_bounds v.snapTicks v.nowTicks
  have hlt := (v.nowTicks - v.snapTicks).isLt
  rw [ViewSums, RoomForTicks]
  apply imp_congr_right
  intro _
  rw [InLongLong, InLongLong]
  omega

theorem nowExact_iff {n : CqNow} {nowEpochMs : Int} (hposition : InLongLong n.positionMs)
    (hnow : InLongLong nowEpochMs) : NowExact n nowEpochMs ↔ RoomForEpoch n nowEpochMs := by
  rw [NowExact, nowSums_iff hposition hnow]
  exact and_iff_left fun hplays hduration hts => interpolated_within nowEpochMs hplays hduration hts

theorem viewExact_iff {v : CqViewIn} {s : CqNow} (hposition : InLongLong s.positionMs) :
    ViewExact v s ↔ RoomForTicks v s := by
  rw [ViewExact, viewSums_iff hposition]
  exact and_iff_left fun _ hduration => rendered_within v hduration

/-- **Arithmetic on wire integers** stays in the 64-bit range, with the results the header and the clamps
promise, exactly if the digits of the text denote less than `2^63` and the position of the snapshot leaves
room for the time that is added to it. -/
theorem wire_arithmetic_iff (text : CStr) (data : Bytes) (nowEpochMs : BitVec 64) (v : CqViewIn) :
    (ReadsExactly text ∧ NowExact (cqNowFromResponse data) nowEpochMs.toInt ∧
        ViewExact v (cqNowFromResponse data)) ↔
      digitsValue text < 2 ^ 63 ∧ RoomForEpoch (cqNowFromResponse data) nowEpochMs.toInt ∧
        RoomForTicks v (cqNowFromResponse data) := by
  have hposition : InLongLong (cqNowFromResponse data).positionMs := inLongLong_cqParseLl _
  have hnow : InLongLong nowEpochMs.toInt := ⟨BitVec.le_toInt nowEpochMs, BitVec.toInt_lt⟩
  rw [readsExactly_iff, nowExact_iff hposition hnow, viewExact_iff hposition]

/-- **A number beyond the range wraps.** `2^63` is read as `-2^63`, where `longLongValue` answers
`2^63 - 1`. -/
theorem long_number_wraps :
    ¬ ∀ (text : CStr) (data : Bytes) (nowEpochMs : BitVec 64) (v : CqViewIn),
      ReadsExactly text ∧ NowExact (cqNowFromResponse data) nowEpochMs.toInt ∧
        ViewExact v (cqNowFromResponse data) := by
  intro h
  obtain ⟨⟨hvalue, -⟩, -⟩ := h (.lit "9223372036854775808") [] 0 halfBuffered
  revert hvalue
  decide +kernel

end Casquinha.App
