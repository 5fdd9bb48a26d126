import Casquinha.Decode.Leftover

/-!
# The pump comes to its end

While a pass is under way the interrupt reads PCM and the producer may set `eof`, so every round of the loop
sees its own PCM cursor and flag. Whatever it sees, a round that goes on has used a staged byte, and the loop
ends after no more rounds than there are staged bytes (`loopEnds`).

A stage of more than 8192 bytes cannot block the pump: with PCM space its first round decodes, skips or
flushes something (`pumpRound_deep`). The answer 0 of the sync, which would leave the loop at the same place
again, is not possible there: two frames of the largest size fit in 8192 bytes, so the gate is open
(`sync_pos_of_gate`).
-/

set_option autoImplicit false

namespace Casquinha.Decode

open Lib

variable {w : Nat} {σ : Type}

/-- The decoder takes nothing it was not given, and something of a buffer that begins with a whole
frame. -/
structure Mp3Decoder.Consumes (d : Mp3Decoder σ) : Prop where
  consumed_nonneg : ∀ s buf, 0 ≤ (d.decodeFrame s buf).2.consumed
  consumed_le : ∀ s buf, (d.decodeFrame s buf).2.consumed ≤ buf.length
  advances : d.Advances

theorem silenceDecoder_consumes : silenceDecoder.Consumes where
  consumed_nonneg := silenceDecoder_bounded.consumed_nonneg
  consumed_le := silenceDecoder_bounded.consumed_le
  advances := silenceDecoder_advances

/-! ## Rounds and what they see -/

/-- A round sees `*pcm_rd` and `eof` as they are by then. -/
def Pass.see (p : Pass w σ) (view : BitVec w × Bool) : Pass w σ :=
  { p with
    ring :=
      { p.ring with
        pcmRd := view.1
        eof := view.2 } }

/-- The pass after `k` rounds. -/
def rounds (d : Mp3Decoder σ) (views : Nat → BitVec w × Bool) (p : Pass w σ) : Nat → Pass w σ
  | 0 => p
  | k + 1 => (pumpRound d ((rounds d views p k).see (views k))).1

/-- The pass as round `k` finds it. -/
def beforeRound (d : Mp3Decoder σ) (views : Nat → BitVec w × Bool) (p : Pass w σ) (k : Nat) : Pass w σ :=
  (rounds d views p k).see (views k)

/-- The loop ends with round `k`. -/
structure LoopEnds (d : Mp3Decoder σ) (views : Nat → BitVec w × Bool) (p : Pass w σ) (k : Nat) : Prop where
  goes_on : ∀ j < k, (pumpRound d (beforeRound d views p j)).2 = true
  stops : (pumpRound d (beforeRound d views p k)).2 = false

variable {d : Mp3Decoder σ} {views : Nat → BitVec w × Bool} {p : Pass w σ}

/-- No round touches the stage itself. -/
theorem stage_rounds (d : Mp3Decoder σ) (views : Nat → BitVec w × Bool) (p : Pass w σ) (k : Nat) :
    (rounds d views p k).ring.stage = p.ring.stage := by
  induction k with
  | zero => rfl
  | succ k ih => exact (pumpRound_frame d (beforeRound d views p k)).1.trans ih

/-- `used` stays within the stage throughout. -/
theorem used_rounds_le (hd : d.Consumes) (hp : p.used ≤ p.ring.stage.length) (k : Nat) :
    (rounds d views p k).used ≤ p.ring.stage.length := by
  induction k with
  | zero => exact hp
  | succ k ih =>
      have hstage := stage_rounds d views p k
      have hused := (pumpRound_used hd.consumed_le (p := beforeRound d views p k)
        (by rw [beforeRound, Pass.see, hstage]; exact ih)).2
      rw [beforeRound, Pass.see, hstage] at hused
      exact hused

/-- The rounds that go on use up a byte each. -/
theorem le_used_rounds (k : Nat) (h : ∀ j < k, (pumpRound d (beforeRound d views p j)).2 = true) :
    p.used + k ≤ (rounds d views p k).used := by
  induction k with
  | zero => exact Nat.le_refl _
  | succ k ih =>
      have hbefore := ih fun j hj => h j (Nat.lt_succ_of_lt hj)
      have hround := (pumpRound_lt (h k (Nat.lt_succ_self k))).2
      have hused : (beforeRound d views p k).used = (rounds d views p k).used := rfl
      rw [hused] at hround
      show p.used + (k + 1) ≤ (pumpRound d (beforeRound d views p k)).1.used
      omega

/-- **The loop ends**, after no more rounds than there are staged bytes. -/
theorem loopEnds (hd : d.Consumes) (views : Nat → BitVec w × Bool) (hp : p.used ≤ p.ring.stage.length) :
    ∃ k ≤ p.ring.stage.length - p.used, LoopEnds d views p k := by
  classical
  -- were all of these rounds to go on, they would use more bytes than are staged
  have hstops : ∃ k, (pumpRound d (beforeRound d views p k)).2 = false := by
    by_contra hnone
    have hgo : ∀ k, (pumpRound d (beforeRound d views p k)).2 = true := by
      intro k
      by_contra hstop
      exact hnone ⟨k, by simpa using hstop⟩
    have hlow := le_used_rounds (p.ring.stage.length + 1) fun j _ => hgo j
    have hhigh : (rounds d views p (p.ring.stage.length + 1)).used ≤ p.ring.stage.length :=
      used_rounds_le hd hp _
    omega
  have hgoes : ∀ j < Nat.find hstops, (pumpRound d (beforeRound d views p j)).2 = true := by
    intro j hj
    simpa using Nat.find_min hstops hj
  refine ⟨Nat.find hstops, ?_, hgoes, Nat.find_spec hstops⟩
  have hlow := le_used_rounds (Nat.find hstops) hgoes
  have hhigh : (rounds d views p (Nat.find hstops)).used ≤ p.ring.stage.length := used_rounds_le hd hp _
  omega

/-- Used bytes stay used. -/
theorem used_rounds_mono (d : Mp3Decoder σ) (views : Nat → BitVec w × Bool) (p : Pass w σ) (k : Nat) :
    (rounds d views p 1).used ≤ (rounds d views p (k + 1)).used := by
  induction k with
  | zero => exact Nat.le_refl _
  | succ k ih => exact ih.trans (used_le_pumpRound d (beforeRound d views p (k + 1)))

/-! ## A pass that nobody interrupts -/

/-- The rounds see the cursor and the flag of the start. -/
theorem see_rounds (hviews : ∀ j, views j = (p.ring.pcmRd, p.ring.eof)) (k : Nat) :
    (rounds d views p k).ring.pcmRd = p.ring.pcmRd ∧ (rounds d views p k).ring.eof = p.ring.eof := by
  cases k with
  | zero => exact ⟨rfl, rfl⟩
  | succ k =>
      obtain ⟨-, heof, hrd, -⟩ := pumpRound_frame d (beforeRound d views p k)
      rw [beforeRound, Pass.see, hviews k] at heof hrd
      constructor
      · rw [rounds, Pass.see, hviews k]
        exact hrd
      · rw [rounds, Pass.see, hviews k]
        exact heof

theorem beforeRound_eq (hviews : ∀ j, views j = (p.ring.pcmRd, p.ring.eof)) (k : Nat) :
    beforeRound d views p k = rounds d views p k := by
  obtain ⟨hrd, heof⟩ := see_rounds (d := d) hviews k
  rw [beforeRound, Pass.see, hviews k, ← hrd, ← heof]

theorem rounds_succ (hviews : ∀ j, views j = (p.ring.pcmRd, p.ring.eof)) (k : Nat) :
    rounds d views p (k + 1) = (pumpRound d (rounds d views p k)).1 := by
  rw [rounds]
  change (pumpRound d (beforeRound d views p k)).1 = _
  rw [beforeRound_eq hviews]

/-- `pumpLoop` runs the rounds up to the one that stops. -/
theorem pumpLoop_eq_rounds (hviews : ∀ j, views j = (p.ring.pcmRd, p.ring.eof)) {k : Nat}
    (h : LoopEnds d views p k) :
    ∀ (m j : Nat), j + m = k → ∀ fuel, m < fuel →
      pumpLoop d fuel (rounds d views p j) = rounds d views p (k + 1) := by
  intro m
  induction m with
  | zero =>
      rintro j rfl fuel hfuel
      obtain ⟨fuel, rfl⟩ : ∃ n, fuel = n + 1 := ⟨fuel - 1, by omega⟩
      have hstop := h.stops
      rw [Nat.add_zero, beforeRound_eq hviews] at hstop
      rw [pumpLoop, Nat.add_zero, rounds_succ hviews]
      cases hres : pumpRound d (rounds d views p j) with
      | mk p' go =>
          rw [hres] at hstop
          cases hstop
          rfl
  | succ m ih =>
      intro j hj fuel hfuel
      obtain ⟨fuel, rfl⟩ : ∃ n, fuel = n + 1 := ⟨fuel - 1, by omega⟩
      have hgo := h.goes_on j (by omega)
      rw [beforeRound_eq hviews] at hgo
      have hnext := rounds_succ (d := d) hviews j
      rw [pumpLoop]
      cases hres : pumpRound d (rounds d views p j) with
      | mk p' go =>
          rw [hres] at hgo hnext
          cases hgo
          have hrest := ih (j + 1) (by omega) fuel (by omega)
          rw [hnext] at hrest
          exact hrest

/-- **The pump terminates and a deep stage does not block it.** Whatever the rounds see, the loop ends within as
many of them as there are staged bytes, with `used` inside the stage throughout, and no resync is answered
with the head of the stage. When the topped-up stage holds more than 8192 bytes and the first round sees PCM
space, the pass takes something off the stage. Without interruptions this is `cqDecringPump`. -/
theorem pump_ends (hd : d.Consumes) (s : σ) (r : CqDecring w) (views : Nat → BitVec w × Bool) :
    let p := pumpStart s r
    ∃ k ≤ p.ring.stage.length,
      LoopEnds d views p k ∧
      (∀ j ≤ k + 1, (rounds d views p j).used ≤ p.ring.stage.length) ∧
      (8192 < p.ring.stage.length → PcmRoom (beforeRound d views p 0).ring →
        (pumpFinish (rounds d views p (k + 1))).ring.stage.length < p.ring.stage.length) ∧
      (∀ j ≤ k, GateHolds (beforeRound d views p j).ring.eof (beforeRound d views p j).rest →
        8192 < (beforeRound d views p j).rest.length →
        ∀ f, cqMp3Sync (beforeRound d views p j).rest ≠ some (0, f)) ∧
      ((∀ j, views j = (r.pcmRd, r.eof)) →
        cqDecringPump d s r = pumpFinish (rounds d views p (k + 1))) := by
  intro p
  have hstart : p.used ≤ p.ring.stage.length := Nat.zero_le _
  obtain ⟨k, hk, hends⟩ := loopEnds hd views hstart
  refine ⟨k, hk.trans (Nat.sub_le _ _), hends, fun j _ => used_rounds_le hd hstart j, ?_, ?_, ?_⟩
  · intro hdeep hroom
    have hfirst := pumpRound_deep hd.advances hroom (p := beforeRound d views p 0) hdeep
    have hlater := used_rounds_mono d views p k
    have hused : 0 < (rounds d views p (k + 1)).used := lt_of_lt_of_le hfirst hlater
    simp only [pumpFinish, List.length_drop, stage_rounds]
    omega
  · intro j _ hgate hdeep f hsync
    exact absurd (sync_pos_of_gate hgate hdeep hsync) (Nat.lt_irrefl 0)
  · intro hviews
    have hviews' : ∀ j, views j = (p.ring.pcmRd, p.ring.eof) := by
      intro j
      rw [hviews j]
      show _ = ((pumpTopUp r).pcmRd, (pumpTopUp r).eof)
      rw [pumpTopUp_spec]
    show pumpFinish (pumpLoop d (p.ring.stage.length + 1) p) = _
    have hloop := pumpLoop_eq_rounds hviews' hends k 0 (Nat.zero_add k) (p.ring.stage.length + 1)
      (by omega)
    rw [← hloop]
    rfl

/-- A ring that has staged `xs`. -/
def stagedRing (xs : Bytes) : CqDecring 32 := { spliceRing with stage := xs }

theorem pumpStart_stagedRing (xs : Bytes) :
    (pumpStart () (stagedRing xs)).ring = stagedRing xs ∧ (pumpStart () (stagedRing xs)).rest = xs := by
  have hring : (pumpStart () (stagedRing xs)).ring = stagedRing xs :=
    (pumpTopUp_of_eq (show (stagedRing xs).compWr = (stagedRing xs).compRd from rfl)).2
  exact ⟨hring, by rw [Pass.rest, hring]; rfl⟩

/-- Two rounds over deep junk with frames behind it: the first skips the junk, the second decodes a frame. -/
theorem twoRounds_junked {p : Pass 32 Unit} (hrest : p.rest = junked) (hroom : PcmRoom p.ring) :
    ∃ q, pumpRound silenceDecoder p = (q, true) ∧
      pumpRound silenceDecoder q = (q.decodeFrame silenceDecoder shortFrame, true) ∧
      q.ring.resyncs = p.ring.resyncs + 1 ∧ q.ring.frames = p.ring.frames := by
  have hlen : p.rest.length = 8251 := by rw [hrest, length_junked]
  have hgate : AtGate p := atGate_zeros hrest (by decide) hroom
  obtain ⟨f, hsync⟩ := sync_zeros_frames 8193 isFrame_shortFrame isFrame_shortFrame (shortFrame.take 10)
  rw [← junked, ← hrest] at hsync
  refine ⟨_, pumpRound_resync silenceDecoder hgate (by omega) hsync (by decide), ?_, rfl, rfl⟩
  have hnext : p.ring.stage.drop (p.used + 8193) = shortFrame ++ (shortFrame ++ shortFrame.take 10) := by
    rw [← List.drop_drop, ← Pass.rest, hrest, junked, List.drop_left' List.length_replicate]
  refine pumpRound_decode (silenceDecoder_exact 2 24000) hroom hnext isFrame_shortFrame
    (isFrame_shortFrame.nextOk _) ?_
  rw [Pass.rest, hnext]
  exact not_gateHolds_shortFrames _ _

/-- The pass skips the junk, decodes a frame, goes on, and takes something off the stage. -/
theorem pump_ends_sample :
    ∃ k, LoopEnds silenceDecoder (fun _ => (0, false)) (pumpStart () (stagedRing junked)) k ∧ 2 ≤ k ∧
      (rounds silenceDecoder (fun _ => (0, false)) (pumpStart () (stagedRing junked)) 2).ring.resyncs = 1 ∧
      (rounds silenceDecoder (fun _ => (0, false)) (pumpStart () (stagedRing junked)) 2).ring.frames = 1 ∧
      (cqDecringPump silenceDecoder () (stagedRing junked)).ring.stage.length < junked.length := by
  obtain ⟨hring, hrest⟩ := pumpStart_stagedRing junked
  have hviews : ∀ j, (fun _ : Nat => ((0 : BitVec 32), false)) j =
      ((pumpStart () (stagedRing junked)).ring.pcmRd, (pumpStart () (stagedRing junked)).ring.eof) := by
    rw [hring]
    exact fun _ => rfl
  have hroom : PcmRoom (pumpStart () (stagedRing junked)).ring := by
    rw [hring, PcmRoom]
    decide
  obtain ⟨q, hfirst, hsecond, hresyncs, hframes⟩ := twoRounds_junked hrest hroom
  have hone : rounds silenceDecoder (fun _ => (0, false)) (pumpStart () (stagedRing junked)) 1 = q := by
    rw [rounds_succ hviews, rounds, hfirst]
  have htwo : rounds silenceDecoder (fun _ => (0, false)) (pumpStart () (stagedRing junked)) 2 =
      q.decodeFrame silenceDecoder shortFrame := by
    rw [rounds_succ hviews, hone, hsecond]
  have hsamples : ¬ (silenceDecoder.decodeFrame q.dec shortFrame).2.samples ≤ 0 :=
    show ¬ (silenceDecoder.decodeFrame () shortFrame).2.samples ≤ 0 by decide +kernel
  obtain ⟨k, -, hends, -, hless, -, hpump⟩ :=
    pump_ends silenceDecoder_consumes () (stagedRing junked) (fun _ => (0, false))
  refine ⟨k, hends, ?_, ?_, ?_, ?_⟩
  · -- the rounds 0 and 1 go on
    have hstop := hends.stops
    rw [beforeRound_eq hviews] at hstop
    by_contra hlt
    have hcase : k = 0 ∨ k = 1 := by omega
    rcases hcase with rfl | rfl
    · rw [rounds, hfirst] at hstop
      cases hstop
    · rw [hone, hsecond] at hstop
      cases hstop
  · rw [htwo, Pass.decodeFrame, if_neg hsamples]
    exact hresyncs.trans (by rw [hring]; rfl)
  · rw [htwo, Pass.decodeFrame, if_neg hsamples]
    exact congrArg (· + 1) (hframes.trans (by rw [hring]; rfl))
  · have hstage : (pumpStart () (stagedRing junked)).ring.stage = junked := by
      rw [hring]
      rfl
    rw [hstage] at hless
    rw [hpump fun _ => rfl]
    refine hless (by rw [length_junked]; decide) ?_
    rw [beforeRound_eq hviews]
    exact hroom

end Casquinha.Decode
