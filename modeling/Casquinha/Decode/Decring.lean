import Casquinha.Decode.Mp3
import Casquinha.Lib.Ring

/-!
# The decode pipeline (`src/cq_decring.c`)

A compressed ring, a private stage and a PCM ring. The producer claims and commits bytes of the
compressed ring; `cqDecringPump` moves them to the stage and decodes staged frames into the PCM
ring; the sound interrupt reads the PCM ring. Cursors are byte counters of `w` bits, the width of
`unsigned long`; the sizes are numbers of that width.

The pump is cut at the places where it reads a cursor of another party: `pumpTopUp` reads `comp_wr`,
every round of the decode loop (`pumpRound`) reads `*pcm_rd` and `eof`, and `pumpFinish` compacts the
stage. The decoder behind `cq_mp3dec_frame` is a parameter. The injected clock and the time it
measures are left out.
-/

set_option autoImplicit false

namespace Casquinha.Decode

open Lib

/-- `CQ_DECRING_STAGE`. -/
def cqDecringStage : Nat := 64 * 1024

/-- `CQ_MP3DEC_MAX_SAMPLES`. -/
def cqMp3decMaxSamples : Nat := 1152 * 2

/-! ## The decoder -/

/-- What one decoder call reports: the samples per channel it returns, the channel count, the bytes
it consumed, and the decoded bytes at the start of the frame buffer. -/
structure Mp3Out where
  samples : Int
  channels : Nat
  consumed : Int
  pcm : Bytes
  length_pcm : pcm.length = samples.toNat * channels * 2

/-- The outputs of a call that decodes nothing. -/
def Mp3Out.nothing : Mp3Out :=
  { samples := 0
    channels := 0
    consumed := 0
    pcm := []
    length_pcm := rfl }

/-- A decoder with states `σ`: `mp3dec_decode_frame`. -/
structure Mp3Decoder (σ : Type) where
  decodeFrame : σ → Bytes → σ × Mp3Out

/-- The decoder returns no more than it was given room for, and consumes no more than it got. -/
structure Mp3Decoder.Bounded {σ : Type} (d : Mp3Decoder σ) : Prop where
  consumed_nonneg : ∀ s buf, 0 ≤ (d.decodeFrame s buf).2.consumed
  consumed_le : ∀ s buf, (d.decodeFrame s buf).2.consumed ≤ buf.length
  samples_le : ∀ s buf, (d.decodeFrame s buf).2.samples.toNat * (d.decodeFrame s buf).2.channels ≤
    cqMp3decMaxSamples

/-- `cq_mp3dec_frame`. -/
def cqMp3decFrame {σ : Type} (d : Mp3Decoder σ) (s : σ) (buf : Bytes) : σ × Mp3Out :=
  if buf.length = 0 then (s, .nothing) else d.decodeFrame s buf

/-! ## The ring -/

/-- `cq_decring`. The bytes of `stage` are the first `stage_len` bytes of the workspace. -/
structure CqDecring (w : Nat) where
  comp : Nat → UInt8
  compSize : BitVec w
  compWr : BitVec w
  compRd : BitVec w
  eof : Bool
  stage : Bytes
  pcm : Nat → UInt8
  pcmSize : BitVec w
  pcmWr : BitVec w
  pcmRd : BitVec w
  frames : Nat
  resyncs : Nat
  resyncBytes : Nat
  flushes : Nat
  pcmTotal : Nat

variable {w : Nat} {σ : Type}

/-- `cq_decring_init`, on the buffers and cursors the application owns. -/
def cqDecringInit (comp : Nat → UInt8) (compSize : BitVec w) (pcm : Nat → UInt8)
    (pcmSize pcmWr pcmRd : BitVec w) : CqDecring w :=
  { comp := comp
    compSize := compSize
    compWr := 0
    compRd := 0
    eof := false
    stage := []
    pcm := pcm
    pcmSize := pcmSize
    pcmWr := pcmWr
    pcmRd := pcmRd
    frames := 0
    resyncs := 0
    resyncBytes := 0
    flushes := 0
    pcmTotal := 0 }

/-- `cq_decring_space`. -/
def cqDecringSpace (r : CqDecring w) : BitVec w := r.compSize - (r.compWr - r.compRd)

/-- `cq_decring_claim`: the write position and the bytes writable there without wrapping. -/
def cqDecringClaim (r : CqDecring w) : BitVec w × BitVec w :=
  let space := cqDecringSpace r
  let wr := r.compWr % r.compSize
  let lin := r.compSize - wr
  (wr, if space < lin then space else lin)

/-- The producer's copy of `xs` to the claimed position. -/
def fillClaim (r : CqDecring w) (pos : BitVec w) (xs : Bytes) : CqDecring w :=
  { r with comp := blit r.comp pos.toNat xs }

/-- `cq_decring_commit`. -/
def cqDecringCommit (r : CqDecring w) (n : Nat) : CqDecring w :=
  { r with compWr := r.compWr + BitVec.ofNat w n }

/-- `cq_decring_eof`. -/
def cqDecringEof (r : CqDecring w) : CqDecring w := { r with eof := true }

/-- `cq_decring_idle`. -/
def cqDecringIdle (r : CqDecring w) : Bool := r.compWr == r.compRd && r.stage.length == 0

/-- `cq_decring_reset`. -/
def cqDecringReset (r : CqDecring w) : CqDecring w :=
  { r with
    compWr := 0
    compRd := 0
    eof := false
    stage := []
    frames := 0
    resyncs := 0
    resyncBytes := 0
    flushes := 0
    pcmTotal := 0 }

/-! ## The pump -/

/-- Free bytes of the PCM ring. -/
def pcmSpace (r : CqDecring w) : BitVec w := r.pcmSize - (r.pcmWr - r.pcmRd)

/-- The PCM ring has room for a frame of the largest size. -/
def PcmRoom (r : CqDecring w) : Prop := cqMp3decMaxSamples * 2 ≤ (pcmSpace r).toNat

instance (r : CqDecring w) : Decidable (PcmRoom r) := inferInstanceAs (Decidable (_ ≤ _))

/-- Bytes the top-up takes: `avail < room ? avail : room`. -/
def topUpTake (r : CqDecring w) : Nat :=
  let avail := (r.compWr - r.compRd).toNat
  let room := cqDecringStage - r.stage.length
  if avail < room then avail else room

/-- The first block of the pump: top up the stage from the compressed ring. -/
def pumpTopUp (r : CqDecring w) : CqDecring w :=
  let take := topUpTake r
  if take = 0 then r
  else
    { r with
      stage := r.stage ++
        ringRead r.compSize.toNat r.comp (r.compRd % r.compSize).toNat take
      compRd := r.compRd + BitVec.ofNat w take }

/-- Put decoded bytes into the PCM ring. -/
def pumpPut (r : CqDecring w) (pcm : Bytes) : CqDecring w :=
  { r with
    frames := r.frames + 1
    pcm := ringWrite r.pcmSize.toNat r.pcm (r.pcmWr % r.pcmSize).toNat pcm
    pcmWr := r.pcmWr + BitVec.ofNat w pcm.length
    pcmTotal := r.pcmTotal + pcm.length }

/-- A pump pass under way: the ring, the decoder, and the locals `used` and `progress`. The last two
fields are history: the buffers handed to the decoder so far and the bytes it has decoded. -/
structure Pass (w : Nat) (σ : Type) where
  ring : CqDecring w
  dec : σ
  used : Nat
  progress : Bool
  fed : List Bytes
  decoded : Bytes

/-- The staged bytes from `used` on. -/
def Pass.rest (p : Pass w σ) : Bytes := p.ring.stage.drop p.used

/-- `wf < (r->eof ? 1 : 2)`: the tail gate holds the staged bytes back. -/
def GateHolds (eof : Bool) (rest : Bytes) : Prop := walkFrames rest 2 < if eof then 1 else 2

instance (eof : Bool) (rest : Bytes) : Decidable (GateHolds eof rest) :=
  inferInstanceAs (Decidable (_ < _))

/-- The gate's branch: resync or flush a deep stage. The flag says `continue`. -/
def pumpHeld (p : Pass w σ) : Pass w σ × Bool :=
  if 8192 < p.rest.length then
    match cqMp3Sync p.rest with
    | some (off, _) =>
        -- a sync at the head itself is left to the gate
        if 0 < off then
          ({ p with
            ring :=
              { p.ring with
                resyncs := p.ring.resyncs + 1
                resyncBytes := p.ring.resyncBytes + off }
            used := p.used + off }, true)
        else (p, false)
    -- everything staged goes, a header that was only waiting for its successor included
    | none =>
        ({ p with
          ring := { p.ring with flushes := p.ring.flushes + 1 }
          used := p.ring.stage.length }, false)
  else (p, false)

/-- The decoder call and what follows it. The flag says `continue`. -/
def pumpDecode (d : Mp3Decoder σ) (p : Pass w σ) : Pass w σ × Bool :=
  let call := cqMp3decFrame d p.dec p.rest
  let out := call.2
  let p := { p with dec := call.1, fed := p.fed ++ [p.rest] }
  if out.consumed ≤ 0 then (p, false)
  else
    let p := { p with used := p.used + out.consumed.toNat, progress := true }
    -- the decoder has skipped junk
    if out.samples ≤ 0 then (p, true)
    else ({ p with ring := pumpPut p.ring out.pcm, decoded := p.decoded ++ out.pcm }, true)

/-- One round of the decode loop. The flag says whether the loop goes on. -/
def pumpRound (d : Mp3Decoder σ) (p : Pass w σ) : Pass w σ × Bool :=
  if ¬ PcmRoom p.ring then (p, false)
  else if p.ring.stage.length ≤ p.used then (p, false)
  else if GateHolds p.ring.eof p.rest then pumpHeld p
  else pumpDecode d p

/-- `for (;;)`: every round that goes on uses up a staged byte. -/
def pumpLoop (d : Mp3Decoder σ) : Nat → Pass w σ → Pass w σ
  | 0, p => p
  | fuel + 1, p =>
      match pumpRound d p with
      | (p', true) => pumpLoop d fuel p'
      | (p', false) => p'

/-- `if (used)`: compact the stage. -/
def pumpFinish (p : Pass w σ) : Pass w σ :=
  { p with
    ring := { p.ring with stage := p.ring.stage.drop p.used }
    used := 0 }

/-- The pass that the top-up leaves. -/
def pumpStart (s : σ) (r : CqDecring w) : Pass w σ :=
  { ring := pumpTopUp r
    dec := s
    used := 0
    progress := topUpTake r ≠ 0
    fed := []
    decoded := [] }

/-- `cq_decring_pump`: `progress` is its result. -/
def cqDecringPump (d : Mp3Decoder σ) (s : σ) (r : CqDecring w) : Pass w σ :=
  let p := pumpStart s r
  pumpFinish (pumpLoop d (p.ring.stage.length + 1) p)

/-! ## What a round does -/

@[simp] theorem pumpPut_stage (r : CqDecring w) (pcm : Bytes) : (pumpPut r pcm).stage = r.stage := rfl

/-- The rings after a round: only telemetry has changed, or one decoded frame has been put. -/
theorem pumpRound_ring (d : Mp3Decoder σ) (p : Pass w σ) :
    (∃ n m k, (pumpRound d p).1.ring =
        { p.ring with resyncs := n, resyncBytes := m, flushes := k } ∧
      (pumpRound d p).1.decoded = p.decoded) ∨
    (PcmRoom p.ring ∧ ∃ out, out = (cqMp3decFrame d p.dec p.rest).2 ∧
      (pumpRound d p).1.ring = pumpPut p.ring out.pcm ∧
      (pumpRound d p).1.decoded = p.decoded ++ out.pcm) := by
  by_cases hroom : PcmRoom p.ring
  · by_cases hdry : p.ring.stage.length ≤ p.used
    · -- nothing is staged
      have hstop : pumpRound d p = (p, false) := by simp [pumpRound, hroom, hdry]
      rw [hstop]
      exact Or.inl ⟨_, _, _, rfl, rfl⟩
    · by_cases hgate : GateHolds p.ring.eof p.rest
      · -- the gate holds: a resync or a flush is counted, or nothing
        left
        simp only [pumpRound, hroom, hdry, hgate, not_true_eq_false, if_false, if_true, pumpHeld]
        split
        · split
          · split
            · exact ⟨_, _, _, rfl, rfl⟩
            · exact ⟨_, _, _, rfl, rfl⟩
          · exact ⟨_, _, _, rfl, rfl⟩
        · exact ⟨_, _, _, rfl, rfl⟩
      · -- the decoder is called; without samples there is nothing to put
        simp only [pumpRound, hroom, hdry, hgate, not_true_eq_false, if_false, pumpDecode]
        split
        · exact Or.inl ⟨_, _, _, rfl, rfl⟩
        · split
          · exact Or.inl ⟨_, _, _, rfl, rfl⟩
          · exact Or.inr ⟨trivial, _, rfl, rfl, rfl⟩
  · -- no room for a frame of PCM
    have hstop : pumpRound d p = (p, false) := by simp [pumpRound, hroom]
    rw [hstop]
    exact Or.inl ⟨_, _, _, rfl, rfl⟩

/-- A confirmed frame starts inside the buffer. -/
theorem syncLoop_le {buf : Bytes} {off : Nat} {f : CqMp3Frame} :
    ∀ (fuel i : Nat), syncLoop buf fuel i = some (off, f) → off + 4 ≤ buf.length := by
  intro fuel
  induction fuel with
  | zero => intro i h; cases h
  | succ fuel ih =>
      intro i h
      rw [syncLoop] at h
      split at h
      · next hlt =>
        split at h
        · exact ih _ h
        · split at h
          · cases h
          · split at h
            · exact ih _ h
            · split at h
              · cases h
                exact hlt
              · exact ih _ h
      · cases h

theorem cqMp3decFrame_consumed_le {d : Mp3Decoder σ}
    (hd : ∀ s buf, (d.decodeFrame s buf).2.consumed ≤ buf.length) (s : σ) (buf : Bytes) :
    (cqMp3decFrame d s buf).2.consumed ≤ buf.length := by
  rw [cqMp3decFrame]
  split
  · exact Int.natCast_nonneg _
  · exact hd s buf

theorem cqMp3decFrame_pcm_le {d : Mp3Decoder σ} (hd : d.Bounded) (s : σ) (buf : Bytes) :
    (cqMp3decFrame d s buf).2.pcm.length ≤ cqMp3decMaxSamples * 2 := by
  rw [Mp3Out.length_pcm, cqMp3decFrame]
  split
  · exact Nat.zero_le _
  · exact Nat.mul_le_mul_right 2 (hd.samples_le s buf)

/-- `used` only grows and stays within the stage, when the decoder consumes no more than it gets. -/
theorem pumpRound_used {d : Mp3Decoder σ}
    (hd : ∀ s buf, (d.decodeFrame s buf).2.consumed ≤ buf.length) {p : Pass w σ}
    (hp : p.used ≤ p.ring.stage.length) :
    p.used ≤ (pumpRound d p).1.used ∧ (pumpRound d p).1.used ≤ p.ring.stage.length := by
  have hrest : p.rest.length = p.ring.stage.length - p.used := List.length_drop
  rw [pumpRound]
  split
  · exact ⟨le_refl _, hp⟩
  · split
    · exact ⟨le_refl _, hp⟩
    · split
      · rw [pumpHeld]
        split
        · split
          · next off f hsync =>
            -- a resync moves to a frame that starts within the stage
            have hoff : off + 4 ≤ p.rest.length := syncLoop_le _ _ hsync
            split
            · exact ⟨Nat.le_add_right _ _, by simp only; omega⟩
            · exact ⟨le_refl _, hp⟩
          · -- a flush uses up all of it
            exact ⟨hp, le_refl _⟩
        · exact ⟨le_refl _, hp⟩
      · -- the decoder consumes no more than it is given
        have hle := cqMp3decFrame_consumed_le hd p.dec p.rest
        simp only [pumpDecode]
        split
        · exact ⟨le_refl _, hp⟩
        · split
          · exact ⟨Nat.le_add_right _ _, by simp only; omega⟩
          · exact ⟨Nat.le_add_right _ _, by simp only; omega⟩

/-- A round that goes on has used up at least one staged byte. -/
theorem pumpRound_lt {d : Mp3Decoder σ} {p : Pass w σ} (hgo : (pumpRound d p).2 = true) :
    p.used < p.ring.stage.length ∧ p.used < (pumpRound d p).1.used := by
  rw [pumpRound] at hgo ⊢
  split at hgo
  · cases hgo
  · next hroom =>
    rw [if_neg hroom]
    split at hgo
    · cases hgo
    · next hdry =>
      rw [if_neg hdry]
      refine ⟨Nat.lt_of_not_le hdry, ?_⟩
      split at hgo
      · next hgate =>
        -- the gate holds, and only a resync goes on
        rw [if_pos hgate]
        rw [pumpHeld] at hgo ⊢
        split at hgo
        · split at hgo
          · split at hgo
            · next hdeep _ off _ _ hoff => simp [hdeep, hoff]
            · cases hgo
          · cases hgo
        · cases hgo
      · next hgate =>
        -- the decoder has consumed at least a byte
        rw [if_neg hgate]
        simp only [pumpDecode] at hgo ⊢
        split at hgo
        · cases hgo
        · next hpos =>
          rw [if_neg hpos]
          split <;> simp only <;> omega

/-- A round leaves the compressed ring, the stage and the flags of other parties alone. -/
theorem pumpRound_frame (d : Mp3Decoder σ) (p : Pass w σ) :
    (pumpRound d p).1.ring.stage = p.ring.stage ∧ (pumpRound d p).1.ring.eof = p.ring.eof ∧
      (pumpRound d p).1.ring.pcmRd = p.ring.pcmRd ∧ (pumpRound d p).1.ring.compWr = p.ring.compWr ∧
      (pumpRound d p).1.ring.compRd = p.ring.compRd := by
  rcases pumpRound_ring d p with ⟨n, m, k, hring, -⟩ | ⟨-, out, -, hring, -⟩ <;> rw [hring] <;>
    exact ⟨rfl, rfl, rfl, rfl, rfl⟩

/-- A round does not look at the history; it adds to it. -/
theorem pumpRound_history (d : Mp3Decoder σ) (p : Pass w σ) :
    let q := { p with fed := [], decoded := [] }
    (pumpRound d q).2 = (pumpRound d p).2 ∧ (pumpRound d q).1.ring = (pumpRound d p).1.ring ∧
      (pumpRound d q).1.dec = (pumpRound d p).1.dec ∧
      (pumpRound d q).1.used = (pumpRound d p).1.used ∧
      (pumpRound d q).1.progress = (pumpRound d p).1.progress ∧
      (pumpRound d p).1.decoded = p.decoded ++ (pumpRound d q).1.decoded := by
  simp only [pumpRound, pumpHeld, pumpDecode, Pass.rest]
  split
  · exact ⟨rfl, rfl, rfl, rfl, rfl, (List.append_nil _).symm⟩
  · split
    · exact ⟨rfl, rfl, rfl, rfl, rfl, (List.append_nil _).symm⟩
    · split
      · split
        · split
          · split <;> exact ⟨rfl, rfl, rfl, rfl, rfl, (List.append_nil _).symm⟩
          · exact ⟨rfl, rfl, rfl, rfl, rfl, (List.append_nil _).symm⟩
        · exact ⟨rfl, rfl, rfl, rfl, rfl, (List.append_nil _).symm⟩
      · -- the one place where the history grows
        by_cases hconsumed : (cqMp3decFrame d p.dec (p.ring.stage.drop p.used)).2.consumed ≤ 0
        · simp only [hconsumed, if_true, List.append_nil, and_self]
        · by_cases hsamples : (cqMp3decFrame d p.dec (p.ring.stage.drop p.used)).2.samples ≤ 0
          · simp only [hconsumed, hsamples, if_true, if_false, List.append_nil, and_self]
          · simp only [hconsumed, hsamples, if_false, List.nil_append, and_self]

/-- The loop leaves the stage, the compressed ring and the flags of other parties alone. -/
theorem pumpLoop_frame (d : Mp3Decoder σ) :
    ∀ (fuel : Nat) (p : Pass w σ),
      (pumpLoop d fuel p).ring.stage = p.ring.stage ∧ (pumpLoop d fuel p).ring.eof = p.ring.eof ∧
        (pumpLoop d fuel p).ring.pcmRd = p.ring.pcmRd ∧
        (pumpLoop d fuel p).ring.compWr = p.ring.compWr ∧
        (pumpLoop d fuel p).ring.compRd = p.ring.compRd := by
  intro fuel
  induction fuel with
  | zero => exact fun p => ⟨rfl, rfl, rfl, rfl, rfl⟩
  | succ fuel ih =>
      intro p
      have hround := pumpRound_frame d p
      rw [pumpLoop]
      cases hres : pumpRound d p with
      | mk p' go =>
          rw [hres] at hround
          cases go with
          | false => exact hround
          | true =>
              obtain ⟨hs, he, hr, hw, hrd⟩ := hround
              obtain ⟨hs', he', hr', hw', hrd'⟩ := ih p'
              exact ⟨hs'.trans hs, he'.trans he, hr'.trans hr, hw'.trans hw, hrd'.trans hrd⟩

/-- `used` only grows over the loop and stays within the stage. -/
theorem pumpLoop_used {d : Mp3Decoder σ} (hd : d.Bounded) :
    ∀ (fuel : Nat) (p : Pass w σ), p.used ≤ p.ring.stage.length →
      p.used ≤ (pumpLoop d fuel p).used ∧ (pumpLoop d fuel p).used ≤ p.ring.stage.length := by
  intro fuel
  induction fuel with
  | zero => exact fun p hp => ⟨le_refl _, hp⟩
  | succ fuel ih =>
      intro p hp
      have hstage := (pumpRound_frame d p).1
      have hused := pumpRound_used hd.consumed_le hp
      rw [pumpLoop]
      cases hres : pumpRound d p with
      | mk p' go =>
          rw [hres] at hstage hused
          cases go with
          | false => exact hused
          | true =>
              -- the bounds of the rounds behind it start where this one has stopped
              simp only at hstage hused
              have := ih p' (by rw [hstage]; exact hused.2)
              rw [hstage] at this
              exact ⟨hused.1.trans this.1, this.2⟩

/-- With nothing new in the compressed ring the top-up does nothing. -/
theorem pumpTopUp_of_eq {r : CqDecring w} (h : r.compWr = r.compRd) :
    topUpTake r = 0 ∧ pumpTopUp r = r := by
  have htake : topUpTake r = 0 := by
    have havail : (r.compWr - r.compRd).toNat = 0 := by rw [h, BitVec.sub_self]; rfl
    simp only [topUpTake, havail]
    split <;> omega
  exact ⟨htake, by rw [pumpTopUp, htake, if_pos rfl]⟩

end Casquinha.Decode
