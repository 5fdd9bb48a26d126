import Casquinha.Audio.Engine
import Casquinha.Decode.Leftover

/-!
# The end of a listen

A listen runs from `StartStream` over the sync to playback and ends in `StopAudio`. When the stream dies
during playback, the pump is to use up what is left, the hardware to play it, and `ServiceAudio` to
stop the engine once everything is empty and has been played.

Both rings do run empty: as long as something is in them, one of the three parties has something to do
(`settled_iff`). The stage need not. Bytes that the pump leaves alone (`LeftAlone`) stay there, and the exit
test waits for them; and it waits for playback that nothing has ever been decoded for. In these two
situations the engine is stranded, and there alone a settled listen does not end
(`dead_stream_ends_iff`).
-/

set_option autoImplicit false

namespace Casquinha.Audio

open Lib Decode

variable {σ : Type}

/-! ## The machine -/

/-- `CQ_AUD_COMP_MAX`. -/
def cqAudCompMax : Nat := 64 * 1024

/-- `StartStream` once there is a transaction. -/
def startStream (e : Engine σ) : Engine σ :=
  { e with
    gAuSt := .http
    out := { e.out with gStream := true } }

/-- Bytes go to the compressed ring, as many as one claim takes. -/
def putClaim (r : CqDecring 32) (xs : Bytes) : CqDecring 32 :=
  let claim := cqDecringClaim r
  let xs := xs.take claim.2.toNat
  cqDecringCommit (fillClaim r claim.1 xs) xs.length

/-- The sync of `ServiceAudio` has found a frame: the output is opened, and the staged bytes from the
frame on go to the compressed ring, which has room for them. -/
def startPlay (init : σ) (mpDecode : Bool) (f : CqMp3Frame) (gComp : Bytes) (e : Engine σ) :
    Engine σ :=
  let e := openAudioOutput init mpDecode f.channels e
  { e with
    gAuSt := .play
    out := { e.out with gDec := putClaim e.out.gDec gComp } }

/-- `st != CQ_TX_RUNNING` in `ServiceAudio`. -/
def streamDied (e : Engine σ) : Engine σ :=
  if e.gAuSt = .play then
    { e with
      out :=
        { e.out with
          gStream := false
          gDec := cqDecringEof e.out.gDec } }
  else stopAudio e

/-- What may happen next. -/
inductive EngineStep (σ : Type) where
  /-- `StartStream`. -/
  | tune
  /-- The response header ends. -/
  | header
  /-- The sync looks at the bytes in `gComp`. -/
  | sync (init : σ) (mpDecode : Bool) (gComp : Bytes)
  /-- A round of `DrainStreamToDec` gets `xs` from the socket. -/
  | drain (xs : Bytes)
  /-- The stream has ended. -/
  | die
  /-- A pump pass of the decode task. -/
  | pump
  /-- The hardware asks for a buffer. -/
  | doubleBack
  /-- The playback part of `ServiceAudio`. -/
  | service (start : SoundStart)
  /-- The user stops, or a limit of the pre-play stages does. -/
  | stop

def engineStep (d : Mp3Decoder σ) (e : Engine σ) : EngineStep σ → Option (Engine σ)
  | .tune => if e.gAuSt = .idle then some (startStream e) else none
  | .header => if e.gAuSt = .http then some { e with gAuSt := .sync } else none
  | .sync init mpDecode gComp =>
      if e.gAuSt = .sync ∧ gComp.length ≤ cqAudCompMax then
        (cqMp3Sync gComp).map fun answer =>
          startPlay init mpDecode answer.2 (gComp.drop answer.1) e
      else none
  | .drain xs =>
      if e.gAuSt = .play ∧ e.out.gStream = true ∧
          xs.length ≤ (cqDecringClaim e.out.gDec).2.toNat then
        some { e with out := { e.out with gDec := putClaim e.out.gDec xs } }
      else none
  | .die => if e.out.gStream = true then some (streamDied e) else none
  | .pump => if e.gAuSt = .play then some (pumpEngine d e) else none
  | .doubleBack =>
      if e.out.gPlaying = true then some { e with out := (audioDoubleBack e.out).1 } else none
  | .service start => some (serviceAudio d start e)
  | .stop => some (stopAudio e)

/-! ## Buffers, settled listens, stranded engines -/

/-- What is in the compressed ring, in the stage and in the PCM ring. -/
structure Buffers where
  comp : Bytes
  stage : Bytes
  pcm : Bytes
deriving DecidableEq

def buffers (s : Output) : Buffers :=
  { comp := ringRead s.gDec.compSize.toNat s.gDec.comp (s.gDec.compRd % s.gDec.compSize).toNat
      (backlog s.gDec)
    stage := s.gDec.stage
    pcm := ringBytes s (ringFill s) }

/-- In playback, without a stream. -/
def Dead (e : Engine σ) : Prop := e.gAuSt = .play ∧ e.out.gStream = false

instance (e : Engine σ) : Decidable (Dead e) := inferInstanceAs (Decidable (_ ∧ _))

/-- No party changes any of the buffers, however an attempt to start the channel may end. -/
structure Settled (d : Mp3Decoder σ) (e : Engine σ) : Prop where
  pump : buffers (pumpEngine d e).out = buffers e.out
  doubleBack : e.out.gPlaying = true → buffers (audioDoubleBack e.out).1 = buffers e.out
  service : ∀ start, buffers (serviceAudio d start e).out = buffers e.out

/-- A settled listen whose stream is dead is ended by the next `ServiceAudio`. -/
def Ends (d : Mp3Decoder σ) (e : Engine σ) : Prop :=
  Dead e → Settled d e → ∀ start, (serviceAudio d start e).gAuSt = .idle

/-- Both rings are empty, and the stage is left alone. -/
structure RanDry (s : Output) : Prop where
  comp : s.gDec.compWr = s.gDec.compRd
  stage : LeftAlone s.gDec.stage
  pcm : s.gDec.pcmWr = s.gDec.pcmRd

/-- The stream is dead and both rings are empty. A short rest without a whole frame at its head is in the
stage; or there is none, and playback has not started. -/
structure Stranded (e : Engine σ) : Prop where
  dead : Dead e
  comp : e.out.gDec.compWr = e.out.gDec.compRd
  pcm : e.out.gDec.pcmWr = e.out.gDec.pcmRd
  rest : (e.out.gDec.stage ≠ [] ∧ e.out.gDec.stage.length ≤ 8192 ∧ walkFrames e.out.gDec.stage 2 = 0) ∨
    (e.out.gDec.stage = [] ∧ e.out.gPlaying = false)

instance (e : Engine σ) : Decidable (Stranded e) :=
  decidable_of_iff (Dead e ∧ e.out.gDec.compWr = e.out.gDec.compRd ∧
      e.out.gDec.pcmWr = e.out.gDec.pcmRd ∧
      ((e.out.gDec.stage ≠ [] ∧ e.out.gDec.stage.length ≤ 8192 ∧ walkFrames e.out.gDec.stage 2 = 0) ∨
        (e.out.gDec.stage = [] ∧ e.out.gPlaying = false)))
    ⟨fun h => ⟨h.1, h.2.1, h.2.2.1, h.2.2.2⟩, fun h => ⟨h.1, h.2, h.3, h.4⟩⟩

/-! ## Reachable states -/

/-- Before playback there is a stream. In playback the PCM ring has its size, and without a stream `eof`
is set. -/
structure Engine.Inv (e : Engine σ) : Prop where
  tuning : e.gAuSt = .http ∨ e.gAuSt = .sync → e.out.gStream = true
  pcmSize : e.gAuSt = .play → e.out.gDec.pcmSize = BitVec.ofNat 32 cqAudRingBytes
  eof : e.gAuSt = .play → e.out.gStream = false → e.out.gDec.eof = true

/-- A state that is not in any phase of a listen. -/
theorem Engine.Inv.of_idle {e : Engine σ} (h : e.gAuSt = .idle) : e.Inv := by
  have hne : ∀ {st : App.AuState}, e.gAuSt = st → st = .idle := fun heq => heq.symm.trans h
  refine ⟨?_, fun hplay => absurd (hne hplay) (by decide), fun hplay => absurd (hne hplay) (by decide)⟩
  rintro (hhttp | hsync)
  · exact absurd (hne hhttp) (by decide)
  · exact absurd (hne hsync) (by decide)

/-- A step that keeps the phase, the stream, the flag and the size. -/
theorem Engine.Inv.of_same {e t : Engine σ} (h : e.Inv) (hst : t.gAuSt = e.gAuSt)
    (hstream : t.out.gStream = e.out.gStream) (hsize : t.out.gDec.pcmSize = e.out.gDec.pcmSize)
    (heof : t.out.gDec.eof = e.out.gDec.eof) : t.Inv := by
  refine ⟨?_, ?_, ?_⟩
  · rw [hst, hstream]
    exact h.tuning
  · rw [hst, hsize]
    exact h.pcmSize
  · rw [hst, hstream, heof]
    exact h.eof

/-- Playback starts on the stream it was tuned to, and on a PCM ring of its size. -/
theorem startPlay_frame (init : σ) (mpDecode : Bool) (f : CqMp3Frame) (gComp : Bytes)
    (e : Engine σ) :
    (startPlay init mpDecode f gComp e).out.gStream = e.out.gStream ∧
      (startPlay init mpDecode f gComp e).out.gDec.pcmSize = BitVec.ofNat 32 cqAudRingBytes := by
  simp only [startPlay, openAudioOutput, putClaim, cqDecringCommit, fillClaim, cqDecringInit]
  exact ⟨trivial, trivial⟩

theorem sizes_pumpRound {w : Nat} (d : Mp3Decoder σ) (p : Pass w σ) :
    (pumpRound d p).1.ring.pcmSize = p.ring.pcmSize ∧
      (pumpRound d p).1.ring.compSize = p.ring.compSize := by
  rcases pumpRound_ring d p with ⟨n, m, k, hring, -⟩ | ⟨-, out, -, hring, -⟩
  · rw [hring]
    exact ⟨rfl, rfl⟩
  · rw [hring]
    exact ⟨rfl, rfl⟩

theorem sizes_pumpLoop {w : Nat} (d : Mp3Decoder σ) :
    ∀ (fuel : Nat) (p : Pass w σ), (pumpLoop d fuel p).ring.pcmSize = p.ring.pcmSize ∧
      (pumpLoop d fuel p).ring.compSize = p.ring.compSize := by
  intro fuel
  induction fuel with
  | zero => exact fun p => ⟨rfl, rfl⟩
  | succ fuel ih =>
      intro p
      have hround := sizes_pumpRound d p
      rw [pumpLoop]
      cases hres : pumpRound d p with
      | mk p' go =>
          rw [hres] at hround
          cases go with
          | false => exact hround
          | true =>
              obtain ⟨hpcm, hcomp⟩ := ih p'
              exact ⟨hpcm.trans hround.1, hcomp.trans hround.2⟩

/-- A pass does not change the sizes of the rings. -/
theorem sizes_pump {w : Nat} (d : Mp3Decoder σ) (s : σ) (r : CqDecring w) :
    (cqDecringPump d s r).ring.pcmSize = r.pcmSize ∧
      (cqDecringPump d s r).ring.compSize = r.compSize := by
  have hstart : (pumpStart s r).ring.pcmSize = r.pcmSize ∧
      (pumpStart s r).ring.compSize = r.compSize := by
    rw [pumpStart, pumpTopUp_spec]
    exact ⟨rfl, rfl⟩
  obtain ⟨hpcm, hcomp⟩ := sizes_pumpLoop d ((pumpStart s r).ring.stage.length + 1) (pumpStart s r)
  simp only [cqDecringPump, pumpFinish]
  exact ⟨hpcm.trans hstart.1, hcomp.trans hstart.2⟩

theorem Engine.Inv.pump {e : Engine σ} (h : e.Inv) (d : Mp3Decoder σ) : (pumpEngine d e).Inv :=
  h.of_same rfl rfl (sizes_pump d e.dec e.out.gDec).1 (cqDecringPump_frame d e.dec e.out.gDec).1

/-- A buffer for the hardware moves the read cursor and no other. -/
theorem audioDoubleBack_frame (s : Output) :
    (audioDoubleBack s).1.gStream = s.gStream ∧ (audioDoubleBack s).1.gPlaying = s.gPlaying ∧
      (audioDoubleBack s).1.gDec = { s.gDec with pcmRd := (audioDoubleBack s).1.gDec.pcmRd } := by
  simp only [audioDoubleBack, advance, applyTrim]
  split <;> exact ⟨rfl, rfl, rfl⟩

theorem Engine.Inv.doubleBack {e : Engine σ} (h : e.Inv) :
    Engine.Inv { e with out := (audioDoubleBack e.out).1 } := by
  obtain ⟨hstream, -, hdec⟩ := audioDoubleBack_frame e.out
  refine h.of_same ?_ hstream ?_ ?_
  · rfl
  · rw [hdec]
  · rw [hdec]

/-- Both buffers are filled, or there is no channel. -/
theorem startDoubleBuffer_frame (start : SoundStart) (s : Output) :
    (startDoubleBuffer start s).1.gStream = s.gStream ∧
      (startDoubleBuffer start s).1.gDec =
        { s.gDec with pcmRd := (startDoubleBuffer start s).1.gDec.pcmRd } := by
  obtain ⟨hstream, -, hdec⟩ := audioDoubleBack_frame s
  obtain ⟨hstream', -, hdec'⟩ := audioDoubleBack_frame (audioDoubleBack s).1
  have hboth : (audioDoubleBack (audioDoubleBack s).1).1.gDec =
      { s.gDec with pcmRd := (audioDoubleBack (audioDoubleBack s).1).1.gDec.pcmRd } := by
    rw [hdec', hdec]
  cases start with
  | noChannel => exact ⟨rfl, rfl⟩
  | refused | playing =>
      simp only [startDoubleBuffer]
      exact ⟨hstream'.trans hstream, hboth⟩

theorem Engine.Inv.startOutput {e : Engine σ} (h : e.Inv) (start : SoundStart) :
    (startOutput start e).Inv := by
  rw [Audio.startOutput]
  split
  · obtain ⟨hstream, hdec⟩ := startDoubleBuffer_frame start e.out
    cases hres : startDoubleBuffer start e.out with
    | mk out started =>
        rw [hres] at hstream hdec
        cases started with
        | true =>
            refine h.of_same ?_ hstream ?_ ?_
            · rfl
            · rw [hdec]
            · rw [hdec]
        | false => exact Engine.Inv.of_idle rfl
  · exact h

theorem latencyTrim_frame (s : Output) :
    (latencyTrim s).gStream = s.gStream ∧ (latencyTrim s).gPlaying = s.gPlaying ∧
      (latencyTrim s).gDec = s.gDec := by
  rw [latencyTrim]
  split
  · dsimp only
    split <;> exact ⟨rfl, rfl, rfl⟩
  · exact ⟨rfl, rfl, rfl⟩

theorem Engine.Inv.trimOrExit {e : Engine σ} (h : e.Inv) : (trimOrExit e).Inv := by
  obtain ⟨hstream, -, hdec⟩ := latencyTrim_frame e.out
  rw [Audio.trimOrExit]
  split
  · dsimp only
    split
    · exact Engine.Inv.of_idle rfl
    · refine h.of_same ?_ hstream ?_ ?_
      · rfl
      · rw [hdec]
      · rw [hdec]
  · exact h

theorem Engine.Inv.service {e : Engine σ} (h : e.Inv) (d : Mp3Decoder σ) (start : SoundStart) :
    (serviceAudio d start e).Inv := by
  rw [serviceAudio]
  split
  · apply Engine.Inv.trimOrExit
    apply Engine.Inv.startOutput
    split
    · exact h
    · exact h.pump d
  · exact h

/-- **Every step** keeps the invariant. -/
theorem Engine.Inv.step {d : Mp3Decoder σ} {e t : Engine σ} {a : EngineStep σ} (h : e.Inv)
    (ht : engineStep d e a = some t) : t.Inv := by
  cases a with
  | tune =>
      simp only [engineStep, Option.ite_none_right_eq_some, Option.some.injEq] at ht
      obtain ⟨-, rfl⟩ := ht
      refine ⟨fun _ => rfl, ?_, ?_⟩
      · rintro ⟨⟩
      · rintro ⟨⟩
  | header =>
      simp only [engineStep, Option.ite_none_right_eq_some, Option.some.injEq] at ht
      obtain ⟨hhttp, rfl⟩ := ht
      refine ⟨fun _ => h.tuning (Or.inl hhttp), ?_, ?_⟩
      · rintro ⟨⟩
      · rintro ⟨⟩
  | sync init mpDecode gComp =>
      simp only [engineStep, Option.ite_none_right_eq_some, Option.map_eq_some_iff] at ht
      obtain ⟨⟨hsync, -⟩, answer, -, rfl⟩ := ht
      obtain ⟨hkeep, hsize⟩ :=
        startPlay_frame init mpDecode answer.2 (gComp.drop answer.1) e
      rw [h.tuning (Or.inr hsync)] at hkeep
      -- the stream is alive when playback begins
      refine ⟨fun _ => hkeep, fun _ => hsize, ?_⟩
      intro _ hdead
      rw [hkeep] at hdead
      cases hdead
  | drain xs =>
      simp only [engineStep, Option.ite_none_right_eq_some, Option.some.injEq] at ht
      obtain ⟨-, rfl⟩ := ht
      refine h.of_same ?_ ?_ ?_ ?_ <;> rfl
  | die =>
      simp only [engineStep, Option.ite_none_right_eq_some, Option.some.injEq] at ht
      obtain ⟨-, rfl⟩ := ht
      rw [streamDied]
      split
      · next hplay =>
        refine ⟨?_, fun _ => h.pcmSize hplay, fun _ _ => rfl⟩
        rintro (hst | hst) <;> exact absurd (hplay.symm.trans hst) (by decide)
      · exact Engine.Inv.of_idle rfl
  | pump =>
      simp only [engineStep, Option.ite_none_right_eq_some, Option.some.injEq] at ht
      obtain ⟨-, rfl⟩ := ht
      exact h.pump d
  | doubleBack =>
      simp only [engineStep, Option.ite_none_right_eq_some, Option.some.injEq] at ht
      obtain ⟨-, rfl⟩ := ht
      exact h.doubleBack
  | service start =>
      cases ht
      exact h.service d start
  | stop =>
      cases ht
      exact Engine.Inv.of_idle rfl

/-! ## Settled listens -/

/-- As many bytes are in the buffers as the cursors say. -/
theorem length_buffers (s : Output) :
    (buffers s).comp.length = backlog s.gDec ∧ (buffers s).pcm.length = ringFill s :=
  ⟨length_ringRead _ _ _ _, length_ringRead _ _ _ _⟩

/-- The top-up is what shortens the compressed ring. -/
theorem backlog_pump (d : Mp3Decoder σ) (s : σ) (r : CqDecring 32) :
    backlog (cqDecringPump d s r).ring = backlog r - topUpTake r := by
  obtain ⟨-, hwr, hrd⟩ := cqDecringPump_frame d s r
  have hle := topUpTake_le_backlog r
  have hlt : backlog r < 2 ^ 32 := (r.compWr - r.compRd).isLt
  have htake : (BitVec.ofNat 32 (topUpTake r)).toNat = topUpTake r := by
    rw [BitVec.toNat_ofNat]
    apply Nat.mod_eq_of_lt
    omega
  have hsub : r.compWr - (r.compRd + BitVec.ofNat 32 (topUpTake r)) =
      r.compWr - r.compRd - BitVec.ofNat 32 (topUpTake r) := by
    grind
  rw [backlog, hwr, hrd, pumpTopUp_spec]
  simp only
  rw [hsub, BitVec.toNat_sub_of_le, htake]
  · rfl
  · rw [BitVec.le_def, htake]
    exact hle

/-- Distance zero: the cursors agree. -/
theorem eq_of_sub_zero {a b : BitVec 32} (h : (a - b).toNat = 0) : a = b := by
  have hzero : a - b = 0#32 := BitVec.eq_of_toNat_eq h
  have hadd := BitVec.sub_add_cancel a b
  rw [hzero, BitVec.zero_add] at hadd
  exact hadd.symm

/-- Reading shortens the PCM ring. -/
theorem ringFill_advance (s : Output) {n : Nat} (hn : n ≤ ringFill s) :
    ringFill (advance s n) = ringFill s - n := by
  have hlt : ringFill s < 2 ^ 32 := (s.gDec.pcmWr - s.gDec.pcmRd).isLt
  have hnat : (BitVec.ofNat 32 n).toNat = n := by
    rw [BitVec.toNat_ofNat]
    apply Nat.mod_eq_of_lt
    omega
  have hsub : s.gDec.pcmWr - (s.gDec.pcmRd + BitVec.ofNat 32 n) =
      s.gDec.pcmWr - s.gDec.pcmRd - BitVec.ofNat 32 n := by
    grind
  rw [ringFill, advance]
  simp only
  rw [hsub, BitVec.toNat_sub_of_le, hnat]
  · rfl
  · rw [BitVec.le_def, hnat]
    exact hn

theorem ringFill_applyTrim (s : Output) : ringFill (applyTrim s) = ringFill s - trimSkip s := by
  by_cases hskip : 0 < s.gRingSkip.toInt
  · have hfill := ringFill_advance s (trimSkip_le s)
    rw [applyTrim, if_pos hskip]
    exact hfill
  · rw [applyTrim, if_neg hskip, trimSkip, if_neg hskip, Nat.sub_zero]

/-- What the double-back proc leaves: less what it skips and what it takes. -/
theorem ringFill_audioDoubleBack (s : Output) :
    ∃ t, t.gStream = s.gStream ∧ ringFill t ≤ ringFill s ∧
      ringFill (audioDoubleBack s).1 = ringFill t - chunkTake t := by
  obtain ⟨t, ht⟩ : ∃ t, t = applyTrim { s with gDBFires := s.gDBFires + 1 } := ⟨_, rfl⟩
  refine ⟨t, ?_, ?_, ?_⟩
  · rw [ht, applyTrim]
    split <;> rfl
  · rw [ht, ringFill_applyTrim]
    exact Nat.sub_le _ _
  · rw [← ringFill_advance t (chunkTake_le t), audioDoubleBack, ← ht]
    rfl

theorem ringFill_audioDoubleBack_le (s : Output) : ringFill (audioDoubleBack s).1 ≤ ringFill s := by
  obtain ⟨t, -, htrim, hfill⟩ := ringFill_audioDoubleBack s
  omega

/-- Of a dead stream it takes something as long as there is anything. -/
theorem ringFill_audioDoubleBack_lt {s : Output} (hstream : s.gStream = false)
    (hfill : 0 < ringFill s) : ringFill (audioDoubleBack s).1 < ringFill s := by
  obtain ⟨t, hdead, htrim, htake⟩ := ringFill_audioDoubleBack s
  rw [hstream] at hdead
  rcases Nat.eq_zero_or_pos (ringFill t) with hnone | hsome
  · omega
  · have hpos : 0 < chunkTake t := by
      rw [chunkTake]
      split
      · decide
      · rw [if_pos ⟨hdead, hsome⟩]
        exact hsome
    omega

theorem ringFill_of_eq {s : Output} (h : s.gDec.pcmWr = s.gDec.pcmRd) : ringFill s = 0 := by
  rw [ringFill, h, BitVec.sub_self]
  rfl

/-- With both rings empty there are only the staged bytes. -/
theorem buffers_of_eq {s : Output} (hcomp : s.gDec.compWr = s.gDec.compRd)
    (hpcm : s.gDec.pcmWr = s.gDec.pcmRd) : buffers s = ⟨[], s.gDec.stage, []⟩ := by
  have hbacklog : backlog s.gDec = 0 := by
    rw [backlog, hcomp, BitVec.sub_self]
    rfl
  have hnil : ∀ size mem pos, ringRead size mem pos 0 = ([] : Bytes) :=
    fun size mem pos => List.length_eq_zero_iff.1 (length_ringRead size mem pos 0)
  rw [buffers, ringBytes, hbacklog, ringFill_of_eq hpcm, hnil, hnil]

/-! ## Nothing left to do -/

/-- A pump pass changes nothing. -/
theorem pumpEngine_ranDry (d : Mp3Decoder σ) {e : Engine σ} (heof : e.out.gDec.eof = true)
    (hdry : RanDry e.out) : pumpEngine d e = e := by
  obtain ⟨htake, -⟩ := pumpTopUp_of_eq hdry.comp
  obtain ⟨hring, hdec⟩ := pump_leftAlone d e.dec htake heof hdry.stage
  rw [pumpEngine, hring, hdec]

/-- `ServiceAudio` stops the engine when the stage is empty too and something has been played; else it
changes nothing. -/
theorem serviceAudio_ranDry (d : Mp3Decoder σ) (start : SoundStart) {e : Engine σ} (hdead : Dead e)
    (heof : e.out.gDec.eof = true) (hdry : RanDry e.out) :
    serviceAudio d start e =
      if e.out.gDec.stage = [] ∧ e.out.gPlaying = true then stopAudio e else e := by
  have hfill := ringFill_of_eq hdry.pcm
  -- nothing to decode, nothing to start, nothing to trim: only the exit is left
  have hpumped : (if e.gMPDecode then e else pumpEngine d e) = e := by
    rw [pumpEngine_ranDry d heof hdry, ite_self]
  have hstart : mayStart e.out = false := by
    simp only [mayStart, hfill]
    simp [cqAudPrebufPcm]
  have htrim : latencyTrim e.out = e.out := by
    rw [latencyTrim]
    simp only [hfill]
    simp
  have hplayed : playedOut e.out = true ↔ e.out.gDec.stage = [] ∧ e.out.gPlaying = true := by
    simp only [playedOut, cqDecringIdle, hdead.2, hdry.comp, hdry.pcm]
    simp
  rw [serviceAudio, if_pos hdead.1, hpumped, startOutput, hstart]
  simp only [Bool.false_eq_true, if_false]
  rw [trimOrExit, if_pos hdead.1, htrim]
  simp only [hplayed]

/-- Where both rings have run empty and the stage is left alone, nobody changes anything. -/
theorem RanDry.settled (d : Mp3Decoder σ) {e : Engine σ} (hdead : Dead e)
    (heof : e.out.gDec.eof = true) (hdry : RanDry e.out) : Settled d e := by
  have hbuffers := buffers_of_eq hdry.comp hdry.pcm
  refine ⟨?_, ?_, ?_⟩
  · rw [pumpEngine_ranDry d heof hdry]
  · intro _
    obtain ⟨-, -, hdec⟩ := audioDoubleBack_frame e.out
    have hfill := ringFill_audioDoubleBack_le e.out
    rw [ringFill_of_eq hdry.pcm] at hfill
    have hpcm := eq_of_sub_zero (Nat.le_zero.1 hfill)
    have hcomp : (audioDoubleBack e.out).1.gDec.compWr = (audioDoubleBack e.out).1.gDec.compRd := by
      rw [hdec]
      exact hdry.comp
    rw [hbuffers, buffers_of_eq hcomp hpcm, hdec]
  · intro start
    rw [serviceAudio_ranDry d start hdead heof hdry]
    split
    · next hdone =>
      rw [hbuffers, hdone.1]
      exact buffers_of_eq rfl rfl
    · rfl

/-- As long as there is PCM, somebody has something to do: the hardware takes it, or the next
`ServiceAudio` starts the channel, and gives up the listen if it cannot. -/
theorem Settled.pcm {d : Mp3Decoder σ} {e : Engine σ} (hdead : Dead e) (hs : Settled d e) :
    e.out.gDec.pcmWr = e.out.gDec.pcmRd := by
  by_contra hne
  have hfill : 0 < ringFill e.out := Nat.pos_of_ne_zero fun hzero => hne (eq_of_sub_zero hzero)
  -- a channel that is open takes from the ring; one that cannot be opened ends the listen
  by_cases hplaying : e.out.gPlaying = true
  · have hlt := ringFill_audioDoubleBack_lt hdead.2 hfill
    rw [← (length_buffers _).2, ← (length_buffers _).2, hs.doubleBack hplaying] at hlt
    exact Nat.lt_irrefl _ hlt
  · have hsame : ringFill (serviceAudio d .noChannel e).out = ringFill e.out := by
      rw [← (length_buffers _).2, hs.service, (length_buffers _).2]
    have hstopped : ∀ t : Engine σ, t.gAuSt = .play → t.out.gStream = false →
        t.out.gPlaying = false → 0 < ringFill t.out →
        trimOrExit (startOutput .noChannel t) = stopAudio t := by
      intro t hplay hstream hquiet hpos
      have hstart : mayStart t.out = true := by
        rw [mayStart, hquiet, hstream]
        simp [hpos]
      rw [startOutput, if_pos hstart]
      rfl
    have hpumped : ringFill (pumpEngine d e).out = ringFill e.out := by
      rw [← (length_buffers _).2, hs.pump, (length_buffers _).2]
    have hquiet : e.out.gPlaying = false := Bool.not_eq_true _ ▸ hplaying
    rw [serviceAudio, if_pos hdead.1] at hsame
    split at hsame
    · rw [hstopped e hdead.1 hdead.2 hquiet hfill, ringFill_of_eq rfl] at hsame
      omega
    · rw [hstopped (pumpEngine d e) hdead.1 hdead.2 hquiet (hfill.trans_eq hpumped.symm),
        ringFill_of_eq rfl] at hsame
      omega

/-- With room for PCM the pump has something to do until the compressed ring is empty and the stage is left
alone. -/
theorem Settled.ranDry {d : Mp3Decoder σ} (hd : d.Advances) {e : Engine σ} (hinv : e.Inv)
    (hdead : Dead e) (hs : Settled d e) : RanDry e.out := by
  have hpcm := hs.pcm hdead
  have heof := hinv.eof hdead.1 hdead.2
  have hroom : PcmRoom e.out.gDec := by
    apply pcmRoom_of_empty hpcm
    rw [hinv.pcmSize hdead.1]
    decide
  have hbacklog : backlog e.out.gDec - topUpTake e.out.gDec = backlog e.out.gDec := by
    have hlength := congrArg (fun b => b.comp.length) hs.pump
    simp only [(length_buffers _).1] at hlength
    rw [← backlog_pump d e.dec]
    exact hlength
  have htake := topUpTake_eq_min e.out.gDec
  have hnone : topUpTake e.out.gDec = 0 := by omega
  have htop : pumpTopUp e.out.gDec = e.out.gDec := by rw [pumpTopUp, hnone, if_pos rfl]
  have hstage : (cqDecringPump d e.dec e.out.gDec).ring.stage = e.out.gDec.stage :=
    congrArg Buffers.stage hs.pump
  have halone : LeftAlone e.out.gDec.stage := by
    by_contra hnot
    rw [← htop] at hnot
    have hlt := stage_pump_lt hd e.dec heof hroom hnot
    rw [hstage, htop] at hlt
    exact Nat.lt_irrefl _ hlt
  -- a stage that is left alone is short, so nothing but an empty ring keeps the top-up from it
  have hshort : e.out.gDec.stage.length ≤ 8192 := by
    rcases halone with hnil | ⟨hshort, -⟩
    · rw [hnil]
      exact Nat.zero_le _
    · exact hshort
  refine ⟨eq_of_sub_zero ?_, halone, hpcm⟩
  have hzero : backlog e.out.gDec = 0 := by
    rw [hnone] at htake
    simp only [cqDecringStage] at htake
    omega
  exact hzero

/-- **A settled listen** is one whose rings have run empty. -/
theorem settled_iff {d : Mp3Decoder σ} (hd : d.Advances) {e : Engine σ} (hinv : e.Inv)
    (hdead : Dead e) : Settled d e ↔ RanDry e.out :=
  ⟨fun hs => hs.ranDry hd hinv hdead, fun hdry => hdry.settled d hdead (hinv.eof hdead.1 hdead.2)⟩

/-! ## Stranded engines -/

theorem Stranded.ranDry {e : Engine σ} (h : Stranded e) : RanDry e.out := by
  refine ⟨h.comp, ?_, h.pcm⟩
  rcases h.rest with ⟨-, hshort, hjunk⟩ | ⟨hnil, -⟩
  · right
    rw [GateHolds, if_pos rfl, hjunk]
    exact ⟨hshort, Nat.one_pos⟩
  · exact Or.inl hnil

/-- `ServiceAudio` leaves a stranded engine as it is. -/
theorem Stranded.service {e : Engine σ} (h : Stranded e) (hinv : e.Inv) (d : Mp3Decoder σ)
    (start : SoundStart) : serviceAudio d start e = e := by
  rw [serviceAudio_ranDry d start h.dead (hinv.eof h.dead.1 h.dead.2) h.ranDry, if_neg]
  rintro ⟨hnil, hplaying⟩
  rcases h.rest with ⟨hne, -⟩ | ⟨-, hquiet⟩
  · exact hne hnil
  · rw [hquiet] at hplaying
    cases hplaying

/-- A listen ends unless it is stranded. -/
theorem ends_iff {d : Mp3Decoder σ} (hd : d.Advances) {e : Engine σ} (hinv : e.Inv) :
    Ends d e ↔ ¬ Stranded e := by
  constructor
  · intro hends hstranded
    -- a stranded engine is settled, and `ServiceAudio` does not end it
    have hsettled := (settled_iff hd hinv hstranded.dead).2 hstranded.ranDry
    have hidle := hends hstranded.dead hsettled .playing
    rw [hstranded.service hinv, hstranded.dead.1] at hidle
    cases hidle
  · intro hnot hdead hsettled start
    -- a settled one has run dry, and what keeps it from the exit is what strands it
    have hdry := (settled_iff hd hinv hdead).1 hsettled
    rw [serviceAudio_ranDry d start hdead (hinv.eof hdead.1 hdead.2) hdry]
    split
    · rfl
    · next hrest =>
      exfalso
      apply hnot
      refine ⟨hdead, hdry.comp, hdry.pcm, ?_⟩
      rcases hdry.stage with hnil | ⟨hshort, hgate⟩
      · refine Or.inr ⟨hnil, ?_⟩
        rw [← Bool.not_eq_true]
        intro hplaying
        exact hrest ⟨hnil, hplaying⟩
      · by_cases hnil : e.out.gDec.stage = []
        · refine Or.inr ⟨hnil, ?_⟩
          rw [← Bool.not_eq_true]
          intro hplaying
          exact hrest ⟨hnil, hplaying⟩
        · rw [GateHolds, if_pos rfl] at hgate
          exact Or.inl ⟨hnil, hshort, by omega⟩

/-- **A dead stream ends the listen** in every state of a run exactly if no state of the run is
stranded. -/
theorem dead_stream_ends_iff {d : Mp3Decoder σ} (hd : d.Advances) (out : Output) (dec : σ)
    (mpDecode : Bool) (steps : List (EngineStep σ)) :
    Meets (engineStep d) (fun e _ => Ends d e) ⟨out, dec, .idle, mpDecode⟩ steps ↔
      Meets (engineStep d) (fun e _ => ¬ Stranded e) ⟨out, dec, .idle, mpDecode⟩ steps := by
  apply meets_congr_of_inv Engine.Inv
  · intro e a t h ht
    exact h.step ht
  · intro e _ h
    exact ends_iff hd h
  · exact Engine.Inv.of_idle rfl

/-- The engine at the launch. -/
def launched : Engine Unit :=
  { out :=
      { gDec := cqDecringInit (fun _ => 0) 0 (fun _ => 0) 0 0 0
        gRingSkip := 0
        gStream := false
        gPlaying := false
        gChannels := 0
        gDBFires := 0
        gDBSilence := 0
        gTrims := 0 }
    dec := ()
    gAuSt := .idle
    gMPDecode := false }

/-- Tune in to a stream that ends after `xs`. -/
def listenTo (xs : Bytes) : List (EngineStep Unit) :=
  [.tune, .header, .sync () false xs, .die, .service .playing]

theorem dead_stream_ends_sample :
    Meets (engineStep silenceDecoder) (fun e _ => Ends silenceDecoder e) launched
      (listenTo (shortFrame ++ shortFrame) ++ [.service .playing]) :=
  (dead_stream_ends_iff silenceDecoder_advances launched.out () false _).2 (by decide +kernel)

/-! ## A partial frame -/

/-- A step of the pump, of the hardware, or of `ServiceAudio`. -/
def EngineStep.IsPass : EngineStep σ → Prop
  | .pump | .doubleBack | .service _ => True
  | .tune | .header | .sync _ _ _ | .drain _ | .die | .stop => False

/-- **No pass frees a stranded engine.** -/
theorem Stranded.step {d : Mp3Decoder σ} {e t : Engine σ} {a : EngineStep σ} (h : Stranded e)
    (hinv : e.Inv) (ha : a.IsPass) (ht : engineStep d e a = some t) : Stranded t := by
  cases a with
  | tune | header | sync init mpDecode gComp | drain xs | die | stop => exact ha.elim
  | pump =>
      simp only [engineStep, Option.ite_none_right_eq_some, Option.some.injEq] at ht
      obtain ⟨-, rfl⟩ := ht
      rw [pumpEngine_ranDry d (hinv.eof h.dead.1 h.dead.2) h.ranDry]
      exact h
  | doubleBack =>
      simp only [engineStep, Option.ite_none_right_eq_some, Option.some.injEq] at ht
      obtain ⟨-, rfl⟩ := ht
      -- the interrupt moves the read cursor at most, and there is nothing to read
      obtain ⟨hstream, hplaying, hdec⟩ := audioDoubleBack_frame e.out
      have hfill := ringFill_audioDoubleBack_le e.out
      rw [ringFill_of_eq h.pcm] at hfill
      refine ⟨⟨h.dead.1, hstream.trans h.dead.2⟩, ?_, eq_of_sub_zero (Nat.le_zero.1 hfill), ?_⟩
      · simp only
        rw [hdec]
        exact h.comp
      · simp only
        rw [hplaying, hdec]
        exact h.rest
  | service start =>
      cases ht
      rw [h.service hinv d start]
      exact h

/-- The engine never leaves playback. -/
theorem Stranded.run {d : Mp3Decoder σ} {e t : Engine σ} {passes : List (EngineStep σ)}
    (h : Stranded e) (hinv : e.Inv) (hpasses : ∀ a ∈ passes, a.IsPass)
    (ht : run (engineStep d) e passes = some t) : t.gAuSt = .play := by
  have hstranded : t.Inv ∧ Stranded t :=
    run_invariant_of_meets (fun u : Engine σ => u.Inv ∧ Stranded u)
      (fun u a v hu ha hv => ⟨hu.1.step hv, hu.2.step hu.1 ha hv⟩) ⟨hinv, h⟩
      (meets_of_forall (fun a ha _ => hpasses a ha) e) ht
  exact hstranded.2.dead.1

/-- Two whole frames and the beginning of a third. -/
def cutOff : Bytes := shortFrame ++ (shortFrame ++ shortFrame.take 10)

/-- **A partial frame strands the engine.** The stream is cut off in its third frame. The two whole frames
are played and nothing changes any more, but no pass will ever stop the engine. -/
theorem partial_frame_strands : ∃ e,
    run (engineStep silenceDecoder) launched (listenTo cutOff) = some e ∧
      ¬ Ends silenceDecoder e ∧
      ∀ passes t, (∀ a ∈ passes, EngineStep.IsPass a) →
        run (engineStep silenceDecoder) e passes = some t → t.gAuSt = .play := by
  have hsome : (run (engineStep silenceDecoder) launched (listenTo cutOff)).isSome := by
    decide +kernel
  have hall : ∀ e ∈ run (engineStep silenceDecoder) launched (listenTo cutOff), Stranded e := by
    decide +kernel
  obtain ⟨e, he⟩ := Option.isSome_iff_exists.1 hsome
  have hstranded := hall e he
  have hinv := run_invariant Engine.Inv (fun _ _ _ h ht => h.step ht) (Engine.Inv.of_idle rfl) he
  refine ⟨e, he, ?_, fun passes t hpasses ht => hstranded.run hinv hpasses ht⟩
  rw [ends_iff silenceDecoder_advances hinv, not_not]
  exact hstranded

end Casquinha.Audio
