import Casquinha.App.State
import Casquinha.Decode.Decring

/-!
# The audio engine (`os9/casquinha.c`)

The output stage behind the decode pipeline: the double-back proc that the hardware calls for every
chunk, the latency trim, the start and the stop of the channel, and the playback part of `ServiceAudio`.
`gRing`, `gRingWr` and `gRingRd` are the PCM ring of `gDec` with its cursors. The counters are 32 bits
wide, as the machine's `unsigned long` is.

`ServiceAudio` polls the stream before it plays. What that brings is up to the server: bytes for the
compressed ring, or the end of the stream, after which it does nothing. Both are steps of their own. The
narration and the ticks of the status line are left out.
-/

set_option autoImplicit false

namespace Casquinha.Audio

open Lib Decode

/-- `CQ_AUD_RING_BYTES`. -/
def cqAudRingBytes : Nat := 2048 * 1024

/-- `CQ_AUD_COMP_RING`. -/
def cqAudCompRing : Nat := 256 * 1024

/-- `CQ_AUD_CHUNK`. -/
def cqAudChunk : Nat := 32 * 1024

/-- `CQ_AUD_PREBUF_PCM`. -/
def cqAudPrebufPcm : Nat := 384 * 1024

/-- `CQ_AUD_RING_TARGET`. -/
def cqAudRingTarget : Nat := 512 * 1024

/-- `CQ_AUD_TRIM_SLACK`. -/
def cqAudTrimSlack : Nat := 256 * 1024

/-! ## The output stage -/

/-- The globals that the double-back proc and the trim share. `gStream` says whether there is one. -/
structure Output where
  gDec : CqDecring 32
  gRingSkip : BitVec 32
  gStream : Bool
  gPlaying : Bool
  gChannels : Nat
  gDBFires : Nat
  gDBSilence : Nat
  gTrims : Nat

/-- `gRingWr - gRingRd`. -/
def ringFill (s : Output) : Nat := (s.gDec.pcmWr - s.gDec.pcmRd).toNat

/-- The read cursor moves on by `n` bytes. -/
def advance (s : Output) (n : Nat) : Output :=
  { s with gDec := { s.gDec with pcmRd := s.gDec.pcmRd + BitVec.ofNat 32 n } }

/-- The bytes in front of the read cursor. -/
def ringBytes (s : Output) (n : Nat) : Bytes :=
  ringRead cqAudRingBytes s.gDec.pcm (s.gDec.pcmRd.toNat % cqAudRingBytes) n

/-- What a pending trim skips: no more than there is. -/
def trimSkip (s : Output) : Nat :=
  -- `gRingSkip` is signed
  if 0 < s.gRingSkip.toInt then
    if ringFill s < s.gRingSkip.toNat then ringFill s else s.gRingSkip.toNat
  else 0

/-- `if (gRingSkip > 0)` of `AudioDoubleBack`. -/
def applyTrim (s : Output) : Output :=
  if 0 < s.gRingSkip.toInt then { advance s (trimSkip s) with gRingSkip := 0 } else s

/-- A whole chunk or nothing; of a stream that has ended also the rest. -/
def chunkTake (s : Output) : Nat :=
  if cqAudChunk ≤ ringFill s then cqAudChunk
  else if s.gStream = false ∧ 0 < ringFill s then ringFill s
  else 0

theorem trimSkip_le (s : Output) : trimSkip s ≤ ringFill s := by
  rw [trimSkip]
  split
  · split
    · exact Nat.le_refl _
    · omega
  · exact Nat.zero_le _

theorem chunkTake_le (s : Output) : chunkTake s ≤ ringFill s := by
  rw [chunkTake]
  split
  · assumption
  · split
    · exact Nat.le_refl _
    · exact Nat.zero_le _

/-- `SndDoubleBuffer`. -/
structure SndDoubleBuffer where
  dbNumFrames : Nat
  dbReady : Bool
  dbSoundData : Bytes

/-- `AudioDoubleBack`: the next hardware buffer. -/
def audioDoubleBack (s : Output) : Output × SndDoubleBuffer :=
  let s := applyTrim { s with gDBFires := s.gDBFires + 1 }
  let take := chunkTake s
  -- silence makes up a whole chunk
  let data := ringBytes s take ++ List.replicate (cqAudChunk - take) 0
  ({ advance s take with gDBSilence := if take = 0 then s.gDBSilence + 1 else s.gDBSilence },
    { dbNumFrames := cqAudChunk / (2 * s.gChannels)
      dbReady := true
      dbSoundData := data })

/-- The latency trim of `ServiceAudio`. -/
def latencyTrim (s : Output) : Output :=
  if s.gPlaying ∧ s.gRingSkip = 0 then
    let fill := ringFill s
    if cqAudRingTarget + cqAudTrimSlack < fill then
      { s with
        gRingSkip := BitVec.ofNat 32 (fill - cqAudRingTarget)
        gTrims := s.gTrims + 1 }
    else s
  else s

/-! ## The engine -/

/-- The output stage, the decoder's state, the phase, and whether the decode task pumps. -/
structure Engine (σ : Type) where
  out : Output
  dec : σ
  gAuSt : App.AuState
  gMPDecode : Bool

variable {σ : Type}

/-- `StopAudio`. -/
def stopAudio (e : Engine σ) : Engine σ :=
  { e with
    gAuSt := .idle
    out :=
      { e.out with
        gDec :=
          -- the PCM cursors belong to the application
          { cqDecringReset e.out.gDec with
            pcmWr := 0
            pcmRd := 0 }
        gStream := false
        gPlaying := false
        gRingSkip := 0 } }

/-- `OpenAudioOutput` once the memory is there; `init` is the state that `cq_mp3dec_init` sets. -/
def openAudioOutput (init : σ) (mpDecode : Bool) (channels : Nat) (e : Engine σ) : Engine σ :=
  { e with
    dec := init
    gMPDecode := mpDecode
    out :=
      { e.out with
        gDec := cqDecringInit e.out.gDec.comp (BitVec.ofNat 32 cqAudCompRing) e.out.gDec.pcm
          (BitVec.ofNat 32 cqAudRingBytes) 0 0
        gChannels := channels
        gPlaying := false
        gDBFires := 0
        gDBSilence := 0
        gRingSkip := 0
        gTrims := 0 } }

/-- How `StartDoubleBuffer` ends: without a channel, with `SndPlayDoubleBuffer` refused once both buffers
have been filled, or playing. -/
inductive SoundStart where
  | noChannel
  | refused
  | playing
deriving DecidableEq

/-- `StartDoubleBuffer`: both hardware buffers are filled before the first note. -/
def startDoubleBuffer (start : SoundStart) (s : Output) : Output × Bool :=
  match start with
  | .noChannel => (s, false)
  | .refused => ((audioDoubleBack (audioDoubleBack s).1).1, false)
  | .playing => ({ (audioDoubleBack (audioDoubleBack s).1).1 with gPlaying := true }, true)

/-- A pump pass. -/
def pumpEngine (d : Mp3Decoder σ) (e : Engine σ) : Engine σ :=
  let p := cqDecringPump d e.dec e.out.gDec
  { e with
    out := { e.out with gDec := p.ring }
    dec := p.dec }

/-- The output starts at the prebuffer mark, or with whatever remains of a stream that has ended. -/
def mayStart (s : Output) : Bool :=
  !s.gPlaying && (cqAudPrebufPcm ≤ ringFill s || !s.gStream && 0 < ringFill s)

/-- `if (!gPlaying)` of `ServiceAudio`. -/
def startOutput (start : SoundStart) (e : Engine σ) : Engine σ :=
  if mayStart e.out then
    -- a channel that cannot be opened ends the listen
    match startDoubleBuffer start e.out with
    | (out, true) => { e with out := out }
    | (out, false) => stopAudio { e with out := out }
  else e

/-- The exit test of `ServiceAudio`. -/
def playedOut (s : Output) : Bool :=
  !s.gStream && cqDecringIdle s.gDec && s.gPlaying && s.gDec.pcmWr == s.gDec.pcmRd

/-- The end of `ServiceAudio`: the latency trim and the exit test, unless the start has given up. -/
def trimOrExit (e : Engine σ) : Engine σ :=
  if e.gAuSt = .play then
    let e := { e with out := latencyTrim e.out }
    if playedOut e.out then stopAudio e else e
  else e

/-- The playback part of `ServiceAudio`. -/
def serviceAudio (d : Mp3Decoder σ) (start : SoundStart) (e : Engine σ) : Engine σ :=
  if e.gAuSt = .play then
    trimOrExit (startOutput start (if e.gMPDecode then e else pumpEngine d e))
  else e

end Casquinha.Audio
