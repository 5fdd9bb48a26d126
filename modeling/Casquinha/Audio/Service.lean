import Casquinha.Audio.DeadStream
import Casquinha.Transport.Ot

/-!
# The audio service (`os9/casquinha.c`)

The engine with its wire. `ServiceAudio` polls the stream and drains it: before playback into the window
`gComp`, where the response header is stripped and the first frame is found, in playback into the
compressed ring. The output stage and the pipeline behind it are those of `Engine`; its `gStream` says
whether there is a stream. `ToggleListen` asks for the playlist, and its reply starts the stream.

What URL a reply names is an answer of the reply. The decode task pumps while the engine plays, as a step of
its own; `ParkDecTask` ends that. What becomes of the response is kept as history: the bytes that are stripped
in front of the first frame, and those that are committed to the ring. The narration and the ticks of the
status line are left out.
-/

set_option autoImplicit false

namespace Casquinha.Audio

open Lib Decode Transport

variable {σ : Type}

/-- The engine, the transactions of the audio part, and the window. -/
structure Service (σ : Type) where
  eng : Engine σ
  gStream : Option CqTransport
  gPls : Option CqTransport
  /-- There is a channel. -/
  gChan : Bool
  /-- The first `gCompLen` bytes of `gComp`. -/
  gComp : Bytes
  gFmt : CqMp3Frame
  gHost : CStr
  gPort : Int
  /-- The bytes stripped in this listen: the header, and what stands in front of the first frame. -/
  skipped : Bytes
  /-- The bytes committed to the compressed ring in this listen. -/
  committed : Bytes

/-- What a pass of `ServiceAudio` depends on: the provider, whether there is memory for the rings and a
decode task, the state that `cq_mp3dec_init` sets, and the Sound Manager. -/
structure AudioEnv (σ : Type) where
  ot : OtEnv
  rings : Bool
  task : Bool
  init : σ
  start : SoundStart

/-- What the audio part of `PumpAux` depends on when it polls the playlist: the provider, the stream that
the reply names (its host, its port and its path, when there is memory for the text and a URL in it that
parses), whether there is memory for the transaction, and the clock. -/
structure PlsEnv where
  ot : OtEnv
  target : Option (CStr × Int × CStr)
  alloc : Bool
  now : BitVec 32

/-! ## The compressed ring -/

/-- The ring, with the bytes that have been committed to it. -/
structure Feed where
  ring : CqDecring 32
  committed : Bytes

/-- Bytes are copied to the claimed position and committed. -/
def Feed.commit (f : Feed) (xs : Bytes) : Feed :=
  { ring := cqDecringCommit (fillClaim f.ring (cqDecringClaim f.ring).1 xs) xs.length
    committed := f.committed ++ xs }

/-- The loop of `DrainStreamToDec`; every round but the last takes bytes out of the transport. -/
def drainLoop : Nat → Feed → CqTransport → Feed × CqTransport
  | 0, f, t => (f, t)
  | fuel + 1, f, t =>
      let contig := (cqDecringClaim f.ring).2
      -- the ring is full: backpressure
      if contig = 0 then (f, t)
      else
        let (got, t) := cqTxDrain t contig.toNat
        if got = [] then (f, t) else drainLoop fuel (f.commit got) t

/-- The loop of the hand-off: `rest` is what is left of `gComp`. -/
def handLoop : Nat → Feed → Bytes → Feed
  | 0, f, _ => f
  | fuel + 1, f, rest =>
      if rest = [] then f
      else
        let contig := (cqDecringClaim f.ring).2
        if contig = 0 then f
        else handLoop fuel (f.commit (rest.take contig.toNat)) (rest.drop contig.toNat)

namespace Service

/-- The ring of the engine. -/
def feed (s : Service σ) : Feed := ⟨s.eng.out.gDec, s.committed⟩

/-- The ring goes on. -/
def setFeed (s : Service σ) (f : Feed) : Service σ :=
  { s with
    eng := { s.eng with out := { s.eng.out with gDec := f.ring } }
    committed := f.committed }

/-- `StopAudio`. -/
def stopAudio (s : Service σ) : Service σ :=
  { s with
    eng := Audio.stopAudio s.eng
    gChan := false
    gStream := none
    gComp := [] }

/-! ## The wire -/

/-- `DrainStreamToDec`. -/
def drainStreamToDec (s : Service σ) : Service σ :=
  match s.gStream with
  | none => s
  | some t =>
      let (f, t) := drainLoop (t.data.length + 1) s.feed t
      { s.setFeed f with gStream := some t }

/-- The stream is drained into the window, as far as there is room. -/
def drainToComp (s : Service σ) : Service σ :=
  match s.gStream with
  | none => s
  | some t =>
      if s.gComp.length < cqAudCompMax then
        let (got, t) := cqTxDrain t (cqAudCompMax - s.gComp.length)
        { s with
          gStream := some t
          gComp := s.gComp ++ got }
      else s

/-- The drain of a pass. -/
def drainWire (s : Service σ) : Service σ :=
  if s.eng.gAuSt = .play then s.drainStreamToDec else s.drainToComp

/-- The stream is freed; the pump may flush the held final frame. -/
def freeStream (s : Service σ) : Service σ :=
  { s with
    eng := streamDied s.eng
    gStream := none }

/-- `st != CQ_TX_RUNNING`: the last drain of the buffered tail, and the end of the stream. -/
def wireDied (s : Service σ) : Service σ :=
  if s.eng.gAuSt = .play then s.drainStreamToDec.freeStream
  else { s.drainToComp with gStream := none }.stopAudio

/-- Part 1 of `ServiceAudio`. -/
def serviceWire (env : AudioEnv σ) (s : Service σ) : Service σ :=
  match s.gStream with
  | none => s
  | some t =>
      let t := cqTxPoll env.ot t
      let s := { s with gStream := some t }.drainWire
      if t.status = .running then s else s.wireDied

/-! ## Tuning in -/

/-- The index of the first CR LF CR LF. -/
def headerEnd : Bytes → Option Nat
  | [] => none
  | b :: rest =>
      if [13, 10, 13, 10] <+: b :: rest then some 0 else (headerEnd rest).map (· + 1)

/-- Part 2: the response header is stripped. -/
def stripHeader (s : Service σ) : Service σ :=
  if s.eng.gAuSt = .http ∧ 4 ≤ s.gComp.length then
    match headerEnd s.gComp with
    | some i =>
        { s with
          gComp := s.gComp.drop (i + 4)
          skipped := s.skipped ++ s.gComp.take (i + 4)
          eng := { s.eng with gAuSt := .sync } }
    | none => if 8192 < s.gComp.length then s.stopAudio else s
  else s

/-- The synced remainder of the window goes to the compressed ring. -/
def handOff (s : Service σ) : Service σ :=
  { s.setFeed (handLoop s.gComp.length s.feed s.gComp) with gComp := [] }

/-- Part 3: the first confirmed frame opens the output. -/
def syncStream (env : AudioEnv σ) (s : Service σ) : Service σ :=
  if s.eng.gAuSt = .sync then
    match cqMp3Sync s.gComp with
    | some (off, f) =>
        let s :=
          { s with
            gFmt := f
            gComp := s.gComp.drop off
            skipped := s.skipped ++ s.gComp.take off }
        if env.rings then
          let eng := openAudioOutput env.init env.task f.channels s.eng
          { s with eng := { eng with gAuSt := .play } }.handOff
        else s.stopAudio
    | none => if 32 * 1024 < s.gComp.length then s.stopAudio else s
  else s

/-- Parts 1 to 3 of `ServiceAudio`. Where the source returns from a part, the engine is idle, and the parts
behind it do nothing. -/
def tuneIn (env : AudioEnv σ) (s : Service σ) : Service σ :=
  ((s.serviceWire env).stripHeader).syncStream env

/-! ## Playback -/

/-- `StartDoubleBuffer`, and `StopAudio` when it fails. -/
def startOutput (start : SoundStart) (s : Service σ) : Service σ :=
  if mayStart s.eng.out then
    let (out, started) := startDoubleBuffer start s.eng.out
    let s :=
      { s with
        eng := { s.eng with out := out }
        gChan := start ≠ .noChannel }
    if started then s else s.stopAudio
  else s

/-- The latency trim and the exit test. -/
def trimOrExit (s : Service σ) : Service σ :=
  if s.eng.gAuSt = .play then
    let s := { s with eng := { s.eng with out := latencyTrim s.eng.out } }
    if playedOut s.eng.out then s.stopAudio else s
  else s

/-- Part 4 of `ServiceAudio`. -/
def playback (d : Mp3Decoder σ) (start : SoundStart) (s : Service σ) : Service σ :=
  if s.eng.gAuSt = .play then
    ({ s with eng := if s.eng.gMPDecode then s.eng else pumpEngine d s.eng }.startOutput start).trimOrExit
  else s

/-- `ServiceAudio`. -/
def serviceAudio (d : Mp3Decoder σ) (env : AudioEnv σ) (s : Service σ) : Service σ :=
  if s.eng.gAuSt = .idle then s else (s.tuneIn env).playback d env.start

/-! ## The listen -/

/-- `StartStream`: the selector and the transport's CR LF make up a complete request. -/
def startStream (target : CStr × Int × CStr) (alloc : Bool) (now : BitVec 32) (s : Service σ) :
    Service σ :=
  let (host, port, path) := target
  if alloc then
    let sel := (CStr.lit "GET " ++ path ++ .lit " HTTP/1.0\r\n").fit 192
    { s with
      gStream := some (cqTxStart now (cqTxNew host port (some sel) true))
      eng := Audio.startStream s.eng
      skipped := []
      committed := [] }
  else
    { s with
      gStream := none
      eng := { s.eng with out := { s.eng.out with gStream := false } } }

/-- `ToggleListen`. -/
def toggleListen (alloc : Bool) (now : BitVec 32) (s : Service σ) : Service σ :=
  if s.eng.gAuSt ≠ .idle then s.stopAudio
  else if s.gPls.isSome then s
  else if alloc then
    let pls := cqTxNew s.gHost s.gPort (some (.lit "/spot/stream.pls")) false
    { s with gPls := some (cqTxStart now pls) }
  else s

/-- `if (gPls)` of `PumpAux`. -/
def pumpPls (env : PlsEnv) (s : Service σ) : Service σ :=
  match s.gPls with
  | none => s
  | some t =>
      let t := cqTxPoll env.ot t
      match t.status with
      | .running => { s with gPls := some t }
      | .done =>
          let s :=
            match env.target with
            | some target => s.startStream target env.alloc env.now
            | none => s
          { s with gPls := none }
      | .failed => { s with gPls := none }

/-- What `ApplyServerChange` does to the audio part: only the playlist is asked for there. -/
def applyServerChange (host : CStr) (port : Int) (s : Service σ) : Service σ :=
  { s with
    gHost := host
    gPort := port
    gPls := none }

/-- The launch. -/
def launched (dec : σ) (host : CStr) (port : Int) : Service σ where
  eng :=
    { out := Audio.launched.out
      dec := dec
      gAuSt := .idle
      gMPDecode := false }
  gStream := none
  gPls := none
  gChan := false
  gComp := []
  gFmt := ⟨0, 0, 0, 0, 0, 0⟩
  gHost := host
  gPort := port
  skipped := []
  committed := []

end Service

/-- What may happen next. -/
inductive ServiceStep (σ : Type) where
  | toggle (alloc : Bool) (now : BitVec 32)
  /-- The audio part of `PumpAux`, in two steps. -/
  | service (env : AudioEnv σ)
  | pls (env : PlsEnv)
  | serverChange (host : CStr) (port : Int)
  /-- A pump pass of the decode task. -/
  | pump
  /-- The hardware asks for a buffer. -/
  | doubleBack
  /-- `StopAudio("quit")`. -/
  | quit

/-- One step. The task pumps while the engine plays, and the hardware asks while there is a channel that
plays. -/
def serviceStep (d : Mp3Decoder σ) (s : Service σ) : ServiceStep σ → Option (Service σ)
  | .toggle alloc now => some (s.toggleListen alloc now)
  | .service env => some (s.serviceAudio d env)
  | .pls env => some (s.pumpPls env)
  | .serverChange host port => some (s.applyServerChange host port)
  | .pump =>
      if s.eng.gAuSt = .play ∧ s.eng.gMPDecode = true then
        some { s with eng := pumpEngine d s.eng }
      else none
  | .doubleBack =>
      if s.eng.out.gPlaying = true then
        some { s with eng := { s.eng with out := (audioDoubleBack s.eng.out).1 } }
      else none
  | .quit => some s.stopAudio

end Casquinha.Audio
