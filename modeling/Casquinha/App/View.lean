import Casquinha.Wire.Now

/-!
# The view (`src/cq_view.c`)

One function decides every word the player area shows, from one input struct. Tick differences are
taken modulo `2^32` and read as signed where the source casts them to `long`.
-/

set_option autoImplicit false

namespace Casquinha.App

open Lib Wire

/-- `CQ_VIEW_ACK_TICKS`. -/
def cqViewAckTicks : Int := 480

/-- `CQ_VIEW_STARVE_TICKS`. -/
def cqViewStarveTicks : Int := 120

/-- `CQ_VIEW_DRY_TICKS`. -/
def cqViewDryTicks : Int := 180

/-- `CQ_VIEW_FACT_STALE_MS`. -/
def cqViewFactStaleMs : Int := 30000

/-- `cq_engine_phase`. -/
inductive CqEnginePhase where
  | off
  | tuning
  | buffering
  | onAir
deriving DecidableEq

/-- `cq_intent_kind`. -/
inductive CqIntentKind where
  | none
  | skip
  | play
  | pause
deriving DecidableEq

/-- `cq_view_in`. -/
structure CqViewIn where
  snap : Option CqNow
  snapTicks : BitVec 32
  hasStreamFact : Bool
  live : Int
  factTs : Int
  engine : CqEnginePhase
  ringFill : BitVec 32
  prebufTarget : BitVec 32
  chunkBytes : BitVec 32
  rxDryTicks : Int
  starveTicks : Int
  intent : CqIntentKind
  intentTicks : BitVec 32
  preTrackId : CStr
  preState : CqPlayState
  nowTicks : BitVec 32

/-- `cq_view`. -/
structure CqView where
  stateWord : CStr
  ackActive : Bool
  titleGreen : Bool
  status : CStr
  bufferPct : Int
  showProgress : Bool
  positionMs : Int
  durationMs : Int
  coverKey : CStr
deriving DecidableEq

/-- `intent_reflected`. -/
def intentReflected (v : CqViewIn) : Bool :=
  match v.snap with
  | none => false
  | some s =>
      match v.intent with
      | .skip =>
          if v.preTrackId.bytes ≠ [] then
            s.trackId.isSome && s.trackId ≠ some v.preTrackId
          -- no track was known before the tap: any that plays will do
          else s.trackId.isSome && s.state == .playing
      | .play => s.state == .playing
      | .pause => s.state != .playing
      | .none => true

/-- `fact_usable`. -/
def factUsable (v : CqViewIn) : Bool :=
  if v.hasStreamFact then
    match v.snap with
    | none => true
    | some s => !(0 < s.ts && 0 < v.factTs && cqViewFactStaleMs < s.ts - v.factTs)
  else false

/-- `playing_active`. -/
def playingActive (v : CqViewIn) : Bool :=
  match v.snap with
  | none => false
  | some s => s.state == .playing && s.device == .active

/-- `mount_anomaly`: by the fact where it is usable, else by the parked receive counter. -/
def mountAnomaly (v : CqViewIn) : Bool :=
  if factUsable v then v.live == 0 && playingActive v
  else
    match v.snap with
    | none => false
    | some s => s.state == .playing && 0 ≤ v.rxDryTicks && cqViewDryTicks ≤ v.rxDryTicks

/-- `tail_status`. -/
def tailStatus (v : CqViewIn) : CStr :=
  if v.chunkBytes < v.ringFill then .lit "playing out..." else .lit "standing by"

/-- The text `%d` prints. -/
def decimalInt (n : Int) : CStr :=
  if n < 0 then .lit "-" ++ decimal n.natAbs else decimal n.natAbs

/-- An intent is set, not timed out, and not reflected by the snapshot. -/
def intentPending (v : CqViewIn) : Bool :=
  v.intent ≠ .none && (v.nowTicks - v.intentTicks).toInt < cqViewAckTicks && !intentReflected v

/-- The state word, or the acknowledgement in its place. -/
def viewStateWord (v : CqViewIn) : CStr :=
  if intentPending v then
    match v.intent with
    | .skip => .lit "Skipping..."
    | .play => .lit "Starting..."
    | .none | .pause => .lit "Pausing..."
  else
    match v.snap with
    | none => .empty
    | some s =>
        match s.state with
        | .playing => .lit "Playing"
        | .paused => .lit "Paused"
        | .stopped => .lit "Stopped"

/-- The prebuffer percentage, at most `99`. -/
def bufferPercent (v : CqViewIn) : Int :=
  let tgt := if v.prebufTarget = 0 then 1 else v.prebufTarget
  let pct := (v.ringFill * 100 / tgt).toInt
  if 99 < pct then 99 else pct

/-- The status readout and the prebuffer percentage. -/
def viewStatus (v : CqViewIn) : CStr × Int :=
  match v.engine with
  | .off => (.empty, -1)
  | .tuning => (.lit "tuning in...", -1)
  | .buffering =>
      if factUsable v && v.live == 0 && playingActive v then (.lit "waiting for Spotify...", -1)
      else (.lit "buffering... " ++ decimalInt (bufferPercent v) ++ .lit "%", bufferPercent v)
  | .onAir =>
      if v.snap.any fun s => s.state != .playing then (tailStatus v, -1)
      else if mountAnomaly v then (.lit "waiting for Spotify...", -1)
      else if factUsable v && v.live == 0 then (tailStatus v, -1)
      else if 0 ≤ v.starveTicks && v.starveTicks < cqViewStarveTicks then (.lit "buffering...", -1)
      else (.lit "on air", -1)

/-- The interpolated position, in a 64-bit register until it is clamped. -/
def viewPosition (v : CqViewIn) (s : CqNow) : Int :=
  let pos :=
    if s.state = .playing then
      (s.positionMs + ((v.nowTicks - v.snapTicks).toNat : Int) * 1000 / 60).bmod (2 ^ 64)
    else s.positionMs
  let pos := if pos < 0 then 0 else pos
  if 0 < s.durationMs ∧ s.durationMs < pos then s.durationMs else pos

/-- `cq_view_render`. -/
def cqViewRender (v : CqViewIn) : CqView :=
  { stateWord := viewStateWord v
    ackActive := intentPending v
    titleGreen := v.snap.any fun s => s.state == .playing
    status := (viewStatus v).1
    bufferPct := (viewStatus v).2
    showProgress := v.snap.any fun s => 0 < s.durationMs
    positionMs := v.snap.elim 0 (viewPosition v)
    durationMs := v.snap.elim 0 CqNow.durationMs
    coverKey := (v.snap.bind CqNow.albumId).elim .empty (CStr.fit 64) }

/-- `cq_view_differs`. -/
def cqViewDiffers (a b : CqView) : Bool :=
  a.stateWord ≠ b.stateWord || a.status ≠ b.status || a.coverKey ≠ b.coverKey ||
    a.ackActive != b.ackActive || a.titleGreen != b.titleGreen || a.bufferPct ≠ b.bufferPct ||
    a.showProgress != b.showProgress || a.durationMs ≠ b.durationMs ||
    a.positionMs.tdiv 1000 ≠ b.positionMs.tdiv 1000

end Casquinha.App
