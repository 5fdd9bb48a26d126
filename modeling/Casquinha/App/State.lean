import Casquinha.App.Reconcile
import Casquinha.App.View
import Casquinha.Wire.Lists

/-!
# The application state (`os9/casquinha.c`)

The globals of the event loop, and what the world supplies to a step: the clock, which transactions
can be allocated, and what each transaction in flight reports when it is polled. `TickCount()` does
not move within a step.

Two groups of globals are records of their own, because whole families of functions leave them alone:
`Shown`, the adopted snapshot with its guard, and `Probe`, the command in flight with the play/from
probe. The audio engine appears with what the view reads of it.
-/

set_option autoImplicit false

namespace Casquinha.App

open Lib Wire

/-- A gopher transaction: its serial number, its endpoint and its selector. -/
structure Tx where
  id : Nat
  host : CStr
  port : Nat
  selector : CStr
deriving DecidableEq

/-- What `cq_tx_poll` finds, with the reply or the error message. -/
inductive TxPoll where
  | running
  | done (data : Bytes)
  | failed (message : CStr)

/-- The world during one step. -/
structure Env where
  /-- `TickCount()`. -/
  tick : BitVec 32
  /-- Whether `cq_tx_new` succeeds for the transaction with this serial number. -/
  alloc : Nat → Bool
  /-- The report of the transaction with this serial number. -/
  poll : Nat → TxPoll
  /-- Whether QuickTime decodes these JPEG bytes. -/
  decodes : Bytes → Bool

/-- The value of a feature probe: `0`, `1`, `-1`. -/
inductive Feature where
  | unprobed
  | has
  | notFound
deriving DecidableEq

/-- `au_state`. -/
inductive AuState where
  | idle
  | http
  | sync
  | play
deriving DecidableEq

/-- What the view reads of the audio engine. -/
structure Audio where
  gAuSt : AuState
  gPlaying : Bool
  ringFill : BitVec 32
  gStream : Bool
  gRxTick : BitVec 32
  gStarveTick : BitVec 32

/-- `gIntent`. -/
structure Intent where
  kind : CqIntentKind
  ticks : BitVec 32
  preTrackId : CStr
  preState : CqPlayState

/-- The adopted snapshot, its guard, and the watchdog's single shot. -/
structure Shown where
  gGuard : CqGuard
  gSnap : CqNow
  gHaveSnap : Bool
  gSnapTick : BitVec 32
  gAutoNexted : Bool

/-- The command in flight and the play/from probe. `storedBy` is history: the transaction that the
`PlayFrom` call which stored `gFallbackUri` has started, if it has started one. -/
structure Probe where
  gCmd : Option Tx
  gNativePlay : Feature
  gFallbackUri : CStr
  storedBy : Option Nat

/-- `cq_row_kind`, with the index within the kind's list. -/
inductive CqRowKind where
  | artist (i : Nat)
  | album (i : Nat)
  | track (i : Nat)
  | back
  | none
deriving DecidableEq

/-- A row of the result list: its text, before the conversion to MacRoman, and the item it was made
from, which is history. -/
structure ResultRow where
  text : CStr
  kind : CqRowKind
deriving DecidableEq

/-- The globals. `lastDraw` is the static of `TickView`, `nextTx` the serial number of the next
transaction. -/
structure Globals where
  shown : Shown
  probe : Probe
  gHost : CStr
  gPort : Nat
  gSuspended : Bool
  gOnline : Bool
  gLastMsg : CStr
  gTx : Option Tx
  gLastPoll : BitVec 32
  gBackoff : CqBackoff
  gDeb : CqDebounce
  gCmdFire : BitVec 32
  gFire : Option Tx
  gLastAction : CStr
  gLastActionTick : BitVec 32
  gVolHold : BitVec 32
  gIntent : Intent
  gView : CqView
  lastDraw : BitVec 32
  gAutoStart : Bool
  gAutoWoke : Bool
  gAutoPlayPending : Bool
  gQTOk : Bool
  gCover : Option Tx
  gCoverReq : CStr
  gCovers : CqCache (Option Bytes)
  gSearchList : List ResultRow
  gSearchTx : Option Tx
  gSearchItems : CqTrackList
  gSearchArtists : CqRefList
  gSearchAlbums : CqRefList
  gArtistTx : Option Tx
  gArtistAlbums : CqRefList
  gAlbumBrowse : Bool
  gBrowseArtist : CStr
  gQueueTx : Option Tx
  gQueueItems : CqTrackList
  gQueueLast : BitVec 32
  gQBackoff : CqBackoff
  gQueueKick : BitVec 32
  gQueueEmptyRuns : Nat
  gFactTx : Option Tx
  gStreamProbe : Feature
  gHaveFact : Bool
  gFactLive : Int
  gFactTs : Int
  gFactLast : BitVec 32
  gFBackoff : CqBackoff
  gPls : Option Tx
  audio : Audio
  nextTx : Nat

/-- `CQ_POLL_TICKS`. -/
def cqPollTicks : Int := 120

/-- `CQ_POLL_CAP`. -/
def cqPollCap : Int := 1800

/-- `CQ_QUEUE_POLL_TICKS`. -/
def cqQueuePollTicks : Int := 600

/-- `CQ_STREAM_POLL_TICKS`. -/
def cqStreamPollTicks : Int := 600

/-- `CQ_MAX_INFLIGHT`. -/
def cqMaxInflight : Nat := 3

/-- `CQ_AUD_PREBUF_PCM`. -/
def cqAudPrebufPcm : BitVec 32 := 384 * 1024

/-- `CQ_AUD_CHUNK`. -/
def cqAudChunk : BitVec 32 := 32 * 1024

/-- `cq_tx_new`, the transaction with the next serial number. -/
def cqTxNew (env : Env) (s : Globals) (selector : CStr) : Option Tx :=
  if env.alloc s.nextTx then some ⟨s.nextTx, s.gHost, s.gPort, selector⟩ else none

/-- `TxInFlight`. -/
def txInFlight (s : Globals) : Nat :=
  s.gTx.toList.length + s.probe.gCmd.toList.length + s.gCover.toList.length +
    s.gFire.toList.length + s.gSearchTx.toList.length + s.gQueueTx.toList.length +
    s.gPls.toList.length + s.gFactTx.toList.length

/-- `SetIntent`. -/
def setIntent (env : Env) (s : Globals) (kind : CqIntentKind) : Globals :=
  { s with
    gIntent :=
      { kind := kind
        ticks := env.tick
        preTrackId := if s.shown.gHaveSnap then (s.shown.gSnap.trackId.getD .empty).fit 24 else .empty
        preState := if s.shown.gHaveSnap then s.shown.gSnap.state else .stopped } }

/-! ## Rendering -/

/-- The engine phase that `gAuSt` and `gPlaying` stand for. -/
def enginePhase (a : Audio) : CqEnginePhase :=
  match a.gAuSt with
  | .idle => .off
  | .http | .sync => .tuning
  | .play => if a.gPlaying then .onAir else .buffering

/-- `BuildViewIn`. -/
def buildViewIn (env : Env) (s : Globals) : CqViewIn :=
  { snap := if s.shown.gHaveSnap then some s.shown.gSnap else none
    snapTicks := s.shown.gSnapTick
    hasStreamFact := s.gStreamProbe == .has && s.gHaveFact
    live := s.gFactLive
    factTs := s.gFactTs
    engine := enginePhase s.audio
    ringFill := s.audio.ringFill
    prebufTarget := cqAudPrebufPcm
    chunkBytes := cqAudChunk
    rxDryTicks :=
      if s.audio.gStream ∧ s.audio.gRxTick ≠ 0 then (env.tick - s.audio.gRxTick).toInt else -1
    starveTicks :=
      if s.audio.gStarveTick ≠ 0 then (env.tick - s.audio.gStarveTick).toInt else -1
    intent := s.gIntent.kind
    intentTicks := s.gIntent.ticks
    preTrackId := s.gIntent.preTrackId
    preState := s.gIntent.preState
    nowTicks := env.tick }

/-- A render that shows no acknowledgement drops the pending intent. -/
def dropIntent (s : Globals) (v : CqView) : Globals :=
  if s.gIntent.kind ≠ .none ∧ v.ackActive = false then
    { s with gIntent := { s.gIntent with kind := .none } }
  else s

/-- `RenderView`. -/
def renderView (env : Env) (s : Globals) : Globals :=
  let v := cqViewRender (buildViewIn env s)
  dropIntent { s with gView := v } v

/-- `Redraw`, without the painting. -/
def redraw (env : Env) (s : Globals) : Globals := renderView env s

end Casquinha.App
