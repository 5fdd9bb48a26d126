import Casquinha.App.Commands

/-!
# Adopting a reply (`AdoptReply`, `PumpTx`)

A reply of a poll or of a command is parsed, its error key is looked at first, and a healthy snapshot
goes through the guard. The reply's side effects follow the source's order: the answer to a play/from
probe, the end-of-track watchdog, the queue kick, the adoption itself, the volume hold, the auto-start.
-/

set_option autoImplicit false

namespace Casquinha.App

open Lib Wire

/-- The fields of a reply. -/
def replyFields (data : Bytes) : CqFields := cqFieldsParse cqFieldsInit data

/-- The error code of a reply. -/
def replyError (data : Bytes) : Option CStr := cqFieldsGet (replyFields data) (.lit "error")

/-- The selector that replays the clicked track on an old server. -/
def fallbackSel (uri : CStr) : CStr := (CStr.lit "/spot/play?uri=" ++ escInto uri 128 true).fit 192

/-- The `not_found` branch: the probe has hit an old server. -/
def fallBack (env : Env) (s : Globals) : Globals :=
  startFire env
    { s with
      probe :=
        { s.probe with
          gNativePlay := .notFound
          gFallbackUri := .empty } }
    (fallbackSel s.probe.gFallbackUri)

/-- The error is taken for the answer of an old server to a probe. -/
def takesFallback (s : Globals) (isCmd : Bool) (err : CStr) : Bool :=
  isCmd && err = .lit "not_found" && s.probe.gFallbackUri.bytes ≠ []

/-- The branch of a reply that carries an error. -/
def adoptError (env : Env) (s : Globals) (isCmd : Bool) (err : CStr) : Globals :=
  -- the backoff stays as it is
  if err = .lit "rate_limited" then
    { s with gLastMsg := .lit "Spotify busy - holding steady" }
  else if takesFallback s isCmd err then fallBack env s
  else
    { s with
      gLastMsg := (CStr.lit "server error: " ++ err).fit 128
      gBackoff := cqBackoffFail s.gBackoff }

/-- A healthy reply is taken for the answer to a probe. -/
def answersProbe (s : Globals) (isCmd : Bool) : Bool := isCmd && s.probe.gFallbackUri.bytes ≠ []

/-- The server has play/from: native it is. -/
def answerProbe (s : Globals) (isCmd : Bool) : Globals :=
  if answersProbe s isCmd then
    { s with
      probe :=
        { s.probe with
          gNativePlay := .has
          gFallbackUri := .empty } }
  else s

/-- Playing near the end of a known duration has flipped to stopped. -/
def trackEnded (s : Shown) (tmp : CqNow) : Bool :=
  tmp.state = .stopped && !s.gAutoNexted && s.gHaveSnap && s.gSnap.state = .playing &&
    0 < s.gSnap.durationMs && s.gSnap.durationMs - 10000 ≤ s.gSnap.positionMs

/-- The end-of-track watchdog. -/
def watchdog (env : Env) (s : Globals) (tmp : CqNow) : Globals :=
  -- the row is sought from the snapshot on show, which the reply has not replaced yet
  if trackEnded s.shown tmp then
    let row := queueNextRow s
    let s := { s with shown := { s.shown with gAutoNexted := true } }
    match row with
    | some row => playFrom env s s.gQueueItems row none
    | none => s
  else if tmp.state = .playing then { s with shown := { s.shown with gAutoNexted := false } }
  else s

/-- A new track means the queue has moved. -/
def kickQueue (env : Env) (s : Globals) (tmp : CqNow) : Globals :=
  if tmp.trackId.isSome ∧ tmp.trackId ≠ s.shown.gSnap.trackId then
    { s with gQueueKick := env.tick + 120 }
  else s

/-- The snapshot that takes the place of `gSnap`. The anchor stays where it is for an equal `ts`. -/
def showSnapshot (env : Env) (s : Globals) (tmp : CqNow) : Globals :=
  let sameTs := s.shown.gHaveSnap && 0 < tmp.ts && tmp.ts = s.shown.gSnap.ts
  { s with
    shown :=
      { s.shown with
        gSnap := tmp
        gHaveSnap := true
        gSnapTick := if sameTs then s.shown.gSnapTick else env.tick }
    gLastMsg := .empty }

/-- `volHeld`: a volume drag is not to be yanked. -/
def volHeld (env : Env) (s : Globals) : Bool := (env.tick - s.gVolHold).toInt < 0

/-- The volume on show survives a reply within the hold. -/
def settleVolume (s : Globals) (held : Bool) (keepVol : Int) : Globals :=
  if held then
    { s with shown := { s.shown with gSnap := { s.shown.gSnap with volume := keepVol } } }
  else s

/-- The one decision per launch, off the first snapshot. -/
def autoWake (env : Env) (s : Globals) : Globals :=
  if s.gAutoStart ∧ s.gAutoWoke = false then
    let s := { s with gAutoWoke := true }
    if s.shown.gSnap.device = .active then
      match s.shown.gSnap.state with
      | .playing => s
      | .paused => startCommand env (setIntent env s .play) (.lit "/spot/api/1/play")
      | .stopped => { s with gAutoPlayPending := true }
    else startCommand env (setIntent env s .play) (.lit "/spot/api/1/wake?play=1")
  else s

/-- A pending start that has become unnecessary. -/
def dropPending (s : Globals) : Globals :=
  if s.gAutoPlayPending ∧ s.shown.gSnap.state = .playing then { s with gAutoPlayPending := false }
  else s

/-- A snapshot that the guard lets through. -/
def adoptSnapshot (env : Env) (s : Globals) (tmp : CqNow) : Globals :=
  let held := volHeld env s
  let keepVol := s.shown.gSnap.volume
  let s := watchdog env s tmp
  let s := kickQueue env s tmp
  let s := showSnapshot env s tmp
  let s := settleVolume s held keepVol
  let s := autoWake env s
  dropPending s

/-- A reply without an error key. -/
def adoptHealthy (env : Env) (s : Globals) (isCmd : Bool) (f : CqFields) : Globals :=
  let s := answerProbe s isCmd
  -- a stale snapshot answers the probe and resets the backoff too
  let s := { s with gBackoff := cqBackoffOk s.gBackoff }
  let tmp := cqNowFromFields f
  let accept := cqGuardAcceptTs s.shown.gGuard tmp.ts
  let s := { s with shown := { s.shown with gGuard := accept.2 } }
  if accept.1 then adoptSnapshot env s tmp else s

/-- `AdoptReply`. -/
def adoptReply (env : Env) (s : Globals) (data : Bytes) (isCmd : Bool) : Globals :=
  let s := { s with gOnline := true }
  redraw env
    (match replyError data with
    | some err => adoptError env s isCmd err
    | none => adoptHealthy env s isCmd (replyFields data))

/-- The `CQ_TX_FAILED` branch of `PumpTx`. -/
def txFailed (s : Globals) (message : CStr) : Globals :=
  { s with
    gLastMsg := message.fit 128
    gOnline := false
    gBackoff := cqBackoffFail s.gBackoff }

/-- `PumpTx(&gCmd, 0)`. -/
def pumpCmd (env : Env) (s : Globals) : Globals :=
  match s.probe.gCmd with
  | none => s
  | some tx =>
      match env.poll tx.id with
      | .running => s
      | .done data =>
          -- `gCmd` is still taken while the reply is adopted
          let s := adoptReply env s data true
          { s with
            gLastPoll := env.tick
            probe := { s.probe with gCmd := none } }
      | .failed message =>
          let s := txFailed s message
          redraw env { s with probe := { s.probe with gCmd := none } }

/-- `PumpTx(&gTx, 1)`. -/
def pumpPoll (env : Env) (s : Globals) : Globals :=
  match s.gTx with
  | none => s
  | some tx =>
      match env.poll tx.id with
      | .running => s
      | .done data => { adoptReply env s data false with gTx := none }
      | .failed message => redraw env { txFailed s message with gTx := none }

end Casquinha.App
