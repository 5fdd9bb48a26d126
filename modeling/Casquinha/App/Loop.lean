import Casquinha.App.Adopt
import Casquinha.App.Results
import Casquinha.Lib.Run

/-!
# The event loop (`PollNetwork`, `PumpAux`, `HandleEvent`, `ApplyServerChange`)

One limb of the loop is one step, and so is one gesture, one script command, one server change. The
steps may come in any order, which includes the order of the source (`pollNetwork_eq_run`). The audio
engine is replaced by whatever it may show.
-/

set_option autoImplicit false

namespace Casquinha.App

open Lib Wire

/-! ## `PollNetwork` -/

/-- The cover fetch in flight: every outcome leaves a mark in the cache. -/
def pumpCover (env : Env) (s : Globals) : Globals :=
  match s.gCover with
  | none => s
  | some tx =>
      let settle (gw : Option Bytes) : Globals :=
        { s with
          gCovers := cqCachePut s.gCovers s.gCoverReq gw
          gCover := none }
      match env.poll tx.id with
      | .running => s
      -- an empty mark keeps the album from being fetched again
      | .failed _ => settle none
      | .done data =>
          if cqDataIsJpeg data ∧ env.decodes data then redraw env (settle (some data))
          else settle none

/-- Start a cover fetch for an album not in the cache. -/
def startCover (env : Env) (s : Globals) : Globals :=
  match s.shown.gSnap.albumId with
  | none => s
  | some albumId =>
      if s.gQTOk ∧ s.shown.gHaveSnap ∧ s.gCover = none ∧ s.gSuspended = false ∧
          txInFlight s < cqMaxInflight ∧ cqCacheHas s.gCovers albumId = false then
        let req := albumId.fit 64
        { s with
          gCoverReq := req
          gCover := cqTxNew env s ((CStr.lit "/spot/api/1/cover/" ++ req ++ .lit "/64").fit 96)
          nextTx := s.nextTx + 1 }
      else s

/-- Flush a settled prev or next. -/
def flushDebounce (env : Env) (s : Globals) : Globals :=
  if cqDebounceHas s.gDeb ∧ 0 ≤ (env.tick - s.gCmdFire).toInt ∧ s.probe.gCmd = none then
    let taken := cqDebounceTake s.gDeb
    let s := { s with gDeb := taken.2 }
    match taken.1 with
    | some sel => startCommand env s sel
    | none => s
  else s

/-- Start a poll when one is due. -/
def startPoll (env : Env) (s : Globals) : Globals :=
  if s.gSuspended = false ∧
      cqBackoffIntervalSeeded s.gBackoff env.tick ≤ (env.tick - s.gLastPoll).toNat then
    { s with
      gLastPoll := env.tick
      gTx := cqTxNew env s (.lit "/spot/api/1/now")
      nextTx := s.nextTx + 1 }
  else s

/-- The end of `PollNetwork`: advance the poll in flight, or start one. -/
def pollNow (env : Env) (s : Globals) : Globals :=
  if s.gTx.isSome then pumpPoll env s else startPoll env s

/-- `PollNetwork`. -/
def pollNetwork (env : Env) (s : Globals) : Globals :=
  pollNow env (flushDebounce env (startCover env (pumpCover env (pumpCmd env s))))

/-! ## `PumpAux` -/

/-- The fire in flight: its reply is dropped, and the queue is fetched again two seconds later. -/
def pumpFire (env : Env) (s : Globals) : Globals :=
  match s.gFire with
  | none => s
  | some tx =>
      match env.poll tx.id with
      | .running => s
      | .done _ | .failed _ =>
          { s with
            gFire := none
            gQueueKick := env.tick + 120 }

/-- The search in flight: one reply carries tracks, artists and albums. -/
def pumpSearch (env : Env) (s : Globals) : Globals :=
  match s.gSearchTx with
  | none => s
  | some tx =>
      match env.poll tx.id with
      | .running => s
      | .done data =>
          fillResults
            { s with
              gSearchItems := cqTrackListFromResponse data
              gSearchArtists := cqRefListFromResponse data (.lit "artist")
              gSearchAlbums := cqRefListFromResponse data (.lit "album")
              gAlbumBrowse := false
              gSearchTx := none }
      | .failed _ => { s with gSearchTx := none }

/-- The artist drill in flight. -/
def pumpArtist (env : Env) (s : Globals) : Globals :=
  match s.gArtistTx with
  | none => s
  | some tx =>
      match env.poll tx.id with
      | .running => s
      | .done data =>
          fillResults
            { s with
              gArtistAlbums := cqRefListFromResponse data (.lit "item")
              gAlbumBrowse := true
              gArtistTx := none }
      | .failed _ => { s with gArtistTx := none }

/-- Whether a queue that has just loaded is to be played: the launch found the device stopped. -/
def autoPlays (s : Globals) : Bool := s.gAutoPlayPending && s.shown.gSnap.state ≠ .playing

/-- A non-empty queue reply. -/
def adoptQueue (env : Env) (s : Globals) (fresh : CqTrackList) : Globals :=
  let plays := autoPlays s
  let s :=
    { s with
      gQueueItems := fresh
      gQueueEmptyRuns := 0
      gAutoPlayPending := false }
  -- a pending start is spent on the first queue, whether it plays or not
  if plays then playFrom env (setIntent env s .play) fresh 0 none else s

/-- An empty queue reply: the second in a row empties the list. -/
def adoptEmptyQueue (s : Globals) : Globals :=
  let s := { s with gQueueEmptyRuns := s.gQueueEmptyRuns + 1 }
  if s.gQueueEmptyRuns = 2 ∧ 0 < s.gQueueItems.items.length then { s with gQueueItems := ⟨[]⟩ }
  else s

/-- Start a queue fetch when one is due. -/
def startQueue (env : Env) (s : Globals) : Globals :=
  if s.gSuspended = false ∧ txInFlight s < cqMaxInflight ∧
      (cqBackoffInterval s.gQBackoff ≤ (env.tick - s.gQueueLast).toNat ∨
        s.gQueueKick ≠ 0 ∧ 0 ≤ (env.tick - s.gQueueKick).toInt) then
    { s with
      gQueueKick := 0
      gQueueTx := cqTxNew env s (.lit "/spot/api/1/queue")
      nextTx := s.nextTx + 1 }
  else s

/-- The queue fetch: advance the one in flight, or start one. -/
def pumpQueue (env : Env) (s : Globals) : Globals :=
  match s.gQueueTx with
  | none => startQueue env s
  | some tx =>
      match env.poll tx.id with
      | .running => s
      | .done data =>
          let fresh := cqTrackListFromResponse data
          let s := if fresh.items ≠ [] then adoptQueue env s fresh else adoptEmptyQueue s
          { s with
            gQueueTx := none
            gQueueLast := env.tick
            gQBackoff := cqBackoffOk s.gQBackoff }
      | .failed _ =>
          { s with
            gQueueTx := none
            gQueueLast := env.tick
            gQBackoff := cqBackoffFail s.gQBackoff }

/-- A reply of the `/stream` fact. -/
def adoptFact (s : Globals) (data : Bytes) : Globals :=
  let f := replyFields data
  match replyError data with
  | some err =>
      if err = .lit "not_found" then { s with gStreamProbe := .notFound }
      else { s with gFBackoff := cqBackoffFail s.gFBackoff }
  | none =>
      { s with
        gStreamProbe := .has
        gFactLive := parseInt (cqFieldsGet f (.lit "live"))
        gFactTs := cqParseLl (cqFieldsGet f (.lit "ts"))
        gHaveFact := true
        gFBackoff := cqBackoffOk s.gFBackoff }

/-- Start a fact fetch when one is due. -/
def startFact (env : Env) (s : Globals) : Globals :=
  if s.gSuspended = false ∧ s.gStreamProbe ≠ .notFound ∧ txInFlight s < cqMaxInflight ∧
      (cqBackoffInterval s.gFBackoff ≤ (env.tick - s.gFactLast).toNat ∨ s.gFactLast = 0) then
    { s with
      gFactLast := env.tick
      gFactTx := cqTxNew env s (.lit "/spot/api/1/stream")
      nextTx := s.nextTx + 1 }
  else s

/-- The `/stream` fact: advance the fetch in flight, or start one. -/
def pumpFact (env : Env) (s : Globals) : Globals :=
  match s.gFactTx with
  | none => startFact env s
  | some tx =>
      match env.poll tx.id with
      | .running => s
      | .done data =>
          { adoptFact s data with
            gFactTx := none
            gFactLast := env.tick }
      | .failed _ =>
          { s with
            gFactTx := none
            gFactLast := env.tick
            gFBackoff := cqBackoffFail s.gFBackoff }

/-- `TickView`. -/
def tickView (env : Env) (s : Globals) : Globals :=
  if (env.tick - s.lastDraw).toNat < 30 then s
  else
    let v := cqViewRender (buildViewIn env s)
    let s := dropIntent s v
    if cqViewDiffers s.gView v then redraw env { s with lastDraw := env.tick } else s

/-! ## Gestures -/

/-- `StartArtistAlbums`. -/
def startArtistAlbums (env : Env) (s : Globals) (artistId : CStr) (artistName : Option CStr) :
    Globals :=
  if artistId.bytes = [] then s
  else
    let sel := (CStr.lit "/spot/api/1/artist/" ++ artistId ++ .lit "/albums").fit 128
    match actionRepeat env s sel with
    | (true, s) => s
    | (false, s) =>
        { s with
          gBrowseArtist := (artistName.getD .empty).fit 64
          gArtistTx := cqTxNew env s sel
          nextTx := s.nextTx + 1 }

/-- A double click on a row of the result list. -/
def clickResult (env : Env) (s : Globals) (row : Nat) : Globals :=
  match resultKindAt s row with
  | .track i => playFrom env s s.gSearchItems i (some s.gQueueItems)
  | .artist i =>
      match s.gSearchArtists.items[i]? with
      | some artist => startArtistAlbums env s artist.id artist.name
      | none => s
  | .album i =>
      match (albumsShown s).items[i]? with
      | some album => playContextAlbum env s album.id
      | none => s
  | .back => fillResults { s with gAlbumBrowse := false }
  | .none => s

/-- `QueueSelected`, on the selected row. -/
def queueSelected (env : Env) (s : Globals) (row : Nat) : Globals :=
  match resultKindAt s row with
  | .track i =>
      match s.gSearchItems.items[i]? with
      | some item =>
          startFire env s ((CStr.lit "/spot/api/1/queue/add?" ++ escInto item.uri 128 true).fit 192)
      | none => s
  | .album i =>
      match (albumsShown s).items[i]? with
      | some album =>
          startFire env s ((CStr.lit "/spot/api/1/queue/album?id=" ++ album.id).fit 192)
      | none => s
  | .artist _ | .back | .none => s

/-- `RunSearch`, on the UTF-8 text of the search field. -/
def runSearch (env : Env) (s : Globals) (query : CStr) : Globals :=
  if query.bytes = [] then s
  else
    let sel := (CStr.lit "/spot/api/1/search?q=" ++ escInto (query.fit 384) 1160 false).fit 1200
    match actionRepeat env s sel with
    | (true, s) => s
    | (false, s) =>
        { s with
          -- the mode changes here, the rows only with the reply
          gAlbumBrowse := false
          gBrowseArtist := .empty
          gArtistTx := none
          gSearchTx := cqTxNew env s sel
          nextTx := s.nextTx + 1 }

/-- The Play/Pause button. -/
def clickPlay (env : Env) (s : Globals) : Globals :=
  let playing := s.shown.gSnap.state = .playing
  let sel : CStr := if playing then .lit "/spot/api/1/pause" else .lit "/spot/api/1/play"
  match actionRepeat env s sel with
  | (true, s) => s
  | (false, s) => startCommand env (setIntent env s (if playing then .pause else .play)) sel

/-- The volume slider, released at `value`. -/
def setVolume (env : Env) (s : Globals) (value : Nat) : Globals :=
  startCommand env { s with gVolHold := env.tick + cqHoldTicks }
    ((CStr.lit "/spot/api/1/volume?" ++ decimal value).fit 48)

/-- A click on the progress bar, `frac` out of `span` from its left end. -/
def seek (env : Env) (s : Globals) (frac span : Nat) : Globals :=
  if s.shown.gHaveSnap ∧ 0 < s.shown.gSnap.durationMs then
    let ms := (s.shown.gSnap.durationMs * (min frac span : Nat)).tdiv span
    startCommand env s
      ((CStr.lit "/spot/api/1/seek?" ++ decimalInt (ms.bmod (2 ^ 32))).fit 48)
  else s

/-- A tap on Prev. -/
def clickPrev (env : Env) (s : Globals) : Globals :=
  debounceTap env (setIntent env s .skip) (.lit "/spot/api/1/prev")

/-- The script commands that go straight to the wire: the intent and the selector. -/
def scriptCommand (env : Env) (s : Globals) (kind : CqIntentKind) (sel : CStr) : Globals :=
  startCommand env (setIntent env s kind) sel

/-- The `play`, `pause`, `prev` and `wake` of `DoScriptCmd`, and ⌘K. -/
inductive ScriptCmd where
  | play
  | pause
  | prev
  | wake

/-- `DoScriptCmd`, for the commands that start a transaction at once. -/
def doScriptCmd (env : Env) (s : Globals) : ScriptCmd → Globals
  | .play => scriptCommand env s .play (.lit "/spot/api/1/play")
  | .pause => scriptCommand env s .pause (.lit "/spot/api/1/pause")
  | .prev => scriptCommand env s .skip (.lit "/spot/api/1/prev")
  | .wake => scriptCommand env s .play (.lit "/spot/api/1/wake?play=1")

/-! ## The server -/

/-- `ApplyServerChange`. -/
def applyServerChange (s : Globals) : Globals :=
  { s with
    gTx := none
    probe := { s.probe with gCmd := none }
    gCover := none
    gFire := none
    gSearchTx := none
    gArtistTx := none
    gQueueTx := none
    gFactTx := none
    gPls := none
    shown := { s.shown with gGuard := cqGuardReset s.shown.gGuard }
    gBackoff := cqBackoffInit cqPollTicks cqPollCap
    gQBackoff := cqBackoffInit cqQueuePollTicks cqPollCap
    gFBackoff := cqBackoffInit cqStreamPollTicks cqPollCap
    gLastPoll := 0
    gQueueLast := 0
    gQueueKick := 0
    gStreamProbe := .unprobed
    gHaveFact := false
    gFactLast := 0
    gCovers := cqCacheInit }

/-- The `server:` script command, parsed to a host and a port. -/
def setServer (s : Globals) (host : CStr) (port : Nat) : Globals :=
  if host.bytes = [] then s
  else
    applyServerChange
      { s with
        gHost := host.fit 64
        gPort := port }

/-- The prefs file names another server. -/
def configMoved (s : Globals) (host : CStr) (port : Nat) : Bool :=
  host.fit 64 ≠ s.gHost || port ≠ s.gPort

/-- `ReloadConfig`, with the host and port of the prefs file. -/
def reloadConfig (s : Globals) (host : CStr) (port : Nat) : Globals :=
  if configMoved s host port then
    applyServerChange
      { s with
        gHost := host.fit 64
        gPort := port }
  else s

/-- A resume: the config is read again, and a poll is due at once. -/
def resume (s : Globals) (host : CStr) (port : Nat) : Globals :=
  { reloadConfig { s with gSuspended := false } host port with gLastPoll := 0 }

/-- `ToggleListen`, where it starts the playlist fetch. -/
def startListen (env : Env) (s : Globals) : Globals :=
  if s.audio.gAuSt = .idle ∧ s.gPls = none then
    { s with
      gPls := cqTxNew env s (.lit "/spot/stream.pls")
      nextTx := s.nextTx + 1 }
  else s

/-! ## Steps -/

/-- What can happen next. -/
inductive Act where
  | pumpCmd
  | pumpCover
  | startCover
  | flushDebounce
  | pollNow
  | pumpFire
  | pumpSearch
  | pumpArtist
  | pumpQueue
  | pumpFact
  | tickView
  /-- The audio engine has moved, and its playlist fetch is over if `plsDone`. -/
  | audio (face : Audio) (plsDone : Bool)
  | startListen
  | clickPrev
  | clickNext
  | clickPlay
  | setVolume (value : Nat)
  | seek (frac span : Nat)
  | clickResult (row : Nat)
  /-- A double click on a row of the queue list. -/
  | clickQueue (row : Nat)
  | queueSelected (row : Nat)
  | runSearch (query : CStr)
  | script (cmd : ScriptCmd)
  /-- ⌘U. -/
  | kickQueue
  | setServer (host : CStr) (port : Nat)
  | suspend
  | resume (host : CStr) (port : Nat)

/-- One step in a world. -/
def perform (env : Env) (s : Globals) : Act → Globals
  | .pumpCmd => pumpCmd env s
  | .pumpCover => pumpCover env s
  | .startCover => startCover env s
  | .flushDebounce => flushDebounce env s
  | .pollNow => pollNow env s
  | .pumpFire => pumpFire env s
  | .pumpSearch => pumpSearch env s
  | .pumpArtist => pumpArtist env s
  | .pumpQueue => pumpQueue env s
  | .pumpFact => pumpFact env s
  | .tickView => tickView env s
  | .audio face plsDone =>
      { s with
        audio := face
        gPls := if plsDone then none else s.gPls }
  | .startListen => startListen env s
  | .clickPrev => clickPrev env s
  | .clickNext => nextCommand env s
  | .clickPlay => clickPlay env s
  | .setVolume value => setVolume env s value
  | .seek frac span => seek env s frac span
  | .clickResult row => clickResult env s row
  | .clickQueue row => playFrom env s s.gQueueItems row none
  | .queueSelected row => queueSelected env s row
  | .runSearch query => runSearch env s query
  | .script cmd => doScriptCmd env s cmd
  | .kickQueue => { s with gQueueKick := env.tick }
  | .setServer host port => setServer s host port
  | .suspend => { s with gSuspended := true }
  | .resume host port => resume s host port

/-- An action and the world it meets. -/
structure Event where
  env : Env
  act : Act

/-- The machine. -/
def step (s : Globals) (e : Event) : Option Globals := some (perform e.env s e.act)

/-- The globals as `main` enters the loop: the server of the prefs file, and whether the launch is to
start playing and QuickTime is there. -/
def launch (host : CStr) (port : Nat) (autoStart qtOk : Bool) : Globals :=
  { shown :=
      { gGuard := cqGuardInit
        gSnap := .zero
        gHaveSnap := false
        gSnapTick := 0
        gAutoNexted := false }
    probe :=
      { gCmd := none
        gNativePlay := .unprobed
        gFallbackUri := .empty
        storedBy := none }
    gHost := host
    gPort := port
    gSuspended := false
    gOnline := false
    gLastMsg := .empty
    gTx := none
    gLastPoll := 0
    gBackoff := cqBackoffInit cqPollTicks cqPollCap
    gDeb := cqDebounceInit
    gCmdFire := 0
    gFire := none
    gLastAction := .empty
    gLastActionTick := 0
    gVolHold := 0
    gIntent :=
      { kind := .none
        ticks := 0
        preTrackId := .empty
        preState := .stopped }
    gView :=
      { stateWord := .empty
        ackActive := false
        titleGreen := false
        status := .empty
        bufferPct := 0
        showProgress := false
        positionMs := 0
        durationMs := 0
        coverKey := .empty }
    lastDraw := 0
    gAutoStart := autoStart
    gAutoWoke := false
    gAutoPlayPending := false
    gQTOk := qtOk
    gCover := none
    gCoverReq := .empty
    gCovers := cqCacheInit
    gSearchList := []
    gSearchTx := none
    gSearchItems := ⟨[]⟩
    gSearchArtists := ⟨[]⟩
    gSearchAlbums := ⟨[]⟩
    gArtistTx := none
    gArtistAlbums := ⟨[]⟩
    gAlbumBrowse := false
    gBrowseArtist := .empty
    gQueueTx := none
    gQueueItems := ⟨[]⟩
    gQueueLast := 0
    gQBackoff := cqBackoffInit cqQueuePollTicks cqPollCap
    gQueueKick := 0
    gQueueEmptyRuns := 0
    gFactTx := none
    gStreamProbe := .unprobed
    gHaveFact := false
    gFactLive := 0
    gFactTs := 0
    gFactLast := 0
    gFBackoff := cqBackoffInit cqStreamPollTicks cqPollCap
    gPls := none
    audio :=
      { gAuSt := .idle
        gPlaying := false
        ringFill := 0
        gStream := false
        gRxTick := 0
        gStarveTick := 0 }
    nextTx := 0 }

/-- A pass of `PollNetwork` is a run of its limbs. -/
theorem pollNetwork_eq_run (env : Env) (s : Globals) :
    run step s [⟨env, .pumpCmd⟩, ⟨env, .pumpCover⟩, ⟨env, .startCover⟩, ⟨env, .flushDebounce⟩,
      ⟨env, .pollNow⟩] = some (pollNetwork env s) :=
  rfl

end Casquinha.App
