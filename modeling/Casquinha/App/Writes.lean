import Casquinha.App.Adoption

/-!
# What commands and replies write

Starting a command or a fire writes the handles and the note of the last action (`withStart`).
Commands, fires, replies and the view write a fixed set of globals (`withTalk`). The lists of the
window, the cover cache, the server and the audio engine are not among them: a step that only talks
(`Talks`) leaves these alone (`Talks.frame`). The poll, its backoff and the mark of the last poll are
written by replies alone: a step that only asks (`Asks`) leaves them alone too.
-/

set_option autoImplicit false

namespace Casquinha.App

open Lib Wire

/-- `s` with the globals of `t` that commands, fires, replies and the view write. -/
def withTalk (s t : Globals) : Globals :=
  { s with
    shown := t.shown
    probe := t.probe
    gOnline := t.gOnline
    gLastMsg := t.gLastMsg
    gTx := t.gTx
    gLastPoll := t.gLastPoll
    gBackoff := t.gBackoff
    gDeb := t.gDeb
    gCmdFire := t.gCmdFire
    gFire := t.gFire
    gLastAction := t.gLastAction
    gLastActionTick := t.gLastActionTick
    gVolHold := t.gVolHold
    gIntent := t.gIntent
    gView := t.gView
    lastDraw := t.lastDraw
    gAutoWoke := t.gAutoWoke
    gAutoPlayPending := t.gAutoPlayPending
    gQueueKick := t.gQueueKick
    nextTx := t.nextTx }

/-- Nothing else has changed. -/
def Talks (s t : Globals) : Prop := withTalk s t = t

theorem Talks.refl (s : Globals) : Talks s s := rfl

theorem Talks.trans {s t u : Globals} (h : Talks s t) (h' : Talks t u) : Talks s u := by
  have hsame : withTalk s u = withTalk (withTalk s t) u := rfl
  rw [Talks, hsame, h]
  exact h'

/-- More talk after some. -/
theorem Talks.after {s t u : Globals} (h : Talks t u) (hst : withTalk s t = t) : Talks s u :=
  Talks.trans hst h

/-- Whatever does not depend on the talk is left alone. -/
theorem Talks.frame {α : Type} {s t : Globals} (h : Talks s t) (f : Globals → α)
    (hf : f (withTalk s t) = f s) : f t = f s := by
  rw [← hf, h]

/-! ## Starting -/

/-- `s` with the globals of `t` that a start writes: the handles, the last action and the serial
number. -/
def withStart (s t : Globals) : Globals :=
  { s with
    probe := t.probe
    gFire := t.gFire
    gLastAction := t.gLastAction
    gLastActionTick := t.gLastActionTick
    nextTx := t.nextTx }

/-- Nothing else has changed. -/
def Starts (s t : Globals) : Prop := withStart s t = t

theorem Starts.refl (s : Globals) : Starts s s := rfl

/-- Whatever does not depend on the start is left alone. -/
theorem Starts.frame {α : Type} {s t : Globals} (h : Starts s t) (f : Globals → α)
    (hf : f (withStart s t) = f s) : f t = f s := by
  rw [← hf, h]

theorem starts_startCommand (env : Env) (s : Globals) (sel : CStr) :
    Starts s (startCommand env s sel) := by
  rw [startCommand]
  split <;> rfl

theorem starts_startFire (env : Env) (s : Globals) (sel : CStr) :
    Starts s (startFire env s sel) := by
  -- a repeated action is swallowed, another one is noted, and sent unless a fire is in flight
  rcases actionRepeat_cases env s sel with ⟨-, h⟩ | ⟨-, h⟩
  · simp only [startFire, h]
    exact Starts.refl s
  · simp only [startFire, h]
    split <;> rfl

theorem starts_playItem (env : Env) (s : Globals) (items : CqTrackList) (row : Nat) :
    Starts s (playItem env s items row) := by
  rw [playItem]
  split
  · exact Starts.refl s
  · exact starts_startFire _ _ _

theorem starts_storeAndStart (env : Env) (s : Globals) (uri sel : CStr) :
    Starts s (storeAndStart env s uri sel) := by
  -- the fallback is stored in either case
  rcases storeAndStart_cases env s uri sel with ⟨-, h⟩ | ⟨-, t, rfl, h⟩
  · rw [h]
    rfl
  · rw [h, startCommand]
    split <;> rfl

theorem starts_playFrom (env : Env) (s : Globals) (items : CqTrackList) (row : Nat)
    (cont : Option CqTrackList) : Starts s (playFrom env s items row cont) := by
  rw [playFrom]
  split
  · -- no such row
    exact Starts.refl s
  · split
    · -- the server does not know the native play: the row is played by itself
      exact starts_playItem _ _ _ _
    · split
      · exact Starts.refl s
      · split
        · exact starts_playItem _ _ _ _
        · split
          · exact starts_playItem _ _ _ _
          · exact starts_storeAndStart _ _ _ _

/-! ## Commands and the view -/

/-- `s` with the globals of `t` that commands, fires and the view write: what a reply writes beside
them stays as it is. -/
def withAsk (s t : Globals) : Globals :=
  { withTalk s t with
    gOnline := s.gOnline
    gTx := s.gTx
    gLastPoll := s.gLastPoll
    gBackoff := s.gBackoff }

/-- Nothing else has changed. -/
def Asks (s t : Globals) : Prop := withAsk s t = t

theorem Asks.refl (s : Globals) : Asks s s := rfl

theorem Asks.trans {s t u : Globals} (h : Asks s t) (h' : Asks t u) : Asks s u := by
  have hsame : withAsk s u = withAsk (withAsk s t) u := rfl
  rw [Asks, hsame, h]
  exact h'

theorem Asks.after {s t u : Globals} (h : Asks t u) (hst : withAsk s t = t) : Asks s u :=
  Asks.trans hst h

theorem Asks.frame {α : Type} {s t : Globals} (h : Asks s t) (f : Globals → α)
    (hf : f (withAsk s t) = f s) : f t = f s := by
  rw [← hf, h]

theorem Asks.talks {s t : Globals} (h : Asks s t) : Talks s t := by
  have hsame : withTalk s (withAsk s t) = withAsk s t := rfl
  rwa [h] at hsame

theorem Starts.asks {s t : Globals} (h : Starts s t) : Asks s t := by
  have hsame : withAsk s (withStart s t) = withStart s t := rfl
  rwa [h] at hsame

theorem asks_startCommand (env : Env) (s : Globals) (sel : CStr) :
    Asks s (startCommand env s sel) :=
  (starts_startCommand env s sel).asks

theorem asks_startFire (env : Env) (s : Globals) (sel : CStr) : Asks s (startFire env s sel) :=
  (starts_startFire env s sel).asks

theorem asks_playFrom (env : Env) (s : Globals) (items : CqTrackList) (row : Nat)
    (cont : Option CqTrackList) : Asks s (playFrom env s items row cont) :=
  (starts_playFrom env s items row cont).asks

theorem asks_playContextAlbum (env : Env) (s : Globals) (albumId : CStr) :
    Asks s (playContextAlbum env s albumId) := by
  rcases playContextAlbum_cases env s albumId with h | ⟨sel, h⟩
  · rw [h]
    exact Asks.refl s
  · rw [h]
    exact (asks_startCommand env _ _).after rfl

theorem asks_nextCommand (env : Env) (s : Globals) : Asks s (nextCommand env s) := by
  simp only [nextCommand]
  split
  · exact (asks_playFrom env _ _ _ _).after rfl
  · rfl

theorem asks_queueSelected (env : Env) (s : Globals) (row : Nat) :
    Asks s (queueSelected env s row) := by
  rw [queueSelected]
  split
  · split
    · exact asks_startFire _ _ _
    · exact Asks.refl s
  · split
    · exact asks_startFire _ _ _
    · exact Asks.refl s
  · exact Asks.refl s
  · exact Asks.refl s
  · exact Asks.refl s

theorem asks_clickPlay (env : Env) (s : Globals) : Asks s (clickPlay env s) := by
  rcases clickPlay_cases env s with h | ⟨kind, sel, h⟩
  · rw [h]
    exact Asks.refl s
  · rw [h]
    exact (asks_startCommand env _ _).after rfl

theorem asks_setVolume (env : Env) (s : Globals) (value : Nat) :
    Asks s (setVolume env s value) :=
  (asks_startCommand env _ _).after rfl

theorem asks_seek (env : Env) (s : Globals) (frac span : Nat) : Asks s (seek env s frac span) := by
  simp only [seek]
  split
  · exact asks_startCommand _ _ _
  · exact Asks.refl s

theorem asks_doScriptCmd (env : Env) (s : Globals) (cmd : ScriptCmd) :
    Asks s (doScriptCmd env s cmd) := by
  cases cmd <;> exact (asks_startCommand env _ _).after rfl

theorem asks_flushDebounce (env : Env) (s : Globals) : Asks s (flushDebounce env s) := by
  simp only [flushDebounce]
  split
  · split
    · -- a selector was waiting: it is sent
      exact (asks_startCommand env _ _).after rfl
    · rfl
  · exact Asks.refl s

theorem asks_pumpFire (env : Env) (s : Globals) : Asks s (pumpFire env s) := by
  rw [pumpFire]
  split
  · exact Asks.refl s
  · split <;> rfl

theorem asks_dropIntent (s : Globals) (v : CqView) : Asks s (dropIntent s v) := by
  rw [dropIntent]
  split <;> rfl

theorem asks_redraw (env : Env) (s : Globals) : Asks s (redraw env s) :=
  (asks_dropIntent _ _).after rfl

theorem asks_tickView (env : Env) (s : Globals) : Asks s (tickView env s) := by
  rw [tickView]
  split
  · exact Asks.refl s
  · dsimp only
    split
    · exact (asks_dropIntent s _).trans ((asks_redraw env _).after rfl)
    · exact asks_dropIntent s _

theorem asks_watchdog (env : Env) (s : Globals) (tmp : CqNow) : Asks s (watchdog env s tmp) := by
  rw [watchdog]
  split
  · dsimp only
    split
    · -- the track has ended: the next row is played
      exact (asks_playFrom env _ _ _ _).after rfl
    · rfl
  · split <;> rfl

theorem asks_autoWake (env : Env) (s : Globals) : Asks s (autoWake env s) := by
  simp only [autoWake]
  split
  · split
    · split
      · -- the player is at it already: only the mark is set
        rfl
      · exact (asks_startCommand env _ _).after rfl
      · rfl
    · exact (asks_startCommand env _ _).after rfl
  · exact Asks.refl s

theorem asks_adoptSnapshot (env : Env) (s : Globals) (tmp : CqNow) :
    Asks s (adoptSnapshot env s tmp) := by
  have hkick : ∀ t, Asks t (kickQueue env t tmp) := by
    intro t
    rw [kickQueue]
    split <;> rfl
  have hsettle : ∀ t held keepVol, Asks t (settleVolume t held keepVol) := by
    intro t held keepVol
    rw [settleVolume]
    split <;> rfl
  have hpending : ∀ t, Asks t (dropPending t) := by
    intro t
    rw [dropPending]
    split <;> rfl
  -- in the order of the source
  refine (asks_watchdog env s tmp).trans ?_
  refine (hkick _).trans ?_
  refine Asks.trans (rfl : Asks _ (showSnapshot env _ tmp)) ?_
  refine (hsettle _ (volHeld env s) s.shown.gSnap.volume).trans ?_
  exact (asks_autoWake env _).trans (hpending _)

/-! ## Replies -/

theorem talks_adoptReply (env : Env) (s : Globals) (data : Bytes) (isCmd : Bool) :
    Talks s (adoptReply env s data isCmd) := by
  simp only [adoptReply]
  -- the redraw is the last thing that happens
  refine Talks.trans ?_ (asks_redraw env _).talks
  split
  · rw [adoptError]
    split
    · rfl
    · split
      · -- the fallback is fired
        exact (asks_startFire env _ _).talks.after rfl
      · rfl
  · have hanswer : ∀ t, Talks t (answerProbe t isCmd) := by
      intro t
      rw [answerProbe]
      split <;> rfl
    simp only [adoptHealthy]
    refine Talks.trans (rfl : Talks s { s with gOnline := true }) ((hanswer _).trans ?_)
    split
    · exact (asks_adoptSnapshot env _ _).talks.after rfl
    · rfl

theorem talks_pumpCmd (env : Env) (s : Globals) : Talks s (pumpCmd env s) := by
  rw [pumpCmd]
  split
  · exact Talks.refl s
  · split
    · exact Talks.refl s
    · exact (talks_adoptReply env s _ true).trans rfl
    · exact (asks_redraw env _).talks.after rfl

theorem talks_pollNow (env : Env) (s : Globals) : Talks s (pollNow env s) := by
  rw [pollNow, pumpPoll, startPoll]
  split
  · split
    · -- a transaction in flight is advanced
      exact Talks.refl s
    · split
      · exact Talks.refl s
      · exact (talks_adoptReply env s _ false).trans rfl
      · exact (asks_redraw env _).talks.after rfl
  · split <;> rfl

/-! ## Steps -/

/-- `s` with the globals of `t` that an action writes, unless it changes the server. -/
def written (act : Act) (s t : Globals) : Globals :=
  match act with
  | .pumpCover | .startCover =>
      { withTalk s t with
        gCover := t.gCover
        gCoverReq := t.gCoverReq
        gCovers := t.gCovers }
  | .pumpSearch | .pumpArtist | .runSearch _ | .clickResult _ =>
      { withTalk s t with
        gSearchList := t.gSearchList
        gSearchTx := t.gSearchTx
        gSearchItems := t.gSearchItems
        gSearchArtists := t.gSearchArtists
        gSearchAlbums := t.gSearchAlbums
        gArtistTx := t.gArtistTx
        gArtistAlbums := t.gArtistAlbums
        gAlbumBrowse := t.gAlbumBrowse
        gBrowseArtist := t.gBrowseArtist }
  | .pumpQueue =>
      { withTalk s t with
        gQueueTx := t.gQueueTx
        gQueueItems := t.gQueueItems
        gQueueLast := t.gQueueLast
        gQBackoff := t.gQBackoff
        gQueueEmptyRuns := t.gQueueEmptyRuns }
  | .pumpFact =>
      { withTalk s t with
        gFactTx := t.gFactTx
        gStreamProbe := t.gStreamProbe
        gHaveFact := t.gHaveFact
        gFactLive := t.gFactLive
        gFactTs := t.gFactTs
        gFactLast := t.gFactLast
        gFBackoff := t.gFBackoff }
  | .audio _ _ | .startListen =>
      { withTalk s t with
        audio := t.audio
        gPls := t.gPls }
  | .setServer _ _ | .resume _ _ | .suspend => { withTalk s t with gSuspended := t.gSuspended }
  | .pumpCmd | .flushDebounce | .pollNow | .pumpFire | .tickView | .clickPrev | .clickNext
  | .clickPlay | .setVolume _ | .seek _ _ | .clickQueue _ | .queueSelected _ | .script _
  | .kickQueue => withTalk s t

/-- `s` with what an action writes that neither starts a poll nor delivers a reply. -/
def writtenAside (act : Act) (s t : Globals) : Globals :=
  { written act s t with
    gOnline := s.gOnline
    gTx := s.gTx
    gLastPoll := s.gLastPoll
    gBackoff := s.gBackoff }

/-- An action that writes its own globals and then asks. -/
theorem Asks.written {act : Act} {s t u : Globals} (h : Asks t u)
    (ht : writtenAside act s (withAsk t u) = withAsk t u) : writtenAside act s u = u := by
  rwa [h] at ht

/-- An action that asks and does nothing else. -/
theorem Asks.aside {act : Act} {s t : Globals} (h : Asks s t) (hact : App.written act = withTalk) :
    writtenAside act s t = t := by
  rw [writtenAside, hact]
  exact h

theorem written_of_aside {act : Act} {s t : Globals} (h : writtenAside act s t = t) :
    written act s t = t := by
  have hsame : written act s (writtenAside act s t) = writtenAside act s t := by
    cases act <;> rfl
  rwa [h] at hsame

theorem writtenAside_pumpCover (env : Env) (s : Globals) :
    writtenAside .pumpCover s (pumpCover env s) = pumpCover env s := by
  rw [pumpCover]
  split
  · simp only [writtenAside, written, withTalk]
  · dsimp only
    split
    · simp only [writtenAside, written, withTalk]
    · rfl
    · split
      · -- a JPEG that decodes is drawn at once
        exact (asks_redraw env _).written (by simp only [writtenAside, written, withAsk, withTalk])
      · simp only [writtenAside, written, withTalk]

theorem writtenAside_startCover (env : Env) (s : Globals) :
    writtenAside .startCover s (startCover env s) = startCover env s := by
  rw [startCover]
  split
  · simp only [writtenAside, written, withTalk]
  · split <;> simp only [writtenAside, written, withTalk]

theorem writtenAside_pumpSearch (env : Env) (s : Globals) :
    writtenAside .pumpSearch s (pumpSearch env s) = pumpSearch env s := by
  rw [pumpSearch]
  split
  · simp only [writtenAside, written, withTalk]
  · split <;> simp only [writtenAside, written, withTalk, fillResults]

theorem writtenAside_pumpArtist (env : Env) (s : Globals) :
    writtenAside .pumpArtist s (pumpArtist env s) = pumpArtist env s := by
  rw [pumpArtist]
  split
  · simp only [writtenAside, written, withTalk]
  · split <;> simp only [writtenAside, written, withTalk, fillResults]

theorem writtenAside_runSearch (env : Env) (s : Globals) (query : CStr) :
    writtenAside (.runSearch query) s (runSearch env s query) = runSearch env s query := by
  rcases runSearch_cases env s query with h | ⟨sel, h⟩
  · rw [h]
    simp only [writtenAside, written, withTalk]
  · rw [h]
    simp only [writtenAside, written, withTalk]

theorem writtenAside_startArtistAlbums (env : Env) (s : Globals) (row : Nat) (id : CStr)
    (name : Option CStr) :
    writtenAside (.clickResult row) s (startArtistAlbums env s id name) =
      startArtistAlbums env s id name := by
  rcases startArtistAlbums_cases env s id name with h | ⟨sel, h⟩
  · rw [h]
    simp only [writtenAside, written, withTalk]
  · rw [h]
    simp only [writtenAside, written, withTalk]

theorem writtenAside_clickResult (env : Env) (s : Globals) (row : Nat) :
    writtenAside (.clickResult row) s (clickResult env s row) = clickResult env s row := by
  rw [clickResult]
  split
  · -- a track is played from its row on
    exact (asks_playFrom env s _ _ _).written (by simp only [writtenAside, written, withAsk, withTalk])
  · split
    · exact writtenAside_startArtistAlbums _ _ _ _ _
    · simp only [writtenAside, written, withTalk]
  · split
    · exact (asks_playContextAlbum env s _).written (by simp only [writtenAside, written, withAsk, withTalk])
    · simp only [writtenAside, written, withTalk]
  · rfl
  · simp only [writtenAside, written, withTalk]

theorem writtenAside_pumpQueue (env : Env) (s : Globals) :
    writtenAside .pumpQueue s (pumpQueue env s) = pumpQueue env s := by
  rw [pumpQueue]
  split
  · rw [startQueue]
    split <;> simp only [writtenAside, written, withTalk]
  · split
    · simp only [writtenAside, written, withTalk]
    · next data _ =>
      dsimp only
      split
      · simp only [adoptQueue]
        split
        · -- the list is in place before the play starts, and the transaction is freed after it
          have h := asks_playFrom env (setIntent env { s with
            gQueueItems := cqTrackListFromResponse data
            gQueueEmptyRuns := 0
            gAutoPlayPending := false } .play) (cqTrackListFromResponse data) 0 none
          rw [← h]
          simp only [writtenAside, written, withTalk, withAsk, setIntent]
        · rfl
      · -- an empty queue is counted, and believed at the second time
        simp only [adoptEmptyQueue]
        split <;> simp only [writtenAside, written, withTalk]
    · simp only [writtenAside, written, withTalk]

theorem writtenAside_pumpFact (env : Env) (s : Globals) :
    writtenAside .pumpFact s (pumpFact env s) = pumpFact env s := by
  rw [pumpFact]
  split
  · rw [startFact]
    split <;> simp only [writtenAside, written, withTalk]
  · split
    · simp only [writtenAside, written, withTalk]
    · simp only [adoptFact]
      split
      · split <;> simp only [writtenAside, written, withTalk]
      · simp only [writtenAside, written, withTalk]
    · rfl

theorem writtenAside_startListen (env : Env) (s : Globals) :
    writtenAside .startListen s (startListen env s) = startListen env s := by
  rw [startListen]
  split <;> simp only [writtenAside, written, withTalk]

theorem writtenAside_setServer (env : Env) {s : Globals} (host : CStr) (port : Nat)
    (h : resetsGuard s ⟨env, .setServer host port⟩ = false) :
    writtenAside (.setServer host port) s (setServer s host port) = setServer s host port := by
  -- an empty host is not taken
  have hnil : host.bytes = [] := by simpa [resetsGuard] using h
  rw [setServer, if_pos hnil]
  rfl

theorem written_resume (env : Env) {s : Globals} (host : CStr) (port : Nat)
    (h : resetsGuard s ⟨env, .resume host port⟩ = false) :
    written (.resume host port) s (resume s host port) = resume s host port := by
  -- the config file names the same server
  have hmoved : configMoved { s with gSuspended := false } host port = false := h
  rw [resume, reloadConfig, if_neg (by rw [hmoved]; simp)]
  rfl

/-- The actions that may start a poll, deliver a reply or make a poll due. -/
def drivesPoll : Act → Bool
  | .pumpCmd | .pollNow | .resume _ _ => true
  | _ => false

/-- **What an action writes beside the poll.** -/
theorem writtenAside_perform {env : Env} {s : Globals} {act : Act}
    (h : resetsGuard s ⟨env, act⟩ = false) (haside : drivesPoll act = false) :
    writtenAside act s (perform env s act) = perform env s act := by
  cases act with
  | pumpCmd => cases haside
  | pollNow => cases haside
  | resume host port => cases haside
  -- actions that ask and do nothing else
  | flushDebounce => exact (asks_flushDebounce env s).aside rfl
  | pumpFire => exact (asks_pumpFire env s).aside rfl
  | tickView => exact (asks_tickView env s).aside rfl
  | clickNext => exact (asks_nextCommand env s).aside rfl
  | clickPlay => exact (asks_clickPlay env s).aside rfl
  | setVolume value => exact (asks_setVolume env s value).aside rfl
  | seek frac span => exact (asks_seek env s frac span).aside rfl
  | clickQueue row => exact (asks_playFrom env s _ row none).aside rfl
  | queueSelected row => exact (asks_queueSelected env s row).aside rfl
  | script cmd => exact (asks_doScriptCmd env s cmd).aside rfl
  -- actions with globals of their own
  | pumpCover => exact writtenAside_pumpCover env s
  | startCover => exact writtenAside_startCover env s
  | pumpSearch => exact writtenAside_pumpSearch env s
  | pumpArtist => exact writtenAside_pumpArtist env s
  | runSearch query => exact writtenAside_runSearch env s query
  | clickResult row => exact writtenAside_clickResult env s row
  | pumpQueue => exact writtenAside_pumpQueue env s
  | pumpFact => exact writtenAside_pumpFact env s
  | startListen => exact writtenAside_startListen env s
  | setServer host port => exact writtenAside_setServer env host port h
  | clickPrev => exact Asks.aside (show Asks s (clickPrev env s) from rfl) rfl
  | kickQueue => exact Asks.aside (show Asks s { s with gQueueKick := env.tick } from rfl) rfl
  | suspend => simp only [perform, writtenAside, written, withTalk]
  | audio face plsDone => simp only [perform, writtenAside, written, withTalk]

/-- **No step writes more than its action does**, unless it changes the server. -/
theorem written_perform {env : Env} {s : Globals} {act : Act}
    (h : resetsGuard s ⟨env, act⟩ = false) :
    written act s (perform env s act) = perform env s act := by
  by_cases haside : drivesPoll act = false
  · exact written_of_aside (writtenAside_perform h haside)
  · cases act with
    | pumpCmd => exact talks_pumpCmd env s
    | pollNow => exact talks_pollNow env s
    | resume host port => exact written_resume env host port h
    | _ => exact absurd rfl haside

/-- A step leaves alone whatever does not depend on what its action writes. -/
theorem perform_frame {α : Type} {env : Env} {s : Globals} {act : Act}
    (h : resetsGuard s ⟨env, act⟩ = false) (f : Globals → α)
    (hf : f (written act s (perform env s act)) = f s) : f (perform env s act) = f s := by
  rwa [written_perform h] at hf

/-- A change of server is `ApplyServerChange` on the new host and port. -/
theorem perform_of_resets {s : Globals} {e : Event} (h : resetsGuard s e = true) :
    ∃ host port suspended, perform e.env s e.act =
      applyServerChange { s with
        gHost := host
        gPort := port
        gSuspended := suspended } := by
  obtain ⟨env, act⟩ := e
  cases act with
  | setServer host port =>
      -- a host that is not empty is taken whatever it is
      have hhost : host.bytes ≠ [] := by simpa [resetsGuard] using h
      refine ⟨host.fit 64, port, s.gSuspended, ?_⟩
      simp only [perform, setServer, if_neg hhost]
  | resume host port =>
      have hmoved : configMoved { s with gSuspended := false } host port = true := h
      refine ⟨host.fit 64, port, false, ?_⟩
      simp only [perform, resume, reloadConfig, if_pos hmoved]
      rfl
  | _ => cases h

end Casquinha.App
