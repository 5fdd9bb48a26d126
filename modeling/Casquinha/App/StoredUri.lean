import Casquinha.App.Watchdog

/-!
# The stored uri (`gFallbackUri`)

`PlayFrom` stores the clicked uri, cut to 128 bytes, and nothing else does. In every other step the uri
stays as it is or is put down (`uri_perform`), so a run that remembers the last click that was stored
knows what the stored uri was cut from (`Remembers`).
-/

set_option autoImplicit false

namespace Casquinha.App

open Lib Wire

/-- The globals with the uri of the last click that was stored, as a whole. -/
abbrev Clicked := Traced Globals (Option CStr)

/-- The click that a step stores is remembered. -/
def noteClick (clicked : Option CStr) (s : Globals) (e : Event) : Option CStr :=
  match (playCall s e).bind fun call => call.stores s with
  | some (uri, _) => some uri
  | none => clicked

/-- A stored uri is the click that is remembered, cut to its buffer. -/
def Remembers (y : Clicked) : Prop :=
  y.state.probe.gFallbackUri.bytes ≠ [] →
    ∃ uri, y.log = some uri ∧ y.state.probe.gFallbackUri = uri.fit 128

/-- The launch, with no click to remember. -/
def unclicked (host : CStr) (port : Nat) (autoStart qtOk : Bool) : Clicked :=
  ⟨launch host port autoStart qtOk, none⟩

/-! ## What becomes of it -/

/-- What becomes of the stored uri `u` when a step stores what `stored` says. -/
def UriAfter (stored : Option (CStr × CStr)) (u u' : CStr) : Prop :=
  match stored with
  | some (uri, _) => u' = uri.fit 128
  | none => u' = u ∨ u' = .empty

theorem uriAfter_none {u : CStr} : UriAfter none u u := .inl rfl

theorem uri_startCommand (env : Env) (s : Globals) (sel : CStr) :
    (startCommand env s sel).probe.gFallbackUri = s.probe.gFallbackUri :=
  (probe_startCommand env s sel).1

theorem uri_storeAndStart (env : Env) (s : Globals) (uri sel : CStr) :
    (storeAndStart env s uri sel).probe.gFallbackUri = uri.fit 128 := by
  rcases storeAndStart_cases env s uri sel with ⟨-, h⟩ | ⟨-, t, rfl, h⟩
  · rw [h]
  · rw [h]
    exact uri_startCommand env _ sel

theorem uri_playFrom (env : Env) (s : Globals) (call : PlayCall) :
    UriAfter (call.stores s) s.probe.gFallbackUri
      (playFrom env s call.items call.row call.cont).probe.gFallbackUri := by
  cases hstores : call.stores s with
  | none =>
      rw [probe_playFrom_of_no_store env s call hstores]
      exact uriAfter_none
  | some pair =>
      obtain ⟨uri, sel⟩ := pair
      rw [(playFrom_of_stores env hstores).1]
      exact uri_storeAndStart env s uri sel

theorem uri_autoWake (env : Env) (s : Globals) :
    (autoWake env s).probe.gFallbackUri = s.probe.gFallbackUri := by
  simp only [autoWake]
  split
  · split
    · split
      · rfl
      · exact uri_startCommand env _ _
      · rfl
    · exact uri_startCommand env _ _
  · rfl

theorem uri_watchdog (env : Env) (s : Globals) (n : CqNow) :
    UriAfter ((watchdogCall s n).bind fun call => call.stores s) s.probe.gFallbackUri
      (watchdog env s n).probe.gFallbackUri := by
  rw [watchdog, watchdogCall]
  split
  · cases queueNextRow s with
    | none => exact uriAfter_none
    | some row =>
        exact uri_playFrom env { s with shown := { s.shown with gAutoNexted := true } }
          ⟨s.gQueueItems, row, none⟩
  · split <;> exact uriAfter_none

theorem uri_adoptSnapshot (env : Env) (s : Globals) (n : CqNow) :
    (adoptSnapshot env s n).probe.gFallbackUri = (watchdog env s n).probe.gFallbackUri := by
  simp only [adoptSnapshot, probe_dropPending, uri_autoWake, probe_settleVolume]
  simp only [showSnapshot, probe_kickQueue]

/-- A poll's reply stores what its watchdog stores. -/
theorem uri_adoptReply_poll (env : Env) (s : Globals) (data : Bytes) :
    UriAfter ((replyCall s data).bind fun call => call.stores s) s.probe.gFallbackUri
      (adoptReply env s data false).probe.gFallbackUri := by
  simp only [adoptReply, probe_redraw, replyCall, healthyReply]
  cases replyError data with
  | some err =>
      simp only [adoptError, takesFallback, Bool.false_and, Bool.false_eq_true, if_false]
      split <;> exact uriAfter_none
  | none =>
      simp only [adoptHealthy, answerProbe, answersProbe, Bool.false_and, Bool.false_eq_true,
        if_false]
      split
      · rw [uri_adoptSnapshot]
        have stored := uri_watchdog env (adopting s false (cqNowFromFields (replyFields data)))
          (cqNowFromFields (replyFields data))
        exact stored
      · exact uriAfter_none

/-- A command's reply keeps the uri or puts it down. -/
theorem uri_adoptReply_cmd_or (env : Env) {s : Globals} (data : Bytes)
    (hbusy : s.probe.gCmd.isSome) :
    UriAfter none s.probe.gFallbackUri (adoptReply env s data true).probe.gFallbackUri := by
  simp only [adoptReply, probe_redraw]
  cases replyError data with
  | some err =>
      simp only [adoptError]
      split
      · exact uriAfter_none
      · split
        · rw [fallBack, (aside_startFire _ _ _).probe]
          exact .inr rfl
        · exact uriAfter_none
  | none =>
      have answered : ∀ t : Globals,
          UriAfter none t.probe.gFallbackUri (answerProbe t true).probe.gFallbackUri ∧
            (t.probe.gCmd.isSome → (answerProbe t true).probe.gCmd.isSome) := by
        intro t
        rw [answerProbe]
        split
        · exact ⟨.inr rfl, id⟩
        · exact ⟨uriAfter_none, id⟩
      simp only [adoptHealthy]
      split
      · rw [probe_adoptSnapshot_of_busy]
        · exact (answered { s with gOnline := true }).1
        · exact (answered { s with gOnline := true }).2 hbusy
      · exact (answered { s with gOnline := true }).1

theorem uri_of_aside {s t : Globals} (h : Aside s t) :
    UriAfter none s.probe.gFallbackUri t.probe.gFallbackUri := by
  rw [h.probe]
  exact uriAfter_none

theorem uri_pumpCmd (env : Env) (s : Globals) :
    UriAfter none s.probe.gFallbackUri (pumpCmd env s).probe.gFallbackUri := by
  rw [pumpCmd]
  cases hcmd : s.probe.gCmd with
  | none => exact uriAfter_none
  | some tx =>
      dsimp only
      cases env.poll tx.id with
      | running => exact uriAfter_none
      | done data => exact uri_adoptReply_cmd_or env data (by rw [hcmd]; rfl)
      | failed message =>
          dsimp only
          rw [probe_redraw]
          exact uriAfter_none

theorem uri_pollNow (env : Env) (s : Globals) :
    UriAfter ((playCall s ⟨env, .pollNow⟩).bind fun call => call.stores s) s.probe.gFallbackUri
      (pollNow env s).probe.gFallbackUri := by
  rw [pollNow, pumpPoll]
  simp only [playCall]
  cases s.gTx with
  | none =>
      rw [if_neg (by simp)]
      exact uri_of_aside (aside_startPoll env s)
  | some tx =>
      simp only [Option.isSome_some, if_true, Option.bind_some]
      cases env.poll tx.id with
      | running => exact uriAfter_none
      | done data => exact uri_adoptReply_poll env s data
      | failed message =>
          dsimp only
          rw [probe_redraw]
          exact uriAfter_none

theorem uri_pumpQueue (env : Env) (s : Globals) :
    UriAfter ((playCall s ⟨env, .pumpQueue⟩).bind fun call => call.stores s) s.probe.gFallbackUri
      (pumpQueue env s).probe.gFallbackUri := by
  rcases pumpQueue_cases env s with ⟨fresh, hcall, hplayed⟩ | ⟨hcall, hquiet⟩
  · rw [hcall, hplayed]
    exact uri_playFrom env (readied env s fresh) ⟨fresh, 0, none⟩
  · rw [hcall, hquiet]
    exact uriAfter_none

theorem uri_nextCommand (env : Env) (s : Globals) :
    UriAfter ((playCall s ⟨env, .clickNext⟩).bind fun call => call.stores s) s.probe.gFallbackUri
      (nextCommand env s).probe.gFallbackUri := by
  have hrow : nextRow (setIntent env s .skip) = nextRow s := rfl
  simp only [nextCommand, playCall, hrow]
  cases nextRow s with
  | none => exact uriAfter_none
  | some row => exact uri_playFrom env (setIntent env s .skip) ⟨s.gQueueItems, row, none⟩

theorem uri_playContextAlbum (env : Env) (s : Globals) (albumId : CStr) :
    (playContextAlbum env s albumId).probe.gFallbackUri = s.probe.gFallbackUri := by
  rcases playContextAlbum_cases env s albumId with h | ⟨sel, h⟩
  · rw [h]
  · rw [h]
    exact uri_startCommand env _ _

theorem uri_clickResult (env : Env) (s : Globals) (row : Nat) :
    UriAfter ((playCall s ⟨env, .clickResult row⟩).bind fun call => call.stores s)
      s.probe.gFallbackUri (clickResult env s row).probe.gFallbackUri := by
  simp only [clickResult, playCall]
  cases resultKindAt s row with
  | track i => exact uri_playFrom env s ⟨s.gSearchItems, i, some s.gQueueItems⟩
  | artist i =>
      dsimp only
      split
      · exact uri_of_aside (aside_startArtistAlbums _ _ _ _)
      · exact uriAfter_none
  | album i =>
      dsimp only
      split
      · exact .inl (uri_playContextAlbum env s _)
      · exact uriAfter_none
  | back => exact uriAfter_none
  | none => exact uriAfter_none

theorem uri_flushDebounce (env : Env) (s : Globals) :
    (flushDebounce env s).probe.gFallbackUri = s.probe.gFallbackUri := by
  simp only [flushDebounce]
  split
  · split
    · exact uri_startCommand env _ _
    · rfl
  · rfl

theorem uri_clickPlay (env : Env) (s : Globals) :
    (clickPlay env s).probe.gFallbackUri = s.probe.gFallbackUri := by
  rcases clickPlay_cases env s with h | ⟨kind, sel, h⟩
  · rw [h]
  · rw [h]
    exact uri_startCommand env _ _

theorem uri_seek (env : Env) (s : Globals) (frac span : Nat) :
    (seek env s frac span).probe.gFallbackUri = s.probe.gFallbackUri := by
  simp only [seek]
  split
  · exact uri_startCommand env _ _
  · rfl

theorem uri_doScriptCmd (env : Env) (s : Globals) (cmd : ScriptCmd) :
    (doScriptCmd env s cmd).probe.gFallbackUri = s.probe.gFallbackUri := by
  cases cmd <;> exact uri_startCommand env _ _

/-- **What becomes of the stored uri** in a step: the click that the step stores, cut; else it stays, or
is put down. -/
theorem uri_perform (s : Globals) (e : Event) :
    UriAfter ((playCall s e).bind fun call => call.stores s) s.probe.gFallbackUri
      (perform e.env s e.act).probe.gFallbackUri := by
  obtain ⟨env, act⟩ := e
  cases act with
  | pumpCmd => exact uri_pumpCmd env s
  | pollNow => exact uri_pollNow env s
  | pumpQueue => exact uri_pumpQueue env s
  | clickNext => exact uri_nextCommand env s
  | clickResult row => exact uri_clickResult env s row
  | clickQueue row => exact uri_playFrom env s ⟨s.gQueueItems, row, none⟩
  -- commands of their own
  | flushDebounce => exact .inl (uri_flushDebounce env s)
  | clickPlay => exact .inl (uri_clickPlay env s)
  | setVolume value => exact .inl (uri_startCommand env _ _)
  | seek frac span => exact .inl (uri_seek env s frac span)
  | script cmd => exact .inl (uri_doScriptCmd env s cmd)
  -- the others leave the probe alone
  | pumpCover => exact uri_of_aside (aside_pumpCover env s)
  | startCover => exact uri_of_aside (aside_startCover env s)
  | pumpFire => exact uri_of_aside (aside_pumpFire env s)
  | pumpSearch => exact uri_of_aside (aside_pumpSearch env s)
  | pumpArtist => exact uri_of_aside (aside_pumpArtist env s)
  | pumpFact => exact uri_of_aside (aside_pumpFact env s)
  | tickView => exact uri_of_aside (aside_tickView env s)
  | startListen => exact uri_of_aside (aside_startListen env s)
  | queueSelected row => exact uri_of_aside (aside_queueSelected env s row)
  | runSearch query => exact uri_of_aside (aside_runSearch env s query)
  | audio face plsDone => exact uriAfter_none
  | clickPrev => exact uriAfter_none
  | kickQueue => exact uriAfter_none
  | suspend => exact uriAfter_none
  | setServer host port =>
      simp only [perform, setServer]
      split <;> exact uriAfter_none
  | resume host port =>
      simp only [perform, resume, reloadConfig]
      split <;> exact uriAfter_none

/-- A run remembers the click whose uri is stored. -/
theorem Remembers.step {y z : Clicked} {e : Event} (h : Remembers y)
    (hz : traced App.step noteClick y e = some z) : Remembers z := by
  obtain ⟨t, ht, rfl⟩ := Option.map_eq_some_iff.1 hz
  cases ht
  have after := uri_perform y.state e
  intro hne
  cases hstored : (playCall y.state e).bind fun call => call.stores y.state with
  | some pair =>
      obtain ⟨uri, sel⟩ := pair
      rw [hstored] at after
      refine ⟨uri, ?_, after⟩
      simp only [noteClick, hstored]
  | none =>
      rw [hstored] at after
      simp only [noteClick, hstored]
      rcases after with same | gone
      · rw [same] at hne ⊢
        exact h hne
      · rw [gone] at hne
        exact absurd rfl hne

end Casquinha.App
