import Casquinha.App.Loop

/-!
# What the functions leave alone

Most functions of the loop touch neither the adopted snapshot (`Shown`) nor the command and its probe
(`Probe`): they are `Aside`. Those that start a command still leave `Shown` alone.
-/

set_option autoImplicit false

namespace Casquinha.App

open Lib Wire

/-- Neither the snapshot nor the probe is touched. -/
structure Aside (s t : Globals) : Prop where
  shown : t.shown = s.shown
  probe : t.probe = s.probe

theorem Aside.refl (s : Globals) : Aside s s := ⟨rfl, rfl⟩

theorem Aside.trans {s t u : Globals} (h : Aside s t) (h' : Aside t u) : Aside s u :=
  ⟨h'.shown.trans h.shown, h'.probe.trans h.probe⟩

/-! ## Rendering and the guard of actions -/

theorem Aside.dropIntent {s t : Globals} (h : Aside s t) (v : CqView) :
    Aside s (dropIntent t v) := by
  rw [App.dropIntent]
  split <;> exact ⟨h.shown, h.probe⟩

theorem Aside.redraw {s t : Globals} (h : Aside s t) (env : Env) : Aside s (redraw env t) := by
  simp only [App.redraw, renderView]
  refine Aside.dropIntent ?_ _
  exact ⟨h.shown, h.probe⟩

theorem fire_redraw (env : Env) (s : Globals) : (redraw env s).gFire = s.gFire := by
  simp only [redraw, renderView, dropIntent]
  split <;> rfl

/-- An action is swallowed, or noted and performed. -/
theorem actionRepeat_cases (env : Env) (s : Globals) (sel : CStr) :
    (isRepeat env s sel = true ∧ actionRepeat env s sel = (true, s)) ∨
      (isRepeat env s sel = false ∧ actionRepeat env s sel =
        (false, { s with
          gLastAction := sel.fit 240
          gLastActionTick := env.tick })) := by
  rw [actionRepeat]
  split
  · next h => exact Or.inl ⟨h, rfl⟩
  · next h => exact Or.inr ⟨by simpa using h, rfl⟩

/-- The uri is stored. A repeat is swallowed after that; another action is noted and started, and the
store belongs to the command in flight. -/
theorem storeAndStart_cases (env : Env) (s : Globals) (uri sel : CStr) :
    (isRepeat env s sel = true ∧ storeAndStart env s uri sel =
      { s with probe := { s.probe with gFallbackUri := uri.fit 128, storedBy := none } }) ∨
      (isRepeat env s sel = false ∧ ∃ t : Globals,
        t = startCommand env
          { s with
            probe := { s.probe with gFallbackUri := uri.fit 128, storedBy := none }
            gLastAction := sel.fit 240
            gLastActionTick := env.tick } sel ∧
          storeAndStart env s uri sel =
            { t with probe := { t.probe with storedBy := t.probe.gCmd.map Tx.id } }) := by
  rcases actionRepeat_cases env
    { s with probe := { s.probe with gFallbackUri := uri.fit 128, storedBy := none } } sel
    with ⟨hrep, h⟩ | ⟨hrep, h⟩
  · refine .inl ⟨hrep, ?_⟩
    simp only [storeAndStart, h]
  · refine .inr ⟨hrep, _, rfl, ?_⟩
    simp only [storeAndStart, h]

/-- An album without an id, or one that was just played, is left; another one is noted and started. -/
theorem playContextAlbum_cases (env : Env) (s : Globals) (albumId : CStr) :
    playContextAlbum env s albumId = s ∨
      ∃ sel, playContextAlbum env s albumId =
        startCommand env (setIntent env
          { s with
            gLastAction := sel.fit 240
            gLastActionTick := env.tick } .play) sel := by
  simp only [playContextAlbum]
  split
  · exact .inl rfl
  · rcases actionRepeat_cases env s ((CStr.lit "/spot/api/1/play/context?uri=" ++
      escInto ((CStr.lit "spotify:album:" ++ albumId).fit 80) 160 true).fit 224)
      with ⟨-, h⟩ | ⟨-, h⟩
    · simp only [h]
      exact .inl trivial
    · simp only [h]
      exact .inr ⟨_, rfl⟩

/-- The albums of an artist are asked for under the note of the action, or not at all. -/
theorem startArtistAlbums_cases (env : Env) (s : Globals) (id : CStr) (name : Option CStr) :
    startArtistAlbums env s id name = s ∨
      ∃ sel, startArtistAlbums env s id name =
        { s with
          gLastAction := sel.fit 240
          gLastActionTick := env.tick
          gBrowseArtist := (name.getD .empty).fit 64
          gArtistTx := cqTxNew env s sel
          nextTx := s.nextTx + 1 } := by
  simp only [startArtistAlbums]
  split
  · exact .inl rfl
  · rcases actionRepeat_cases env s
      ((CStr.lit "/spot/api/1/artist/" ++ id ++ .lit "/albums").fit 128) with ⟨-, h⟩ | ⟨-, h⟩
    · simp only [h]
      exact .inl trivial
    · simp only [h]
      exact .inr ⟨_, rfl⟩

/-- A search is started under the note of the action and drops the drill, or it is not started. -/
theorem runSearch_cases (env : Env) (s : Globals) (query : CStr) :
    runSearch env s query = s ∨
      ∃ sel, runSearch env s query =
        { s with
          gLastAction := sel.fit 240
          gLastActionTick := env.tick
          gAlbumBrowse := false
          gBrowseArtist := .empty
          gArtistTx := none
          gSearchTx := cqTxNew env s sel
          nextTx := s.nextTx + 1 } := by
  simp only [runSearch]
  split
  · exact .inl rfl
  · rcases actionRepeat_cases env s
      ((CStr.lit "/spot/api/1/search?q=" ++ escInto (query.fit 384) 1160 false).fit 1200)
      with ⟨-, h⟩ | ⟨-, h⟩
    · simp only [h]
      exact .inl trivial
    · simp only [h]
      exact .inr ⟨_, rfl⟩

/-- The Play/Pause button is noted and acknowledged, and its command is started, or it is swallowed. -/
theorem clickPlay_cases (env : Env) (s : Globals) :
    clickPlay env s = s ∨
      ∃ kind sel, clickPlay env s =
        startCommand env (setIntent env
          { s with
            gLastAction := sel.fit 240
            gLastActionTick := env.tick } kind) sel := by
  simp only [clickPlay]
  rcases actionRepeat_cases env s (if s.shown.gSnap.state = .playing then .lit "/spot/api/1/pause"
    else .lit "/spot/api/1/play") with ⟨-, h⟩ | ⟨-, h⟩
  · simp only [h]
    exact .inl trivial
  · simp only [h]
    exact .inr ⟨_, _, rfl⟩

theorem aside_startFire (env : Env) (s : Globals) (sel : CStr) : Aside s (startFire env s sel) := by
  rcases actionRepeat_cases env s sel with ⟨-, h⟩ | ⟨-, h⟩
  · simp only [startFire, h]
    exact Aside.refl s
  · simp only [startFire, h]
    split <;> exact ⟨rfl, rfl⟩

theorem aside_playItem (env : Env) (s : Globals) (items : CqTrackList) (row : Nat) :
    Aside s (playItem env s items row) := by
  rw [playItem]
  split
  · exact Aside.refl s
  · exact aside_startFire _ _ _

/-! ## The limbs and gestures that stay aside -/

theorem aside_pumpCover (env : Env) (s : Globals) : Aside s (pumpCover env s) := by
  rw [pumpCover]
  split
  · exact Aside.refl s
  · dsimp only
    split
    · exact Aside.refl s
    · exact ⟨rfl, rfl⟩
    · split
      · refine Aside.redraw ?_ env
        exact ⟨rfl, rfl⟩
      · exact ⟨rfl, rfl⟩

theorem aside_startCover (env : Env) (s : Globals) : Aside s (startCover env s) := by
  rw [startCover]
  split
  · exact Aside.refl s
  · split <;> exact ⟨rfl, rfl⟩

theorem aside_startPoll (env : Env) (s : Globals) : Aside s (startPoll env s) := by
  rw [startPoll]
  split <;> exact ⟨rfl, rfl⟩

theorem aside_pumpFire (env : Env) (s : Globals) : Aside s (pumpFire env s) := by
  rw [pumpFire]
  split
  · exact Aside.refl s
  · split <;> exact ⟨rfl, rfl⟩

theorem aside_pumpSearch (env : Env) (s : Globals) : Aside s (pumpSearch env s) := by
  rw [pumpSearch]
  split
  · exact Aside.refl s
  · split <;> exact ⟨rfl, rfl⟩

theorem aside_pumpArtist (env : Env) (s : Globals) : Aside s (pumpArtist env s) := by
  rw [pumpArtist]
  split
  · exact Aside.refl s
  · split <;> exact ⟨rfl, rfl⟩

theorem aside_adoptEmptyQueue (s : Globals) : Aside s (adoptEmptyQueue s) := by
  simp only [adoptEmptyQueue]
  split <;> exact ⟨rfl, rfl⟩

theorem aside_startQueue (env : Env) (s : Globals) : Aside s (startQueue env s) := by
  rw [startQueue]
  split <;> exact ⟨rfl, rfl⟩

theorem aside_adoptFact (s : Globals) (data : Bytes) : Aside s (adoptFact s data) := by
  simp only [adoptFact]
  split
  · split <;> exact ⟨rfl, rfl⟩
  · exact ⟨rfl, rfl⟩

theorem aside_pumpFact (env : Env) (s : Globals) : Aside s (pumpFact env s) := by
  rw [pumpFact]
  split
  · rw [startFact]
    split <;> exact ⟨rfl, rfl⟩
  · split
    · exact Aside.refl s
    · next data _ => exact (aside_adoptFact s data).trans ⟨rfl, rfl⟩
    · exact ⟨rfl, rfl⟩

theorem aside_tickView (env : Env) (s : Globals) : Aside s (tickView env s) := by
  rw [tickView]
  split
  · exact Aside.refl s
  · dsimp only
    split
    · have h := (Aside.refl s).dropIntent (cqViewRender (buildViewIn env s))
      refine Aside.redraw ?_ env
      exact ⟨h.shown, h.probe⟩
    · exact (Aside.refl s).dropIntent _

theorem aside_startArtistAlbums (env : Env) (s : Globals) (id : CStr) (name : Option CStr) :
    Aside s (startArtistAlbums env s id name) := by
  rcases startArtistAlbums_cases env s id name with h | ⟨sel, h⟩
  · rw [h]
    exact Aside.refl s
  · rw [h]
    exact ⟨rfl, rfl⟩

theorem aside_runSearch (env : Env) (s : Globals) (query : CStr) :
    Aside s (runSearch env s query) := by
  rcases runSearch_cases env s query with h | ⟨sel, h⟩
  · rw [h]
    exact Aside.refl s
  · rw [h]
    exact ⟨rfl, rfl⟩

theorem aside_queueSelected (env : Env) (s : Globals) (row : Nat) :
    Aside s (queueSelected env s row) := by
  rw [queueSelected]
  split
  · split
    · exact aside_startFire _ _ _
    · exact Aside.refl s
  · split
    · exact aside_startFire _ _ _
    · exact Aside.refl s
  · exact Aside.refl s
  · exact Aside.refl s
  · exact Aside.refl s

theorem aside_startListen (env : Env) (s : Globals) : Aside s (startListen env s) := by
  rw [startListen]
  split <;> exact ⟨rfl, rfl⟩

/-! ## Starting a command leaves the snapshot alone -/

@[simp] theorem shown_startCommand (env : Env) (s : Globals) (sel : CStr) :
    (startCommand env s sel).shown = s.shown := by
  rw [startCommand]
  split <;> rfl

@[simp] theorem shown_storeAndStart (env : Env) (s : Globals) (uri sel : CStr) :
    (storeAndStart env s uri sel).shown = s.shown := by
  rcases storeAndStart_cases env s uri sel with ⟨-, h⟩ | ⟨-, t, rfl, h⟩
  · rw [h]
  · rw [h]
    exact shown_startCommand env _ sel

@[simp] theorem shown_playFrom (env : Env) (s : Globals) (items : CqTrackList) (row : Nat)
    (cont : Option CqTrackList) : (playFrom env s items row cont).shown = s.shown := by
  rw [playFrom]
  split
  · rfl
  · split
    · exact (aside_playItem _ _ _ _).shown
    · split
      · rfl
      · split
        · exact (aside_playItem _ _ _ _).shown
        · split
          · exact (aside_playItem _ _ _ _).shown
          · exact shown_storeAndStart _ _ _ _

theorem shown_playContextAlbum (env : Env) (s : Globals) (albumId : CStr) :
    (playContextAlbum env s albumId).shown = s.shown := by
  rcases playContextAlbum_cases env s albumId with h | ⟨sel, h⟩
  · rw [h]
  · rw [h, shown_startCommand]
    rfl

theorem shown_nextCommand (env : Env) (s : Globals) : (nextCommand env s).shown = s.shown := by
  simp only [nextCommand]
  split
  · exact shown_playFrom _ _ _ _ _
  · rfl

theorem shown_clickResult (env : Env) (s : Globals) (row : Nat) :
    (clickResult env s row).shown = s.shown := by
  rw [clickResult]
  split
  · exact shown_playFrom _ _ _ _ _
  · split
    · exact (aside_startArtistAlbums _ _ _ _).shown
    · rfl
  · split
    · exact shown_playContextAlbum _ _ _
    · rfl
  · rfl
  · rfl

theorem shown_clickPlay (env : Env) (s : Globals) : (clickPlay env s).shown = s.shown := by
  rcases clickPlay_cases env s with h | ⟨kind, sel, h⟩
  · rw [h]
  · rw [h, shown_startCommand]
    rfl

theorem shown_seek (env : Env) (s : Globals) (frac span : Nat) :
    (seek env s frac span).shown = s.shown := by
  simp only [seek]
  split
  · exact shown_startCommand _ _ _
  · rfl

theorem shown_doScriptCmd (env : Env) (s : Globals) (cmd : ScriptCmd) :
    (doScriptCmd env s cmd).shown = s.shown := by
  cases cmd <;> exact shown_startCommand _ _ _

theorem shown_flushDebounce (env : Env) (s : Globals) :
    (flushDebounce env s).shown = s.shown := by
  simp only [flushDebounce]
  split
  · split
    · exact shown_startCommand _ _ _
    · rfl
  · rfl

theorem shown_pumpQueue (env : Env) (s : Globals) : (pumpQueue env s).shown = s.shown := by
  rw [pumpQueue]
  split
  · exact (aside_startQueue _ _).shown
  · split
    · rfl
    · dsimp only
      split
      · simp only [adoptQueue]
        split
        · exact shown_playFrom _ _ _ _ _
        · rfl
      · exact (aside_adoptEmptyQueue s).shown
    · rfl

end Casquinha.App
