import Casquinha.App.Marks

/-!
# Acknowledgements and their commands

An acknowledgement is put on show before its command is started, and most ways to start a command drop it
silently: a command or a fire in flight, a repeated action, a row that is not there, a failed allocation.
What is acknowledged has its command if and only if the way was free before the step
(`served_iff_free`), and a run has no phantom acknowledgement if and only if the way is free whenever one
is given (`no_phantom_iff`).
-/

set_option autoImplicit false

namespace Casquinha.App

open Lib Wire

/-- What is to follow has followed by the end of the step: it has been started, or it waits. -/
def Own.Served (s : Globals) (e : Event) : Own → Prop
  | .cmd sel _ => ∃ tx ∈ startedOn (fun t => t.probe.gCmd) s e, tx.selector = sel
  | .fire sel _ => ∃ tx ∈ startedOn Globals.gFire s e, tx.selector = sel
  | .tap sel => (perform e.env s e.act).gDeb.pending = some sel
  | .nothing => False

/-- The way is free before the step. -/
def Own.Free (env : Env) (s : Globals) : Own → Prop
  | .cmd sel guarded =>
      s.probe.gCmd = none ∧ env.alloc s.nextTx = true ∧
        (guarded = true → isRepeat env s sel = false)
  | .fire sel behindCmd =>
      s.gFire = none ∧ env.alloc s.nextTx = true ∧ isRepeat env s sel = false ∧
        (behindCmd = true → s.probe.gCmd = none)
  | .tap _ => True
  | .nothing => False

/-- Whatever a step acknowledges follows. -/
def NoPhantom (s : Globals) (e : Event) : Prop :=
  ∀ kind own, gesture s e = some (kind, own) → own.Served s e

/-- Whatever a step acknowledges has its way free. -/
def WayFree (s : Globals) (e : Event) : Prop :=
  ∀ kind own, gesture s e = some (kind, own) → own.Free e.env s

/-! ## Started or dropped -/

/-- A handle that is taken only when it is free, and then only if `p` holds. -/
theorem started_iff {handle : Globals → Option Tx} {s : Globals} {e : Event} {sel : CStr} {p : Prop}
    [Decidable p]
    (h : handle (perform e.env s e.act) =
      if handle s = none ∧ p then cqTxNew e.env s sel else handle s) :
    (∃ tx ∈ startedOn handle s e, tx.selector = sel) ↔
      handle s = none ∧ e.env.alloc s.nextTx = true ∧ p := by
  constructor
  · rintro ⟨tx, htx, -⟩
    obtain ⟨hafter, moved⟩ := of_mem_startedOn htx
    by_cases way : handle s = none ∧ p
    · rw [if_pos way] at h
      refine ⟨way.1, ?_, way.2⟩
      by_contra halloc
      rw [cqTxNew_of_no_alloc sel (by simpa using halloc), hafter] at h
      cases h
    · rw [if_neg way] at h
      exact absurd h moved
  · rintro ⟨hfree, halloc, hp⟩
    rw [if_pos ⟨hfree, hp⟩, cqTxNew_of_alloc sel halloc] at h
    refine ⟨⟨s.nextTx, s.gHost, s.gPort, sel⟩, ?_, rfl⟩
    rw [startedOn_eq_toList hfree, h]
    exact List.mem_singleton_self _

theorem cmd_startCommand (env : Env) (s : Globals) (sel : CStr) :
    (startCommand env s sel).probe.gCmd =
      if s.probe.gCmd = none then cqTxNew env s sel else s.probe.gCmd := by
  rw [startCommand]
  cases h : s.probe.gCmd with
  | none => rfl
  | some tx => exact h

/-- A command that `StartCommand` starts. -/
theorem served_startCommand {s t : Globals} {e : Event} {sel : CStr}
    (hcmd : (perform e.env s e.act).probe.gCmd = (startCommand e.env t sel).probe.gCmd)
    (hprobe : t.probe = s.probe) (hnew : cqTxNew e.env t sel = cqTxNew e.env s sel) :
    (Own.cmd sel false).Served s e ↔ (Own.cmd sel false).Free e.env s := by
  apply started_iff
  rw [hcmd, cmd_startCommand, hprobe, hnew]
  simp

/-! ## A call of `PlayFrom` -/

/-- The two agree in all that a start looks at. -/
structure SameStart (s t : Globals) : Prop where
  probe : t.probe = s.probe
  fire : t.gFire = s.gFire
  last : t.gLastAction = s.gLastAction
  lastTick : t.gLastActionTick = s.gLastActionTick
  serial : t.nextTx = s.nextTx
  host : t.gHost = s.gHost
  port : t.gPort = s.gPort

theorem SameStart.isRepeat {s t : Globals} (h : SameStart s t) (env : Env) (sel : CStr) :
    isRepeat env t sel = isRepeat env s sel := by
  rw [App.isRepeat, App.isRepeat, h.last, h.lastTick]

theorem SameStart.cqTxNew {s t : Globals} (h : SameStart s t) (env : Env) (sel : CStr) :
    cqTxNew env t sel = cqTxNew env s sel := by
  rw [App.cqTxNew, App.cqTxNew, h.serial, h.host, h.port]

theorem SameStart.playOwn {s t : Globals} (h : SameStart s t) (call : PlayCall) :
    playOwn t call = playOwn s call := by
  rw [App.playOwn, App.playOwn, h.probe]

theorem fire_playItem (env : Env) (s : Globals) {items : CqTrackList} {row : Nat} {item : CqTrackItem}
    (hitem : items.items[row]? = some item) :
    (playItem env s items row).gFire =
      if isRepeat env s (playItemSel item.uri) = false ∧ s.gFire = none then
        cqTxNew env s (playItemSel item.uri)
      else s.gFire := by
  rw [playItem, hitem]
  exact fire_startFire env s _

/-- What a call of `PlayFrom` comes to: nothing, `PlayItem` at once, or `PlayItem` or a command once the
command is free. -/
theorem playFrom_cases (env : Env) (s : Globals) (call : PlayCall) :
    playOwn s call = .nothing ∨
      ∃ item, call.items.items[call.row]? = some item ∧
        ((playOwn s call = .fire (playItemSel item.uri) false ∧
            playFrom env s call.items call.row call.cont = playItem env s call.items call.row) ∨
          (playOwn s call = .fire (playItemSel item.uri) true ∧
            playFrom env s call.items call.row call.cont =
              if s.probe.gCmd.isSome then s else playItem env s call.items call.row) ∨
          ∃ sel, playOwn s call = .cmd sel true ∧
            playFrom env s call.items call.row call.cont =
              if s.probe.gCmd.isSome then s else storeAndStart env s item.uri sel) := by
  rw [playOwn, playFrom]
  cases call.items.items[call.row]? with
  | none => exact .inl rfl
  | some item =>
      refine .inr ⟨item, rfl, ?_⟩
      dsimp only
      by_cases hold : s.probe.gNativePlay = .notFound
      · exact .inl ⟨if_pos hold, if_pos hold⟩
      · rw [if_neg hold, if_neg hold]
        cases afterLastColon item.uri with
        | none => exact .inr (.inl ⟨rfl, rfl⟩)
        | some id =>
            dsimp only
            by_cases hnil : id.bytes = []
            · rw [if_pos hnil, if_pos hnil]
              exact .inr (.inl ⟨rfl, rfl⟩)
            · rw [if_neg hnil, if_neg hnil]
              exact .inr (.inr ⟨_, rfl, rfl⟩)

/-- A call that fires. -/
theorem fire_playFrom (env : Env) {s : Globals} {call : PlayCall} {sel : CStr} {behindCmd : Bool}
    (h : playOwn s call = .fire sel behindCmd) :
    (playFrom env s call.items call.row call.cont).gFire =
      if s.gFire = none ∧ isRepeat env s sel = false ∧ (behindCmd = true → s.probe.gCmd = none) then
        cqTxNew env s sel
      else s.gFire := by
  rcases playFrom_cases env s call with
    hown | ⟨item, hitem, ⟨hown, hcall⟩ | ⟨hown, hcall⟩ | ⟨_, hown, -⟩⟩
  · rw [hown] at h
    cases h
  · rw [hown] at h
    cases h
    rw [hcall, fire_playItem env s hitem]
    simp [and_comm]
  · rw [hown] at h
    cases h
    rw [hcall]
    cases hcmd : s.probe.gCmd with
    | none =>
        rw [if_neg (by simp), fire_playItem env s hitem]
        simp [and_comm]
    | some tx =>
        rw [if_pos (by simp)]
        simp
  · rw [hown] at h
    cases h

/-- A call that starts a command. -/
theorem cmd_playFrom (env : Env) {s : Globals} {call : PlayCall} {sel : CStr} {guarded : Bool}
    (h : playOwn s call = .cmd sel guarded) :
    (playFrom env s call.items call.row call.cont).probe.gCmd =
      if s.probe.gCmd = none ∧ (guarded = true → isRepeat env s sel = false) then cqTxNew env s sel
      else s.probe.gCmd := by
  rcases playFrom_cases env s call with
    hown | ⟨item, -, ⟨hown, -⟩ | ⟨hown, -⟩ | ⟨_, hown, hcall⟩⟩
  · rw [hown] at h
    cases h
  · rw [hown] at h
    cases h
  · rw [hown] at h
    cases h
  · rw [hown] at h
    cases h
    rw [hcall]
    cases hcmd : s.probe.gCmd with
    | none =>
        rw [if_neg (by simp), cmd_storeAndStart env item.uri _ hcmd]
        simp
    | some tx =>
        rw [if_pos (by simp), hcmd]
        simp

theorem playOwn_ne_tap (s : Globals) (call : PlayCall) (sel : CStr) : playOwn s call ≠ .tap sel := by
  intro h
  rw [playOwn] at h
  split at h
  · cases h
  · split at h
    · cases h
    · split at h
      · cases h
      · split at h <;> cases h

/-- **A gesture that calls `PlayFrom`.** -/
theorem served_playFrom {s t : Globals} {e : Event} {call : PlayCall} (same : SameStart s t)
    (hcmd : (perform e.env s e.act).probe.gCmd =
      (playFrom e.env t call.items call.row call.cont).probe.gCmd)
    (hfire : (perform e.env s e.act).gFire =
      (playFrom e.env t call.items call.row call.cont).gFire) :
    (playOwn s call).Served s e ↔ (playOwn s call).Free e.env s := by
  have hown := same.playOwn call
  cases h : playOwn s call with
  | nothing => exact Iff.rfl
  | tap sel => exact absurd h (playOwn_ne_tap s call sel)
  | cmd sel guarded =>
      rw [h] at hown
      apply started_iff
      rw [hcmd, cmd_playFrom e.env hown, same.probe, same.isRepeat, same.cqTxNew]
  | fire sel behindCmd =>
      rw [h] at hown
      apply started_iff
      rw [hfire, fire_playFrom e.env hown, same.fire, same.probe, same.isRepeat, same.cqTxNew]

/-! ## The auto-start -/

/-- Until it has decided, there is no snapshot on show. -/
def Unwoken (s : Globals) : Prop :=
  s.gAutoStart = true → s.gAutoWoke = false → s.shown.gHaveSnap = false

theorem cmd_autoWake (env : Env) {s : Globals} {sel : CStr}
    (h : wakeSel s s.shown.gSnap = some sel) :
    (autoWake env s).probe.gCmd =
      if s.probe.gCmd = none then cqTxNew env s sel else s.probe.gCmd := by
  rw [wakeSel] at h
  simp only [autoWake]
  split at h
  · next hdecides =>
    rw [if_pos hdecides]
    split at h
    · next hdevice =>
      rw [if_pos hdevice]
      split at h
      · next hstate =>
        cases h
        rw [hstate]
        exact cmd_startCommand env _ _
      · cases h
      · cases h
    · next hdevice =>
      cases h
      rw [if_neg hdevice]
      exact cmd_startCommand env _ _
  · cases h

/-- **Every step** leaves the auto-start undecided only while nothing is on show. -/
theorem Unwoken.step {s t : Globals} {e : Event} (h : Unwoken s) (ht : App.step s e = some t) :
    Unwoken t := by
  cases ht
  intro hstart hwoke
  rw [start_perform] at hstart
  cases hadopts : adopts s e with
  | some n =>
      rw [(woke_of_adopts hadopts), hstart] at hwoke
      cases hwoke
  | none =>
      rw [woke_of_not_adopts hadopts] at hwoke
      obtain ⟨guard, hshown⟩ := display_perform s e
      rw [hshown, hadopts]
      exact h hstart hwoke

/-- What comes before the auto-start starts nothing, unless a track has ended. -/
theorem sameStart_settled (env : Env) {s : Globals} {n : CqNow} (h : trackEnded s.shown n = false) :
    SameStart s (settled env (adopting s false n) n) := by
  obtain ⟨-, -, -, -, -, -, -, hended⟩ := adopting_frame env s false n
  have hadopting : SameStart s (adopting s false n) := ⟨rfl, rfl, rfl, rfl, rfl, rfl, rfl⟩
  have hwatchdog : SameStart s (watchdog env (adopting s false n) n) := by
    rw [watchdog, if_neg (by rw [hended, h]; simp)]
    split <;> exact ⟨rfl, rfl, rfl, rfl, rfl, rfl, rfl⟩
  have hkick : SameStart s (kickQueue env (watchdog env (adopting s false n) n) n) := by
    rw [kickQueue]
    split
    · exact ⟨hwatchdog.1, hwatchdog.2, hwatchdog.3, hwatchdog.4, hwatchdog.5, hwatchdog.6, hwatchdog.7⟩
    · exact hwatchdog
  rw [settled, settleVolume]
  split <;> exact ⟨hkick.1, hkick.2, hkick.3, hkick.4, hkick.5, hkick.6, hkick.7⟩

/-! ## One step -/

/-- The auto-start in the reply of a poll. -/
theorem served_wake_on_poll {s : Globals} {env : Env} {n : CqNow} {sel : CStr} (h : Unwoken s)
    (hadopts : adopts s ⟨env, .pollNow⟩ = some n) (hwake : wakeSel s n = some sel) :
    (Own.cmd sel false).Served s ⟨env, .pollNow⟩ ↔ (Own.cmd sel false).Free env s := by
  obtain ⟨data, hdata, haccept, hstep⟩ := adopts_cases hadopts
  have hperform : perform env s .pollNow = { adoptReply env s data false with gTx := none } := by
    rcases hstep with ⟨hcmd, -⟩ | ⟨-, hperform⟩
    · cases hcmd
    · exact hperform
  -- nothing was on show, so that no track has ended
  have hquiet : trackEnded s.shown n = false := by
    have hdecides : s.gAutoStart = true ∧ s.gAutoWoke = false := by
      rw [wakeSel] at hwake
      split at hwake
      · assumption
      · cases hwake
    simp [trackEnded, h hdecides.1 hdecides.2]
  have same := sameStart_settled env hquiet
  have hwake' : wakeSel (settled env (adopting s false n) n)
      (settled env (adopting s false n) n).shown.gSnap = some sel := by
    rw [wakeSel_settled, wakeSel_congr (notes_adopting s false n) rfl rfl, hwake]
  have hcmd : (perform env s .pollNow).probe.gCmd =
      (autoWake env (settled env (adopting s false n) n)).probe.gCmd := by
    rw [hperform]
    dsimp only
    rw [adoptReply_of_adopts false hdata haccept, probe_redraw, adoptSnapshot, probe_dropPending]
    rfl
  apply started_iff
  rw [hcmd, cmd_autoWake env hwake', same.probe, same.cqTxNew]
  simp

/-- A command's reply frees its handle only behind the auto-start. -/
theorem served_wake_on_cmd {s : Globals} {env : Env} {n : CqNow} {sel : CStr}
    (hadopts : adopts s ⟨env, .pumpCmd⟩ = some n) :
    (Own.cmd sel false).Served s ⟨env, .pumpCmd⟩ ↔ (Own.cmd sel false).Free env s := by
  obtain ⟨data, -, -, hstep⟩ := adopts_cases hadopts
  rcases hstep with ⟨-, hbusy, hperform⟩ | ⟨hcmd, -⟩
  · constructor
    · rintro ⟨tx, htx, -⟩
      obtain ⟨hafter, -⟩ := of_mem_startedOn htx
      rw [hperform] at hafter
      cases hafter
    · rintro ⟨hfree, -⟩
      rw [hfree] at hbusy
      cases hbusy
  · cases hcmd

theorem served_pumpQueue {s : Globals} {env : Env} {call : PlayCall}
    (hcall : playCall s ⟨env, .pumpQueue⟩ = some call) :
    (playOwn s call).Served s ⟨env, .pumpQueue⟩ ↔ (playOwn s call).Free env s := by
  rcases pumpQueue_cases env s with ⟨fresh, hfresh, hplayed⟩ | ⟨hnone, -⟩
  · cases hcall.symm.trans hfresh
    apply served_playFrom (s := s) (e := ⟨env, .pumpQueue⟩) (t := readied env s fresh)
    · exact ⟨rfl, rfl, rfl, rfl, rfl, rfl, rfl⟩
    · rw [perform, hplayed]
      rfl
    · rw [perform, hplayed]
      rfl
  · cases hcall.symm.trans hnone

/-- The click on Next plays the next row, or taps. -/
theorem served_clickNext {s : Globals} {env : Env} {kind : CqIntentKind} {own : Own}
    (hgesture : gesture s ⟨env, .clickNext⟩ = some (kind, own)) :
    own.Served s ⟨env, .clickNext⟩ ↔ own.Free env s := by
  have hrow : nextRow (setIntent env s .skip) = nextRow s := rfl
  simp only [gesture] at hgesture
  cases hnext : nextRow s with
  | none =>
      -- the tap waits
      rw [hnext] at hgesture
      cases hgesture
      apply iff_of_true
      · simp only [Own.Served, perform, nextCommand, hrow, hnext]
        rfl
      · trivial
  | some row =>
      rw [hnext] at hgesture
      cases hgesture
      apply served_playFrom (s := s) (e := ⟨env, .clickNext⟩) (t := setIntent env s .skip)
      · exact ⟨rfl, rfl, rfl, rfl, rfl, rfl, rfl⟩
      · simp only [perform, nextCommand, hrow, hnext]
        rfl
      · simp only [perform, nextCommand, hrow, hnext]
        rfl

theorem served_clickPlay {s : Globals} {env : Env} {kind : CqIntentKind} {own : Own}
    (hgesture : gesture s ⟨env, .clickPlay⟩ = some (kind, own)) :
    own.Served s ⟨env, .clickPlay⟩ ↔ own.Free env s := by
  simp only [gesture] at hgesture
  split at hgesture
  · cases hgesture
  · next hfresh =>
    cases hgesture
    rcases actionRepeat_cases env s (playPauseSel s) with ⟨hrepeat, -⟩ | ⟨-, hnoted⟩
    · exact absurd hrepeat hfresh
    · rw [playPauseSel] at hnoted
      apply served_startCommand (s := s) (e := ⟨env, .clickPlay⟩)
      · simp only [perform, clickPlay, hnoted]
        rfl
      · rfl
      · rfl

/-- Of the rows only an album is acknowledged. -/
theorem served_clickResult {s : Globals} {env : Env} {row : Nat} {kind : CqIntentKind} {own : Own}
    (hgesture : gesture s ⟨env, .clickResult row⟩ = some (kind, own)) :
    own.Served s ⟨env, .clickResult row⟩ ↔ own.Free env s := by
  simp only [gesture] at hgesture
  cases hkind : resultKindAt s row with
  | album i =>
      simp only [hkind] at hgesture
      obtain ⟨album, halbum, hgesture⟩ := Option.bind_eq_some_iff.1 hgesture
      split at hgesture
      · cases hgesture
      · next hfresh =>
        cases hgesture
        rw [not_or] at hfresh
        rcases actionRepeat_cases env s (albumSel album.id) with ⟨hrepeat, -⟩ | ⟨-, hnoted⟩
        · exact absurd hrepeat hfresh.2
        · rw [albumSel] at hnoted
          apply served_startCommand (s := s) (e := ⟨env, .clickResult row⟩)
          · simp only [perform, clickResult, hkind, halbum, playContextAlbum, if_neg hfresh.1, hnoted]
            rfl
          · rfl
          · rfl
  | _ =>
      rw [hkind] at hgesture
      cases hgesture

/-- **What a step acknowledges has its command if and only if the way was free.** -/
theorem served_iff_free {s : Globals} {e : Event} (h : Unwoken s) {kind : CqIntentKind} {own : Own}
    (hgesture : gesture s e = some (kind, own)) : own.Served s e ↔ own.Free e.env s := by
  obtain ⟨env, act⟩ := e
  cases act with
  | clickPrev =>
      cases hgesture
      exact iff_of_true rfl trivial
  | clickNext => exact served_clickNext hgesture
  | clickPlay => exact served_clickPlay hgesture
  | clickResult row => exact served_clickResult hgesture
  | script cmd =>
      cases hgesture
      apply served_startCommand (s := s) (t := setIntent env s (scriptOwn cmd).1)
        (e := ⟨env, .script cmd⟩)
      · cases cmd <;> rfl
      · rfl
      · rfl
  | pumpQueue =>
      obtain ⟨call, hcall, hgesture⟩ := Option.map_eq_some_iff.1 hgesture
      cases hgesture
      exact served_pumpQueue hcall
  | pumpCmd =>
      obtain ⟨sel, hsel, hgesture⟩ := Option.map_eq_some_iff.1 hgesture
      obtain ⟨n, hadopts, -⟩ := Option.bind_eq_some_iff.1 hsel
      cases hgesture
      exact served_wake_on_cmd hadopts
  | pollNow =>
      obtain ⟨sel, hsel, hgesture⟩ := Option.map_eq_some_iff.1 hgesture
      obtain ⟨n, hadopts, hwake⟩ := Option.bind_eq_some_iff.1 hsel
      cases hgesture
      exact served_wake_on_poll h hadopts hwake
  | _ => cases hgesture

/-! ## Runs -/

/-- **No phantom acknowledgement**, in every step of a run, if and only if the way is free whenever
something is acknowledged. -/
theorem no_phantom_iff (host : CStr) (port : Nat) (autoStart qtOk : Bool) (events : List Event) :
    Meets step NoPhantom (launch host port autoStart qtOk) events ↔
      Meets step WayFree (launch host port autoStart qtOk) events := by
  refine meets_congr_of_inv Unwoken ?_ ?_ ?_
  · intro s e t h ht
    exact h.step ht
  · intro s e h
    exact forall₃_congr fun kind own hgesture => served_iff_free h hgesture
  · intro _ _
    rfl

/-- The volume slider is released. -/
def volumeInFlight : List Event := [⟨worldAt 1000 .running, .setVolume 50⟩]

/-- A second later, while that command is in flight, the Play button is clicked. -/
def playClicked : Event := ⟨worldAt 1060 .running, .clickPlay⟩

/-- What the click has started, and what the next render shows. -/
def clickShown : Option (List Tx × CStr) :=
  (run step (launch (.lit "192.0.2.10") 70 false false) volumeInFlight).map fun s =>
    (startedOn (fun t => t.probe.gCmd) s playClicked,
      (viewOf playClicked.env (perform playClicked.env s playClicked.act)).stateWord)

/-- **A click is acknowledged and dropped.** -/
theorem dropped_click_is_shown :
    clickShown = some ([], .lit "Starting...") ∧
      ¬ Meets step NoPhantom (launch (.lit "192.0.2.10") 70 false false)
        (volumeInFlight ++ [playClicked]) := by
  have shown : clickShown = some ([], .lit "Starting...") := by decide +kernel
  refine ⟨shown, fun clean => ?_⟩
  obtain ⟨s, hs, hpair⟩ := Option.map_eq_some_iff.1 shown
  rw [Prod.mk.injEq] at hpair
  obtain ⟨-, here, -⟩ := (meets_append hs).1 clean
  cases hs
  obtain ⟨tx, htx, -⟩ := here .play (.cmd (.lit "/spot/api/1/play") false) rfl
  rw [hpair.1] at htx
  cases htx

end Casquinha.App
