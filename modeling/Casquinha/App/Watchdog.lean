import Casquinha.App.Fallback

/-!
# The end-of-track watchdog

When the track on show ends, the watchdog plays the row after it, once. It notes that it has played
(`gAutoNexted`) before `PlayFrom` decides whether it may: a play that is dropped is not tried again.
`FreeToPlay` says when the play is not dropped, and a run plays the next row exactly once at the end of
every track if and only if it is always free to (`watchdog_plays_once`). The other half, that no second
play follows before playback has resumed, holds of every run.
-/

set_option autoImplicit false

namespace Casquinha.App

open Lib Wire

/-! ## The selectors -/

/-- What the selector of a play/from begins with. -/
def playFromHead : Bytes := ascii "/spot/api/1/play/from?ids="

/-- The transaction plays from a row onward. -/
def isPlayFrom (tx : Tx) : Bool := playFromHead.isPrefixOf tx.selector.bytes

/-- The selector that plays a single uri. -/
def playItemSel (uri : CStr) : CStr := (CStr.lit "/spot/play?uri=" ++ escInto uri 128 true).fit 160

/-- A selector under construction that holds its beginning. -/
def Headed (b : SelBuf) : Prop := playFromHead <+: b.text.bytes ∧ playFromHead.length ≤ b.o

/-- What is printed follows what is there. -/
theorem Headed.print {b : SelBuf} (h : Headed b) (t : CStr) : Headed (b.print playFromSelSize t) := by
  obtain ⟨hhead, hlen⟩ := h
  refine ⟨?_, Nat.le_trans hlen (Nat.le_add_right _ _)⟩
  rw [SelBuf.print]
  dsimp only
  split
  · apply List.prefix_take_iff.2
    refine ⟨?_, by decide +kernel⟩
    refine List.IsPrefix.trans ?_ (List.prefix_append _ _)
    exact List.prefix_take_iff.2 ⟨hhead, hlen⟩
  · exact hhead

theorem Headed.loop {rest : List CqTrackItem} :
    ∀ {n : Nat} {b : SelBuf}, Headed b → Headed (playFromLoop rest n b) := by
  induction rest with
  | nil => exact fun h => h
  | cons item rest ih =>
      intro n b h
      rw [playFromLoop]
      split
      · split
        · exact ih h
        · split
          · exact ih h
          · split
            · exact h
            · exact ih ((h.print _).print _)
      · exact h

theorem playFromHead_prefix_sel (id : CStr) (rest : List CqTrackItem) :
    playFromHead <+: (playFromSel id rest).bytes := by
  have hstart : Headed
      (SelBuf.print ⟨.empty, 0⟩ playFromSelSize (.lit "/spot/api/1/play/from?ids=")) := by
    constructor
    · decide +kernel
    · decide +kernel
  exact ((hstart.print id).loop.print _).1

/-! ## What the watchdog owes -/

/-- The snapshot ends the track on show: playing within ten seconds of a known duration, now stopped. -/
def endsTrack (s : Shown) (n : CqNow) : Bool :=
  n.state = .stopped && s.gHaveSnap && s.gSnap.state = .playing && 0 < s.gSnap.durationMs &&
    s.gSnap.durationMs - 10000 ≤ s.gSnap.positionMs

/-- The selectors that play a row: from the row onward, and its uri alone. -/
structure RowPlay where
  fromSel : CStr
  itemSel : CStr
deriving DecidableEq

/-- The plays of a row whose uri has an id. -/
def rowPlay (items : CqTrackList) (row : Nat) : Option RowPlay :=
  items.items[row]?.bind fun item =>
    (afterLastColon item.uri).bind fun id =>
      if id.bytes = [] then none
      else some ⟨playFromSel id (continuation items row none), playItemSel item.uri⟩

/-- The play that is due when a step adopts the end of the track on show. -/
def duePlay (s : Globals) (e : Event) : Option RowPlay :=
  (adopts s e).bind fun n =>
    if endsTrack s.shown n then (queueNextRow s).bind (rowPlay s.gQueueItems) else none

/-- The transaction that a step starts on a handle. -/
def startedOn (handle : Globals → Option Tx) (s : Globals) (e : Event) : List Tx :=
  if handle (perform e.env s e.act) = handle s then [] else (handle (perform e.env s e.act)).toList

/-- The plays that an adoption starts. The commands of the auto-start are not plays of a row. -/
def watchdogPlays (s : Globals) (e : Event) : List Tx :=
  match adopts s e with
  | some _ => (startedOn (fun t => t.probe.gCmd) s e).filter isPlayFrom ++ startedOn Globals.gFire s e
  | none => []

/-- `tx` is the play, on the handle that the probe calls for. -/
def PlaysRow (t : Globals) (play : RowPlay) (tx : Tx) : Prop :=
  if t.probe.gNativePlay = .notFound then t.gFire = some tx ∧ tx.selector = play.itemSel
  else t.probe.gCmd = some tx ∧ tx.selector = play.fromSel

/-- A play that is due is started, and no other. -/
def PlaysDue (s : Globals) (e : Event) : Prop :=
  ∀ play, duePlay s e = some play →
    ∃ tx, watchdogPlays s e = [tx] ∧ PlaysRow (perform e.env s e.act) play tx

/-- Whether the reply of a step is a command's. -/
def isCmdReply (e : Event) : Bool :=
  match e.act with
  | .pumpCmd => true
  | _ => false

/-- A play can be allocated, repeats no action, and finds its handle free: the fire if the server is
known to be old, else the command. -/
def FreeFor (s : Globals) (e : Event) (play : RowPlay) : Prop :=
  e.env.alloc s.nextTx = true ∧
    if (answerProbe s (isCmdReply e)).probe.gNativePlay = .notFound then
      isRepeat e.env s play.itemSel = false ∧ s.gFire = none
    else isRepeat e.env s play.fromSel = false ∧ s.probe.gCmd = none

/-- A play that is due is free to start. -/
def FreeToPlay (s : Globals) (e : Event) : Prop :=
  ∀ play, duePlay s e = some play → FreeFor s e play

/-! ## Starting -/

/-- `StartFire` on the fire: a repeat and a busy handle drop it. -/
theorem fire_startFire (env : Env) (s : Globals) (sel : CStr) :
    (startFire env s sel).gFire =
      if isRepeat env s sel = false ∧ s.gFire = none then cqTxNew env s sel else s.gFire := by
  rcases actionRepeat_cases env s sel with ⟨hrep, h⟩ | ⟨hrep, h⟩
  · rw [if_neg (by simp [hrep])]
    simp only [startFire, h]
  · simp only [startFire, h]
    cases hfire : s.gFire with
    | some tx => rw [if_neg (by simp)]
    | none =>
        rw [if_pos ⟨hrep, rfl⟩]
        rfl

/-- `PlayFrom` with the command free: a repeat drops it. -/
theorem cmd_storeAndStart (env : Env) {s : Globals} (uri sel : CStr) (hfree : s.probe.gCmd = none) :
    (storeAndStart env s uri sel).probe.gCmd =
      if isRepeat env s sel = false then cqTxNew env s sel else none := by
  rcases storeAndStart_cases env s uri sel with ⟨hrep, h⟩ | ⟨hrep, t, rfl, h⟩
  · rw [if_neg (by simp [hrep]), h]
    exact hfree
  · rw [if_pos hrep, h]
    simp only [startCommand, hfree]
    rfl

/-- Starting a command leaves the fire alone, and the probe's answer. -/
theorem frame_startCommand (env : Env) (s : Globals) (sel : CStr) :
    (startCommand env s sel).gFire = s.gFire ∧
      (startCommand env s sel).probe.gNativePlay = s.probe.gNativePlay := by
  rw [startCommand]
  split <;> exact ⟨rfl, rfl⟩

theorem frame_storeAndStart (env : Env) (s : Globals) (uri sel : CStr) :
    (storeAndStart env s uri sel).gFire = s.gFire ∧
      (storeAndStart env s uri sel).probe.gNativePlay = s.probe.gNativePlay := by
  rcases storeAndStart_cases env s uri sel with ⟨-, h⟩ | ⟨-, t, rfl, h⟩
  · rw [h]
    exact ⟨rfl, rfl⟩
  · rw [h]
    exact frame_startCommand env _ sel

/-- **A play of a row whose uri has an id**: the single uri on a server known to be old; nothing while a
command is in flight; else from the row onward. -/
theorem playFrom_row (env : Env) (s : Globals) {items : CqTrackList} {row : Nat} {play : RowPlay}
    (h : rowPlay items row = some play) :
    playFrom env s items row none =
      if s.probe.gNativePlay = .notFound then startFire env s play.itemSel
      else if s.probe.gCmd.isSome then s
      else storeAndStart env s ((items.items[row]?.map CqTrackItem.uri).getD .empty) play.fromSel := by
  rw [rowPlay] at h
  obtain ⟨item, hitem, h⟩ := Option.bind_eq_some_iff.1 h
  obtain ⟨id, hid, h⟩ := Option.bind_eq_some_iff.1 h
  split at h
  · cases h
  · next hne =>
    cases h
    rw [playFrom, playItem, hitem]
    simp only [hid, if_neg hne]
    rfl

/-! ## One adoption -/

/-- The transaction does not play from a row. -/
def NoPlay (cmd : Option Tx) : Prop := ∀ tx, cmd = some tx → isPlayFrom tx = false

/-- The auto-start leaves the fire and the probe's answer alone, and starts no play of a row. -/
theorem autoWake_plays_nothing (env : Env) (s : Globals) :
    (autoWake env s).gFire = s.gFire ∧
      (autoWake env s).probe.gNativePlay = s.probe.gNativePlay ∧
      ((autoWake env s).probe.gCmd = s.probe.gCmd ∨
        s.probe.gCmd = none ∧ NoPlay (autoWake env s).probe.gCmd) := by
  -- its two commands are not plays of a row
  have hstart : ∀ (t : Globals) (sel : CStr), t.probe = s.probe → t.gFire = s.gFire →
      playFromHead.isPrefixOf sel.bytes = false →
      (startCommand env t sel).gFire = s.gFire ∧
        (startCommand env t sel).probe.gNativePlay = s.probe.gNativePlay ∧
        ((startCommand env t sel).probe.gCmd = s.probe.gCmd ∨
          s.probe.gCmd = none ∧ NoPlay (startCommand env t sel).probe.gCmd) := by
    intro t sel hprobe hfire hsel
    obtain ⟨hfire', hnative⟩ := frame_startCommand env t sel
    refine ⟨hfire'.trans hfire, hnative.trans (by rw [hprobe]), ?_⟩
    rw [startCommand, ← hprobe]
    cases hcmd : t.probe.gCmd with
    | some tx => exact Or.inl hcmd
    | none =>
        refine Or.inr ⟨rfl, fun tx htx => ?_⟩
        simp only [cqTxNew] at htx
        split at htx
        · cases htx
          exact hsel
        · cases htx
  simp only [autoWake]
  split
  · split
    · split
      · exact ⟨rfl, rfl, Or.inl rfl⟩
      · exact hstart _ _ rfl rfl (by decide +kernel)
      · exact ⟨rfl, rfl, Or.inl rfl⟩
    · exact hstart _ _ rfl rfl (by decide +kernel)
  · exact ⟨rfl, rfl, Or.inl rfl⟩

/-- **What an adoption starts** is what its watchdog starts. -/
theorem adoptSnapshot_plays (env : Env) (s : Globals) (n : CqNow) :
    (adoptSnapshot env s n).gFire = (watchdog env s n).gFire ∧
      (adoptSnapshot env s n).probe.gNativePlay = (watchdog env s n).probe.gNativePlay ∧
      ((adoptSnapshot env s n).probe.gCmd = (watchdog env s n).probe.gCmd ∨
        (watchdog env s n).probe.gCmd = none ∧ NoPlay (adoptSnapshot env s n).probe.gCmd) := by
  -- what comes behind the watchdog in the order of the source
  have hkick : ∀ t, (kickQueue env t n).gFire = t.gFire := by
    intro t
    rw [kickQueue]
    split <;> rfl
  have hsettle : ∀ t held keepVol, (settleVolume t held keepVol).gFire = t.gFire := by
    intro t held keepVol
    rw [settleVolume]
    split <;> rfl
  have hpending : ∀ t, (dropPending t).gFire = t.gFire := by
    intro t
    rw [dropPending]
    split <;> rfl
  have hbefore : ∀ held keepVol,
      (settleVolume (showSnapshot env (kickQueue env (watchdog env s n) n) n) held keepVol).probe =
        (watchdog env s n).probe := by
    intro held keepVol
    rw [probe_settleVolume]
    simp only [showSnapshot]
    rw [probe_kickQueue]
  -- the wake is the one part that may start a command, and it is no play
  obtain ⟨hfire, hnative, hcmd⟩ := autoWake_plays_nothing env
    (settleVolume (showSnapshot env (kickQueue env (watchdog env s n) n) n) (volHeld env s)
      s.shown.gSnap.volume)
  rw [hbefore] at hnative hcmd
  simp only [adoptSnapshot, probe_dropPending, hpending]
  refine ⟨?_, hnative, hcmd⟩
  rw [hfire, hsettle]
  simp only [showSnapshot]
  exact hkick _

/-- The state in which a reply's snapshot is adopted. -/
def adopting (s : Globals) (isCmd : Bool) (n : CqNow) : Globals :=
  let t := answerProbe { s with gOnline := true } isCmd
  { t with
    gBackoff := cqBackoffOk t.gBackoff
    shown := { t.shown with gGuard := (cqGuardAcceptTs t.shown.gGuard n.ts).2 } }

/-- `AdoptReply` before its redraw. -/
def replied (env : Env) (s : Globals) (data : Bytes) (isCmd : Bool) : Globals :=
  match replyError data with
  | some err => adoptError env { s with gOnline := true } isCmd err
  | none => adoptHealthy env { s with gOnline := true } isCmd (replyFields data)

/-- A reply whose snapshot the guard lets through. -/
theorem replied_of_adopts {env : Env} {s : Globals} {data : Bytes} {n : CqNow} (isCmd : Bool)
    (hreply : healthyReply data = some n)
    (haccept : (cqGuardAcceptTs s.shown.gGuard n.ts).1 = true) :
    replied env s data isCmd = adoptSnapshot env (adopting s isCmd n) n := by
  rw [healthyReply] at hreply
  rw [replied]
  cases hkey : replyError data with
  | some err =>
      rw [hkey] at hreply
      cases hreply
  | none =>
      rw [hkey] at hreply
      cases hreply
      have hguard : (answerProbe { s with gOnline := true } isCmd).shown.gGuard = s.shown.gGuard := by
        rw [shown_answerProbe]
      simp only [adoptHealthy, hguard, if_pos haccept]
      simp only [adopting, hguard]

theorem adoptReply_of_adopts {env : Env} {s : Globals} {data : Bytes} {n : CqNow} (isCmd : Bool)
    (hreply : healthyReply data = some n)
    (haccept : (cqGuardAcceptTs s.shown.gGuard n.ts).1 = true) :
    adoptReply env s data isCmd = redraw env (adoptSnapshot env (adopting s isCmd n) n) :=
  congrArg (redraw env) (replied_of_adopts isCmd hreply haccept)

/-- The step that adopts `n`: a command's reply, or a poll's. -/
theorem adopts_cases {s : Globals} {e : Event} {n : CqNow} (h : adopts s e = some n) :
    ∃ data, healthyReply data = some n ∧ (cqGuardAcceptTs s.shown.gGuard n.ts).1 = true ∧
      ((isCmdReply e = true ∧ s.probe.gCmd.isSome ∧ perform e.env s e.act =
          { adoptReply e.env s data true with
            gLastPoll := e.env.tick
            probe := { (adoptReply e.env s data true).probe with gCmd := none } }) ∨
        (isCmdReply e = false ∧ perform e.env s e.act =
          { adoptReply e.env s data false with gTx := none })) := by
  obtain ⟨env, act⟩ := e
  obtain ⟨hhears, haccept⟩ := Option.filter_eq_some_iff.1 h
  obtain ⟨data, hdata, hreply⟩ := Option.bind_eq_some_iff.1 hhears
  refine ⟨data, hreply, haccept, ?_⟩
  cases act with
  | pumpCmd =>
      -- a command: its slot is freed behind the reply
      obtain ⟨tx, htx, hdone⟩ := Option.bind_eq_some_iff.1 hdata
      have hpoll : env.poll tx.id = .done data := TxPoll.eq_done_of_reply hdone
      refine Or.inl ⟨rfl, by rw [htx]; rfl, ?_⟩
      simp only [perform, pumpCmd, htx, hpoll]
  | pollNow =>
      -- a poll
      obtain ⟨tx, htx, hdone⟩ := Option.bind_eq_some_iff.1 hdata
      have hpoll : env.poll tx.id = .done data := TxPoll.eq_done_of_reply hdone
      refine Or.inr ⟨rfl, ?_⟩
      simp only [perform, pollNow, pumpPoll, htx, Option.isSome_some, if_true, hpoll]
  | _ => cases hdata

/-- Where `adopting` agrees with the state before the step. -/
theorem adopting_frame (env : Env) (s : Globals) (isCmd : Bool) (n : CqNow) :
    (adopting s isCmd n).gFire = s.gFire ∧ (adopting s isCmd n).probe.gCmd = s.probe.gCmd ∧
      (adopting s isCmd n).probe.gNativePlay = (answerProbe s isCmd).probe.gNativePlay ∧
      (∀ sel, isRepeat env (adopting s isCmd n) sel = isRepeat env s sel) ∧
      (∀ sel, cqTxNew env (adopting s isCmd n) sel = cqTxNew env s sel) ∧
      (adopting s isCmd n).gQueueItems = s.gQueueItems ∧
      queueNextRow (adopting s isCmd n) = queueNextRow s ∧
      ∀ m, trackEnded (adopting s isCmd n).shown m = trackEnded s.shown m := by
  have hanswers : answersProbe { s with gOnline := true } isCmd = answersProbe s isCmd := rfl
  simp only [adopting, answerProbe, hanswers]
  split
  · exact ⟨rfl, rfl, rfl, fun _ => rfl, fun _ => rfl, rfl, rfl, fun _ => rfl⟩
  · exact ⟨rfl, rfl, rfl, fun _ => rfl, fun _ => rfl, rfl, rfl, fun _ => rfl⟩

/-- What the handles hold after a step that adopts `n`: what the watchdog has left there, and after a
command's reply no command. -/
theorem perform_of_adopts {s : Globals} {e : Event} {n : CqNow} (h : adopts s e = some n) :
    (perform e.env s e.act).gFire = (watchdog e.env (adopting s (isCmdReply e) n) n).gFire ∧
      (perform e.env s e.act).probe.gNativePlay =
        (watchdog e.env (adopting s (isCmdReply e) n) n).probe.gNativePlay ∧
      ((s.probe.gCmd.isSome ∧ (perform e.env s e.act).probe.gCmd = none) ∨
        (perform e.env s e.act).probe.gCmd =
          (watchdog e.env (adopting s (isCmdReply e) n) n).probe.gCmd ∨
        (watchdog e.env (adopting s (isCmdReply e) n) n).probe.gCmd = none ∧
          NoPlay (perform e.env s e.act).probe.gCmd) := by
  obtain ⟨data, hreply, haccept, hstep⟩ := adopts_cases h
  obtain ⟨hfire, hnative, hcmd⟩ := adoptSnapshot_plays e.env (adopting s (isCmdReply e) n) n
  rcases hstep with ⟨hisCmd, hbusy, hperform⟩ | ⟨hisCmd, hperform⟩
  · -- behind a command's reply the slot is cleared, with what the watchdog put there
    rw [hisCmd] at hfire hnative hcmd ⊢
    rw [hperform, adoptReply_of_adopts true hreply haccept]
    refine ⟨(fire_redraw _ _).trans hfire, ?_, Or.inl ⟨hbusy, rfl⟩⟩
    dsimp only
    rw [probe_redraw, hnative]
  · -- a poll leaves the slot to the watchdog
    rw [hisCmd] at hfire hnative hcmd ⊢
    rw [hperform, adoptReply_of_adopts false hreply haccept]
    refine ⟨(fire_redraw _ _).trans hfire, ?_, Or.inr ?_⟩
    · dsimp only
      rw [probe_redraw, hnative]
    · dsimp only
      rw [probe_redraw]
      exact hcmd

/-! ## What a step starts -/

theorem startedOn_eq_nil {handle : Globals → Option Tx} {s : Globals} {e : Event}
    (h : handle (perform e.env s e.act) = handle s) : startedOn handle s e = [] := if_pos h

/-- What a step has started is what it has put on the handle. -/
theorem of_mem_startedOn {handle : Globals → Option Tx} {s : Globals} {e : Event} {tx : Tx}
    (h : tx ∈ startedOn handle s e) :
    handle (perform e.env s e.act) = some tx ∧ handle (perform e.env s e.act) ≠ handle s := by
  rw [startedOn] at h
  split at h
  · cases h
  · next moved => exact ⟨Option.mem_toList.1 h, moved⟩

theorem startedOn_eq_toList {handle : Globals → Option Tx} {s : Globals} {e : Event}
    (h : handle s = none) :
    startedOn handle s e = (handle (perform e.env s e.act)).toList := by
  rw [startedOn, h]
  split
  · next hsame => rw [hsame, Option.toList_none]
  · rfl

/-- No play of a row is started where the command is as it was, or none, or another one. -/
theorem filter_startedOn_eq_nil {s : Globals} {e : Event}
    (h : (perform e.env s e.act).probe.gCmd = s.probe.gCmd ∨
      NoPlay (perform e.env s e.act).probe.gCmd) :
    (startedOn (fun t => t.probe.gCmd) s e).filter isPlayFrom = [] := by
  rcases h with hsame | hno
  · rw [startedOn_eq_nil hsame, List.filter_nil]
  · rw [startedOn]
    split
    · exact List.filter_nil
    · apply List.filter_eq_nil_iff.2
      intro tx htx
      rw [hno tx (Option.mem_toList.1 htx)]
      simp

theorem noPlay_none : NoPlay none := fun _ h => by cases h

/-- **A watchdog that does not fire** starts nothing. -/
theorem watchdogPlays_of_quiet {s : Globals} {e : Event} {n : CqNow} (h : adopts s e = some n)
    (hquiet : trackEnded s.shown n = false) : watchdogPlays s e = [] := by
  obtain ⟨hfire, -, hcmd⟩ := perform_of_adopts h
  obtain ⟨hfire', hcmd', -, -, -, -, -, hended⟩ := adopting_frame e.env s (isCmdReply e) n
  have hkept : (watchdog e.env (adopting s (isCmdReply e) n) n).gFire = s.gFire ∧
      (watchdog e.env (adopting s (isCmdReply e) n) n).probe.gCmd = s.probe.gCmd := by
    rw [watchdog, if_neg (by rw [hended, hquiet]; simp)]
    split <;> exact ⟨hfire', hcmd'⟩
  simp only [watchdogPlays, h]
  rw [startedOn_eq_nil (hfire.trans hkept.1), List.append_nil]
  apply filter_startedOn_eq_nil
  rcases hcmd with ⟨-, hnone⟩ | hsame | ⟨-, hno⟩
  · rw [hnone]
    exact Or.inr noPlay_none
  · exact Or.inl (hsame.trans hkept.2)
  · exact Or.inr hno

/-- A play that is due, with what its step has to start from. -/
theorem duePlay_eq_some {s : Globals} {e : Event} {play : RowPlay} (h : duePlay s e = some play) :
    ∃ n row, adopts s e = some n ∧ endsTrack s.shown n = true ∧ queueNextRow s = some row ∧
      rowPlay s.gQueueItems row = some play := by
  obtain ⟨n, hadopts, h⟩ := Option.bind_eq_some_iff.1 h
  split at h
  · next hends =>
    obtain ⟨row, hrow, hplay⟩ := Option.bind_eq_some_iff.1 h
    exact ⟨n, row, hadopts, hends, hrow, hplay⟩
  · cases h

/-- The single shot is spent. -/
def spent (s : Globals) : Globals := { s with shown := { s.shown with gAutoNexted := true } }

/-- A watchdog that fires calls `PlayFrom` on the next row. -/
theorem watchdog_of_due (env : Env) {s : Globals} {n : CqNow} {row : Nat} (isCmd : Bool)
    (hended : trackEnded s.shown n = true) (hrow : queueNextRow s = some row) :
    watchdog env (adopting s isCmd n) n =
      playFrom env (spent (adopting s isCmd n)) s.gQueueItems row none := by
  obtain ⟨-, -, -, -, -, hitems, hrow', hended'⟩ := adopting_frame env s isCmd n
  rw [watchdog, if_pos (by rw [hended', hended]), hrow', hrow]
  show playFrom env (spent (adopting s isCmd n)) (adopting s isCmd n).gQueueItems row none = _
  rw [hitems]

/-- A due play that is started is the only one and is free to start; otherwise nothing is started. -/
def Settles (s : Globals) (e : Event) (play : RowPlay) : Prop :=
  (FreeFor s e play ∧ ∃ tx, watchdogPlays s e = [tx] ∧ PlaysRow (perform e.env s e.act) play tx) ∨
    (¬ FreeFor s e play ∧ watchdogPlays s e = [])

theorem cqTxNew_of_alloc {env : Env} {s : Globals} (sel : CStr) (h : env.alloc s.nextTx = true) :
    cqTxNew env s sel = some ⟨s.nextTx, s.gHost, s.gPort, sel⟩ := by
  rw [cqTxNew, if_pos h]

theorem cqTxNew_of_no_alloc {env : Env} {s : Globals} (sel : CStr)
    (h : env.alloc s.nextTx = false) : cqTxNew env s sel = none := by
  rw [cqTxNew, if_neg (by rw [h]; simp)]

/-- On a server known to be old the play rides the fire. -/
theorem settles_on_old {s : Globals} {e : Event} {n : CqNow} {play : RowPlay}
    (hadopts : adopts s e = some n)
    (hold : (answerProbe s (isCmdReply e)).probe.gNativePlay = .notFound)
    (hcalls : watchdog e.env (adopting s (isCmdReply e) n) n =
      startFire e.env (spent (adopting s (isCmdReply e) n)) play.itemSel) :
    Settles s e play := by
  obtain ⟨hfire, hnative, hcmd⟩ := perform_of_adopts hadopts
  obtain ⟨hfire', hcmd', hnative', hrepeat, hnew, -, -, -⟩ :=
    adopting_frame e.env s (isCmdReply e) n
  rw [hcalls, (aside_startFire _ _ _).probe] at hnative hcmd
  rw [hcalls, fire_startFire] at hfire
  have hplays : watchdogPlays s e = startedOn Globals.gFire s e := by
    simp only [watchdogPlays, hadopts]
    rw [filter_startedOn_eq_nil, List.nil_append]
    rcases hcmd with ⟨-, hnone⟩ | hsame | ⟨-, hno⟩
    · rw [hnone]
      exact Or.inr noPlay_none
    · exact Or.inl (hsame.trans hcmd')
    · exact Or.inr hno
  have hfree : FreeFor s e play ↔ e.env.alloc s.nextTx = true ∧
      isRepeat e.env s play.itemSel = false ∧ s.gFire = none := by
    rw [FreeFor, if_pos hold]
  have hfire'' : (perform e.env s e.act).gFire =
      if isRepeat e.env s play.itemSel = false ∧ s.gFire = none then
        cqTxNew e.env s play.itemSel
      else s.gFire := by
    rw [← hrepeat, ← hfire', ← hnew]
    exact hfire
  rw [Settles, hplays, hfree]
  -- the guard and the slot decide, and after them the allocation
  by_cases hgo : isRepeat e.env s play.itemSel = false ∧ s.gFire = none
  · rw [if_pos hgo] at hfire''
    rw [startedOn_eq_toList hgo.2, hfire'']
    cases halloc : e.env.alloc s.nextTx with
    | true =>
        rw [cqTxNew_of_alloc _ halloc] at hfire'' ⊢
        refine Or.inl ⟨⟨rfl, hgo⟩, _, rfl, ?_⟩
        rw [PlaysRow, if_pos (hnative.trans (hnative'.trans hold))]
        exact ⟨hfire'', rfl⟩
    | false =>
        rw [cqTxNew_of_no_alloc _ halloc]
        exact Or.inr ⟨by simp, rfl⟩
  · rw [if_neg hgo] at hfire''
    exact Or.inr ⟨fun h => hgo h.2, startedOn_eq_nil hfire''⟩

/-- Without a fire, the plays are what the command carries. -/
theorem watchdogPlays_of_gFire {s : Globals} {e : Event} {n : CqNow} (hadopts : adopts s e = some n)
    (hfire : (perform e.env s e.act).gFire = s.gFire) :
    watchdogPlays s e = (startedOn (fun t => t.probe.gCmd) s e).filter isPlayFrom := by
  simp only [watchdogPlays, hadopts]
  rw [startedOn_eq_nil hfire, List.append_nil]

/-- A command is in flight: the play is dropped. -/
theorem watchdogPlays_of_busy {s : Globals} {e : Event} {n : CqNow} (hadopts : adopts s e = some n)
    (hbusy : s.probe.gCmd.isSome = true)
    (hcalls : watchdog e.env (adopting s (isCmdReply e) n) n = spent (adopting s (isCmdReply e) n)) :
    watchdogPlays s e = [] := by
  obtain ⟨hfire, -, hcmd⟩ := perform_of_adopts hadopts
  obtain ⟨hfire', hcmd', -⟩ := adopting_frame e.env s (isCmdReply e) n
  rw [hcalls] at hfire hcmd
  rw [watchdogPlays_of_gFire hadopts (hfire.trans hfire')]
  apply filter_startedOn_eq_nil
  -- it may be the very one whose reply this is
  rcases hcmd with ⟨-, hnone⟩ | hsame | ⟨hnone, -⟩
  · rw [hnone]
    exact Or.inr noPlay_none
  · exact Or.inl (hsame.trans hcmd')
  · have hnone' : s.probe.gCmd = none := hcmd'.symm.trans hnone
    rw [hnone'] at hbusy
    cases hbusy

/-- The command is free, and the watchdog leaves it so: what else takes it is no play. -/
theorem watchdogPlays_of_dropped {s : Globals} {e : Event} {n : CqNow} (hadopts : adopts s e = some n)
    (hfree : s.probe.gCmd = none)
    (hfire : (watchdog e.env (adopting s (isCmdReply e) n) n).gFire =
      (adopting s (isCmdReply e) n).gFire)
    (hnone : (watchdog e.env (adopting s (isCmdReply e) n) n).probe.gCmd = none) :
    watchdogPlays s e = [] := by
  obtain ⟨hfire', -, hcmd⟩ := perform_of_adopts hadopts
  obtain ⟨hfire'', -⟩ := adopting_frame e.env s (isCmdReply e) n
  rw [watchdogPlays_of_gFire hadopts ((hfire'.trans hfire).trans hfire'')]
  apply filter_startedOn_eq_nil
  rcases hcmd with ⟨-, hafter⟩ | hsame | ⟨-, hno⟩
  · rw [hafter]
    exact Or.inr noPlay_none
  · exact Or.inl (hsame.trans (hnone.trans hfree.symm))
  · exact Or.inr hno

/-- The command is free, and the watchdog puts a play of a row there: it stays, and is the only one. -/
theorem watchdogPlays_of_started {s : Globals} {e : Event} {n : CqNow} {tx : Tx} (hadopts : adopts s e = some n)
    (hfree : s.probe.gCmd = none)
    (hfire : (watchdog e.env (adopting s (isCmdReply e) n) n).gFire =
      (adopting s (isCmdReply e) n).gFire)
    (hstart : (watchdog e.env (adopting s (isCmdReply e) n) n).probe.gCmd = some tx)
    (hplay : isPlayFrom tx = true) :
    (perform e.env s e.act).probe.gCmd = some tx ∧ watchdogPlays s e = [tx] := by
  obtain ⟨hfire', -, hcmd⟩ := perform_of_adopts hadopts
  obtain ⟨hfire'', -⟩ := adopting_frame e.env s (isCmdReply e) n
  have hafter : (perform e.env s e.act).probe.gCmd = some tx := by
    rcases hcmd with ⟨hsome, -⟩ | hsame | ⟨hnone, -⟩
    · rw [hfree] at hsome
      cases hsome
    · exact hsame.trans hstart
    · cases hstart.symm.trans hnone
  refine ⟨hafter, ?_⟩
  rw [watchdogPlays_of_gFire hadopts ((hfire'.trans hfire).trans hfire''), startedOn_eq_toList hfree, hafter,
    Option.toList_some]
  exact List.filter_cons_of_pos hplay

/-- Elsewhere it rides the command. -/
theorem settles_on_native {s : Globals} {e : Event} {n : CqNow} {play : RowPlay} {uri : CStr}
    (hadopts : adopts s e = some n)
    (hnotOld : (answerProbe s (isCmdReply e)).probe.gNativePlay ≠ .notFound)
    (hcalls : watchdog e.env (adopting s (isCmdReply e) n) n =
      if s.probe.gCmd.isSome then spent (adopting s (isCmdReply e) n)
      else storeAndStart e.env (spent (adopting s (isCmdReply e) n)) uri play.fromSel)
    (hfrom : playFromHead <+: play.fromSel.bytes) :
    Settles s e play := by
  have hfree : FreeFor s e play ↔ e.env.alloc s.nextTx = true ∧
      isRepeat e.env s play.fromSel = false ∧ s.probe.gCmd = none := by
    rw [FreeFor, if_neg hnotOld]
  rw [Settles, hfree]
  cases hbusy : s.probe.gCmd with
  | some tx =>
      have hsome : s.probe.gCmd.isSome = true := by
        rw [hbusy]
        rfl
      rw [if_pos hsome] at hcalls
      exact Or.inr ⟨by simp, watchdogPlays_of_busy hadopts hsome hcalls⟩
  | none =>
      obtain ⟨-, hnative, -⟩ := perform_of_adopts hadopts
      obtain ⟨-, hcmd', hnative', hrepeat, hnew, -, -, -⟩ := adopting_frame e.env s (isCmdReply e) n
      rw [hbusy, Option.isSome_none, if_neg (by simp)] at hcalls
      rw [hbusy] at hcmd'
      obtain ⟨hkeepFire, hkeepNative⟩ :=
        frame_storeAndStart e.env (spent (adopting s (isCmdReply e) n)) uri play.fromSel
      have hstart := cmd_storeAndStart e.env (s := spent (adopting s (isCmdReply e) n)) uri
        play.fromSel hcmd'
      rw [← hcalls] at hkeepFire hkeepNative hstart
      have hstart' : (watchdog e.env (adopting s (isCmdReply e) n) n).probe.gCmd =
          if isRepeat e.env s play.fromSel = false then cqTxNew e.env s play.fromSel else none := by
        rw [← hrepeat, ← hnew]
        exact hstart
      cases hrep : isRepeat e.env s play.fromSel with
      | true =>
          rw [hrep, if_neg (by simp)] at hstart'
          exact Or.inr ⟨by simp, watchdogPlays_of_dropped hadopts hbusy hkeepFire hstart'⟩
      | false =>
          rw [if_pos hrep] at hstart'
          cases halloc : e.env.alloc s.nextTx with
          | false =>
              rw [cqTxNew_of_no_alloc _ halloc] at hstart'
              exact Or.inr ⟨by simp, watchdogPlays_of_dropped hadopts hbusy hkeepFire hstart'⟩
          | true =>
              rw [cqTxNew_of_alloc _ halloc] at hstart'
              obtain ⟨hafter, hplays⟩ := watchdogPlays_of_started hadopts hbusy hkeepFire hstart'
                (List.isPrefixOf_iff_prefix.2 hfrom)
              have hnative'' : (perform e.env s e.act).probe.gNativePlay ≠ .notFound := by
                rw [hnative, hkeepNative]
                intro h
                exact hnotOld (hnative'.symm.trans h)
              refine Or.inl ⟨⟨rfl, rfl, rfl⟩, _, hplays, ?_⟩
              rw [PlaysRow, if_neg hnative'']
              exact ⟨hafter, rfl⟩

theorem trackEnded_of_endsTrack {s : Shown} {n : CqNow} (hends : endsTrack s n = true)
    (harmed : s.gAutoNexted = false) : trackEnded s n = true := by
  simp only [endsTrack, trackEnded, Bool.and_eq_true, decide_eq_true_eq] at hends ⊢
  obtain ⟨⟨⟨⟨hstop, hsnap⟩, hplaying⟩, hduration⟩, hposition⟩ := hends
  exact ⟨⟨⟨⟨⟨hstop, by rw [harmed]; rfl⟩, hsnap⟩, hplaying⟩, hduration⟩, hposition⟩

/-- **The end of a track**, with the watchdog armed: the next row is played if and only if the play is
free to start. -/
theorem settles_due {s : Globals} {e : Event} {play : RowPlay} (harmed : s.shown.gAutoNexted = false)
    (hdue : duePlay s e = some play) : Settles s e play := by
  obtain ⟨n, row, hadopts, hends, hrow, hplay⟩ := duePlay_eq_some hdue
  obtain ⟨-, hcmd', hnative', -⟩ := adopting_frame e.env s (isCmdReply e) n
  -- the watchdog calls `PlayFrom` on the next row
  have hcalls := watchdog_of_due e.env (isCmdReply e)
    (trackEnded_of_endsTrack hends harmed) hrow
  have hnative : (spent (adopting s (isCmdReply e) n)).probe.gNativePlay =
      (answerProbe s (isCmdReply e)).probe.gNativePlay := hnative'
  have hcmd : (spent (adopting s (isCmdReply e) n)).probe.gCmd = s.probe.gCmd := hcmd'
  rw [playFrom_row _ _ hplay, hnative, hcmd] at hcalls
  -- an old server gets the row as a fire, a new one as a command
  by_cases hold : (answerProbe s (isCmdReply e)).probe.gNativePlay = .notFound
  · rw [if_pos hold] at hcalls
    exact settles_on_old hadopts hold hcalls
  · rw [if_neg hold] at hcalls
    apply settles_on_native hadopts hold hcalls
    rw [rowPlay] at hplay
    obtain ⟨item, -, hplay⟩ := Option.bind_eq_some_iff.1 hplay
    obtain ⟨id, -, hplay⟩ := Option.bind_eq_some_iff.1 hplay
    split at hplay
    · cases hplay
    · cases hplay
      exact playFromHead_prefix_sel id _

/-! ## Runs -/

/-- The display shows a playing track. -/
def ShowsPlaying (s : Shown) : Prop := s.gHaveSnap = true ∧ s.gSnap.state = .playing

theorem showsPlaying_of_endsTrack {s : Shown} {n : CqNow} (h : endsTrack s n = true) :
    ShowsPlaying s := by
  simp only [endsTrack, Bool.and_eq_true, decide_eq_true_eq] at h
  exact ⟨h.1.1.1.2, h.1.1.2⟩

theorem showsPlaying_of_trackEnded {s : Shown} {n : CqNow} (h : trackEnded s n = true) :
    ShowsPlaying s := by
  simp only [trackEnded, Bool.and_eq_true, decide_eq_true_eq] at h
  exact ⟨h.1.1.1.2, h.1.1.2⟩

/-- Only an adoption moves the display and the single shot. -/
theorem display_perform (s : Globals) (e : Event) :
    ∃ guard, (perform e.env s e.act).shown =
      match adopts s e with
      | some n => { adoptedShown e.env s n with gGuard := guard }
      | none => { s.shown with gGuard := guard } := by
  rw [shown_perform]
  by_cases hserver : resetsGuard s e = true
  · -- a change of server adopts nothing
    have hquiet : adopts s e = none := by
      obtain ⟨env, act⟩ := e
      cases act with
      | setServer host port => rfl
      | resume host port => rfl
      | _ => cases hserver
    rw [if_pos hserver, hquiet]
    exact ⟨_, rfl⟩
  · rw [if_neg hserver, adopts, hears]
    cases delivered s e with
    | none => exact ⟨_, rfl⟩
    | some data =>
        simp only [Option.bind_some, replyShown]
        cases healthyReply data with
        | none => exact ⟨_, rfl⟩
        | some n =>
            simp only [Option.filter_some]
            split
            · exact ⟨_, rfl⟩
            · exact ⟨_, rfl⟩

/-- Whether a watchdog play has been started and no playing snapshot adopted since. -/
def played (log : Bool) (s : Globals) (e : Event) : Bool :=
  match adopts s e with
  | some n => if n.state = .playing then false else log || !(watchdogPlays s e).isEmpty
  | none => log

/-- The shot is live while a playing track is on show, and no play has been started since. -/
structure SingleShot (x : Traced Globals Bool) : Prop where
  live : ShowsPlaying x.state.shown → x.state.shown.gAutoNexted = false
  waits : x.log = true → ¬ ShowsPlaying x.state.shown

/-- **Every step** keeps the shot single. -/
theorem SingleShot.step {x : Traced Globals Bool} (h : SingleShot x) (e : Event) :
    SingleShot ⟨perform e.env x.state e.act, played x.log x.state e⟩ := by
  obtain ⟨guard, hshown⟩ := display_perform x.state e
  cases hadopts : adopts x.state e with
  | none =>
      simp only [hadopts] at hshown
      constructor
      · intro hplaying
        dsimp only at hplaying ⊢
        rw [hshown] at hplaying ⊢
        exact h.live hplaying
      · intro hlog hplaying
        simp only [played, hadopts] at hlog
        dsimp only at hplaying
        rw [hshown] at hplaying
        exact h.waits hlog hplaying
  | some n =>
      simp only [hadopts] at hshown
      have hstate : (heldVolume e.env x.state n).state = n.state := by
        rw [heldVolume]
        split <;> rfl
      constructor
      · -- a playing snapshot re-arms the shot
        intro hplaying
        dsimp only at hplaying ⊢
        rw [hshown] at hplaying ⊢
        have hn : n.state = .playing := hstate.symm.trans hplaying.2
        have hnot : trackEnded x.state.shown n = false := by
          simp [trackEnded, hn]
        simp only [adoptedShown, hnot, hn, Bool.false_eq_true, if_false, if_true]
      · intro hlog hplaying
        dsimp only at hplaying
        rw [hshown] at hplaying
        have hn : n.state = .playing := hstate.symm.trans hplaying.2
        simp only [played, hadopts, hn, if_true, Bool.false_eq_true] at hlog

/-- No play is started before playback has resumed. -/
theorem SingleShot.no_further {x : Traced Globals Bool} (h : SingleShot x) (e : Event)
    (hlog : x.log = true) : watchdogPlays x.state e = [] := by
  cases hadopts : adopts x.state e with
  | none => simp only [watchdogPlays, hadopts]
  | some n =>
      apply watchdogPlays_of_quiet hadopts
      rw [Bool.eq_false_iff]
      -- a track can end only while a playing snapshot is on show
      intro hended
      exact h.waits hlog (showsPlaying_of_trackEnded hended)

/-- **Exactly once.** In a run every end of a track starts exactly one play, the next row's, and no other
play follows before a playing snapshot has been adopted: if and only if every play that is due is free
to start. -/
theorem watchdog_plays_once (host : CStr) (port : Nat) (autoStart qtOk : Bool)
    (events : List Event) :
    Meets (traced step played) (fun x e => FreeToPlay x.state e)
        ⟨launch host port autoStart qtOk, false⟩ events ↔
      Meets (traced step played)
        (fun x e => PlaysDue x.state e ∧ (x.log = true → watchdogPlays x.state e = []))
        ⟨launch host port autoStart qtOk, false⟩ events := by
  apply meets_congr_of_inv SingleShot
  · intro x e y h hy
    cases hy
    exact h.step e
  · intro x e h
    -- while the shot is live, a play that is due is started, or it is not free and nothing is
    have hsettles : ∀ play, duePlay x.state e = some play → Settles x.state e play := by
      intro play hdue
      obtain ⟨n, row, -, hends, -⟩ := duePlay_eq_some hdue
      exact settles_due (h.live (showsPlaying_of_endsTrack hends)) hdue
    constructor
    · intro hfree
      refine ⟨?_, h.no_further e⟩
      intro play hdue
      rcases hsettles play hdue with ⟨-, hplays⟩ | ⟨hnot, -⟩
      · exact hplays
      · exact absurd (hfree play hdue) hnot
    · rintro ⟨hplays, -⟩ play hdue
      rcases hsettles play hdue with ⟨hfree, -⟩ | ⟨-, hnone⟩
      · exact hfree
      · obtain ⟨tx, htx, -⟩ := hplays play hdue
        rw [hnone] at htx
        cases htx
  · refine ⟨?_, ?_⟩
    · intro h
      cases h.1
    · intro h
      cases h

/-- A track plays to its end, the queue holds the next one, and the reply to a volume command says that
playback has stopped. -/
def endInCommandReply : List Event :=
  [⟨worldAt 1000 .running, .pumpQueue⟩,
    ⟨worldAt 1060 (.done (ascii "item.0.uri\tspotify:track:A\nitem.1.uri\tspotify:track:B\n")),
      .pumpQueue⟩,
    ⟨worldAt 1100 .running, .pollNow⟩,
    ⟨worldAt 1160 (.done (ascii
      "state\tplaying\ntrack_id\tA\nposition_ms\t199000\nduration_ms\t200000\n")), .pollNow⟩,
    ⟨worldAt 1200 .running, .setVolume 50⟩]

/-- **The play is lost.** The row is due, nothing is started, and the single shot is spent. -/
theorem command_reply_loses_play :
    (run step (launch (.lit "192.0.2.10") 70 false false) endInCommandReply).map (fun s =>
        let e : Event := ⟨worldAt 1260 (.done (ascii "state\tstopped\ntrack_id\tA\n")), .pumpCmd⟩
        ((duePlay s e).map RowPlay.itemSel, (watchdogPlays s e).length,
          (perform e.env s e.act).shown.gAutoNexted)) =
      some (some (.lit "/spot/play?uri=spotify:track:B"), 0, true) := by
  decide +kernel

end Casquinha.App
