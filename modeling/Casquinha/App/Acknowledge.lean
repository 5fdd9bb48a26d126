import Casquinha.App.Watchdog
import Casquinha.App.Writes

/-!
# What a step acknowledges and renders (`SetIntent`, `BuildViewIn`)

A handler that sets the pending intent puts an acknowledgement on show, and goes on to start something.
`gesture` lists what a step acknowledges and what is to follow, and `rendered` the states that it hands to
`BuildViewIn`. Nothing else moves the intent: it is what the step acknowledges, else what it was, less
what its first render drops (`intent_perform`).
-/

set_option autoImplicit false

namespace Casquinha.App

open Lib Wire

/-! ## Acknowledgements -/

/-- What is to follow an acknowledgement. -/
inductive Own where
  /-- A command, behind the guard of repeats or not. -/
  | cmd (sel : CStr) (guarded : Bool)
  /-- A fire, which `PlayFrom` may refuse while a command is in flight. -/
  | fire (sel : CStr) (behindCmd : Bool)
  /-- A tap that waits in the debouncer. -/
  | tap (sel : CStr)
  /-- Nothing can follow: there is no such row. -/
  | nothing

/-- What follows a call of `PlayFrom`. -/
def playOwn (s : Globals) (call : PlayCall) : Own :=
  match call.items.items[call.row]? with
  | none => .nothing
  | some item =>
      if s.probe.gNativePlay = .notFound then .fire (playItemSel item.uri) false
      else
        match afterLastColon item.uri with
        | none => .fire (playItemSel item.uri) true
        | some id =>
            if id.bytes = [] then .fire (playItemSel item.uri) true
            else .cmd (playFromSel id (continuation call.items call.row call.cont)) true

/-- The selector of the Play/Pause button. -/
def playPauseSel (s : Globals) : CStr :=
  if s.shown.gSnap.state = .playing then .lit "/spot/api/1/pause" else .lit "/spot/api/1/play"

/-- The selector of `PlayContextAlbum`. -/
def albumSel (albumId : CStr) : CStr :=
  (CStr.lit "/spot/api/1/play/context?uri=" ++
    escInto ((CStr.lit "spotify:album:" ++ albumId).fit 80) 160 true).fit 224

/-- The command of the auto-start on an adopted snapshot. -/
def wakeSel (s : Globals) (n : CqNow) : Option CStr :=
  if s.gAutoStart ∧ s.gAutoWoke = false then
    if n.device = .active then
      match n.state with
      | .paused => some (.lit "/spot/api/1/play")
      | .playing | .stopped => none
    else some (.lit "/spot/api/1/wake?play=1")
  else none

/-- The intent and the selector of a script command. -/
def scriptOwn : ScriptCmd → CqIntentKind × CStr
  | .play => (.play, .lit "/spot/api/1/play")
  | .pause => (.pause, .lit "/spot/api/1/pause")
  | .prev => (.skip, .lit "/spot/api/1/prev")
  | .wake => (.play, .lit "/spot/api/1/wake?play=1")

/-- The intent that a step sets, and what is to follow. -/
def gesture (s : Globals) (e : Event) : Option (CqIntentKind × Own) :=
  match e.act with
  | .clickPrev => some (.skip, .tap (.lit "/spot/api/1/prev"))
  | .clickNext =>
      match nextRow s with
      | none => some (.skip, .tap (.lit "/spot/api/1/next"))
      | some row => some (.skip, playOwn s ⟨s.gQueueItems, row, none⟩)
  | .clickPlay =>
      -- a repeat is swallowed before it is acknowledged
      if isRepeat e.env s (playPauseSel s) then none
      else some (if s.shown.gSnap.state = .playing then .pause else .play, .cmd (playPauseSel s) false)
  | .clickResult row =>
      match resultKindAt s row with
      | .album i =>
          (albumsShown s).items[i]?.bind fun album =>
            if album.id.bytes = [] ∨ isRepeat e.env s (albumSel album.id) then none
            else some (.play, .cmd (albumSel album.id) false)
      | .artist _ | .track _ | .back | .none => none
  | .script cmd => some ((scriptOwn cmd).1, .cmd (scriptOwn cmd).2 false)
  | .pumpQueue => (playCall s e).map fun call => (.play, playOwn s call)
  | .pumpCmd | .pollNow =>
      ((adopts s e).bind (wakeSel s)).map fun sel => (.play, .cmd sel false)
  | _ => none

/-- The intent with which a step comes to its first render. -/
def toldIntent (s : Globals) (e : Event) : Intent :=
  match gesture s e with
  | none => s.gIntent
  | some (kind, _) => (setIntent e.env (perform e.env s e.act) kind).gIntent

/-! ## Renders -/

/-- What a render shows. -/
def viewOf (env : Env) (s : Globals) : CqView := cqViewRender (buildViewIn env s)

/-- The states that a step hands to `BuildViewIn`, in turn. -/
def rendered (s : Globals) (e : Event) : List Globals :=
  match e.act with
  | .pumpCmd =>
      match s.probe.gCmd with
      | none => []
      | some tx =>
          match e.env.poll tx.id with
          | .running => []
          | .done data => [replied e.env s data true]
          | .failed message =>
              [{ txFailed s message with probe := { (txFailed s message).probe with gCmd := none } }]
  | .pollNow =>
      match s.gTx with
      | none => []
      | some tx =>
          match e.env.poll tx.id with
          | .running => []
          | .done data => [replied e.env s data false]
          | .failed message => [{ txFailed s message with gTx := none }]
  | .pumpCover =>
      match s.gCover with
      | none => []
      | some tx =>
          match e.env.poll tx.id with
          | .running | .failed _ => []
          | .done data =>
              if cqDataIsJpeg data ∧ e.env.decodes data then
                [{ s with
                  gCovers := cqCachePut s.gCovers s.gCoverReq (some data)
                  gCover := none }]
              else []
  | .tickView =>
      if (e.env.tick - s.lastDraw).toNat < 30 then []
      else if cqViewDiffers s.gView (viewOf e.env s) then
        -- the view that differs is rendered once more to be drawn
        [s, { dropIntent s (viewOf e.env s) with lastDraw := e.env.tick }]
      else [s]
  | _ => []

/-- The intent that a render leaves. -/
def leftIntent (env : Env) (s : Globals) : Intent := (dropIntent s (viewOf env s)).gIntent

/-- The states are rendered one after the other from the intent `told`, over what is `shown`, and leave
the intent `left`. -/
def Renders (env : Env) (shown : Shown) : Intent → List Globals → Intent → Prop
  | told, [], left => left = told
  | told, s :: rest, left =>
      s.gIntent = told ∧ s.shown = shown ∧ Renders env shown (leftIntent env s) rest left

/-! ## One render -/

theorem intent_dropIntent (s : Globals) (v : CqView) :
    (dropIntent s v).gIntent =
      if s.gIntent.kind ≠ .none ∧ v.ackActive = false then { s.gIntent with kind := .none }
      else s.gIntent := by
  rw [dropIntent]
  split <;> rfl

theorem intent_redraw (env : Env) (s : Globals) : (redraw env s).gIntent = leftIntent env s := by
  simp only [redraw, renderView, leftIntent, intent_dropIntent, viewOf]

theorem shown_redraw (env : Env) (s : Globals) : (redraw env s).shown = s.shown :=
  ((Aside.refl s).redraw env).shown

/-- One redraw, after which the step leaves the intent and the snapshot alone. -/
theorem renders_redraw {env : Env} {s t : Globals} {told : Intent} (htold : s.gIntent = told)
    (hintent : t.gIntent = (redraw env s).gIntent) (hshown : t.shown = (redraw env s).shown) :
    Renders env t.shown told [s] t.gIntent := by
  refine ⟨htold, ?_, ?_⟩
  · rw [hshown, shown_redraw]
  · rw [Renders, hintent, intent_redraw]

/-- `SetIntent` reads the snapshot on show and the time. -/
theorem intent_setIntent_congr (env : Env) {s t : Globals} (kind : CqIntentKind)
    (h : t.shown = s.shown) : (setIntent env t kind).gIntent = (setIntent env s kind).gIntent := by
  simp only [setIntent, h]

/-! ## A reply -/

theorem intent_autoWake (env : Env) (s : Globals) :
    (autoWake env s).gIntent =
      if (wakeSel s s.shown.gSnap).isSome then (setIntent env s .play).gIntent else s.gIntent := by
  simp only [autoWake, wakeSel]
  split
  · split
    · split
      · next hstate => rw [hstate]; rfl
      · next hstate =>
        rw [hstate]
        exact (starts_startCommand env _ _).frame Globals.gIntent rfl
      · next hstate => rw [hstate]; rfl
    · exact (starts_startCommand env _ _).frame Globals.gIntent rfl
  · rfl

/-- The marks of the auto-start, and the tap that waits with its deadline. -/
def marks (s : Globals) : Bool × Bool × CqDebounce × BitVec 32 :=
  (s.gAutoStart, s.gAutoWoke, s.gDeb, s.gCmdFire)

/-- The intent and the marks. -/
def notes (s : Globals) : Intent × Bool × Bool × CqDebounce × BitVec 32 := (s.gIntent, marks s)

/-- The auto-start looks at its marks, the device and the state. -/
theorem wakeSel_congr {s t : Globals} {m n : CqNow} (hnotes : notes s = notes t)
    (hdevice : m.device = n.device) (hstate : m.state = n.state) : wakeSel s m = wakeSel t n := by
  simp only [notes, marks, Prod.mk.injEq] at hnotes
  obtain ⟨-, hstart, hwoke, -⟩ := hnotes
  rw [wakeSel, wakeSel, hstart, hwoke, hdevice, hstate]

theorem notes_adopting (s : Globals) (isCmd : Bool) (n : CqNow) :
    notes (adopting s isCmd n) = notes s := by
  simp only [adopting, answerProbe]
  split <;> rfl

/-- `AdoptReply` before its auto-start. -/
def settled (env : Env) (s : Globals) (n : CqNow) : Globals :=
  settleVolume (showSnapshot env (kickQueue env (watchdog env s n) n) n) (volHeld env s)
    s.shown.gSnap.volume

theorem notes_settled (env : Env) (s : Globals) (n : CqNow) : notes (settled env s n) = notes s := by
  have hwatchdog : notes (watchdog env s n) = notes s := by
    rw [watchdog]
    split
    · dsimp only
      split
      · exact (starts_playFrom env { s with shown := { s.shown with gAutoNexted := true } } _ _
          none).frame notes rfl
      · rfl
    · split <;> rfl
  have hkick : ∀ t, notes (kickQueue env t n) = notes t := by
    intro t
    rw [kickQueue]
    split <;> rfl
  have hsettle : ∀ t held keepVol, notes (settleVolume t held keepVol) = notes t := by
    intro t held keepVol
    rw [settleVolume]
    split <;> rfl
  exact (hsettle _ _ _).trans ((hkick _).trans hwatchdog)

/-- What comes before the auto-start shows it the device and the state of the snapshot. -/
theorem wakeSel_settled (env : Env) (s : Globals) (n : CqNow) :
    wakeSel (settled env s n) (settled env s n).shown.gSnap = wakeSel s n := by
  apply wakeSel_congr (notes_settled env s n)
  · rw [settled, settleVolume]
    split <;> rfl
  · rw [settled, settleVolume]
    split <;> rfl

theorem intent_dropPending (s : Globals) : (dropPending s).gIntent = s.gIntent := by
  rw [dropPending]
  split <;> rfl

theorem intent_adoptSnapshot (env : Env) (s : Globals) (n : CqNow) :
    (adoptSnapshot env s n).gIntent =
      if (wakeSel s n).isSome then (setIntent env (adoptSnapshot env s n) .play).gIntent
      else s.gIntent := by
  have hintent : (settled env s n).gIntent = s.gIntent := congrArg Prod.fst (notes_settled env s n)
  have hshown : (adoptSnapshot env s n).shown = (settled env s n).shown := by
    rw [adoptSnapshot, shown_dropPending, shown_autoWake]
    rfl
  have hadopt : (adoptSnapshot env s n).gIntent = (autoWake env (settled env s n)).gIntent :=
    intent_dropPending _
  rw [intent_setIntent_congr env .play hshown, hadopt, intent_autoWake, wakeSel_settled, hintent]

/-- A reply that is not adopted leaves both alone. -/
theorem notes_replied_of_stale {env : Env} {s : Globals} {data : Bytes} (isCmd : Bool)
    (hstale : (healthyReply data).filter (fun n => (cqGuardAcceptTs s.shown.gGuard n.ts).1) = none) :
    notes (replied env s data isCmd) = notes s := by
  rw [replied]
  cases herror : replyError data with
  | some err =>
      -- the fallback is fired, or a message is noted
      dsimp only
      rw [adoptError]
      split
      · rfl
      · split
        · exact (starts_startFire env _ _).frame notes rfl
        · rfl
  | none =>
      have hreply : healthyReply data = some (cqNowFromFields (replyFields data)) := by
        rw [healthyReply, herror]
      rw [hreply, Option.filter_eq_none_iff] at hstale
      have hold := hstale _ rfl
      simp only [adoptHealthy, shown_answerProbe]
      rw [if_neg (by simpa using hold), answerProbe]
      split <;> rfl

/-- **What a reply does to the intent**: the auto-start may set it. -/
theorem intent_replied (env : Env) (s : Globals) (data : Bytes) (isCmd : Bool) :
    (replied env s data isCmd).gIntent =
      if (((healthyReply data).filter fun n => (cqGuardAcceptTs s.shown.gGuard n.ts).1).bind
          (wakeSel s)).isSome then
        (setIntent env (replied env s data isCmd) .play).gIntent
      else s.gIntent := by
  cases hadopts : (healthyReply data).filter fun n => (cqGuardAcceptTs s.shown.gGuard n.ts).1 with
  | none =>
      rw [if_neg (by simp)]
      exact congrArg Prod.fst (notes_replied_of_stale isCmd hadopts)
  | some n =>
      obtain ⟨hreply, haccept⟩ := Option.filter_eq_some_iff.1 hadopts
      have hkept := notes_adopting s isCmd n
      have hwake : wakeSel (adopting s isCmd n) n = wakeSel s n := wakeSel_congr hkept rfl rfl
      have hintent : (adopting s isCmd n).gIntent = s.gIntent := congrArg Prod.fst hkept
      rw [replied_of_adopts isCmd hreply haccept, intent_adoptSnapshot, hwake, hintent]
      rfl

/-- The intent that a reply sets. -/
theorem toldIntent_of_reply {s : Globals} {e : Event} {data : Bytes}
    (hdata : delivered s e = some data) :
    toldIntent s e =
      if (((healthyReply data).filter fun n => (cqGuardAcceptTs s.shown.gGuard n.ts).1).bind
          (wakeSel s)).isSome then
        (setIntent e.env (perform e.env s e.act) .play).gIntent
      else s.gIntent := by
  have hadopts : adopts s e =
      (healthyReply data).filter fun n => (cqGuardAcceptTs s.shown.gGuard n.ts).1 := by
    rw [adopts, hears, hdata, Option.bind_some]
  rw [← hadopts, toldIntent]
  obtain ⟨env, act⟩ := e
  cases act with
  | pumpCmd =>
      simp only [gesture]
      cases (adopts s ⟨env, .pumpCmd⟩).bind (wakeSel s) with
      | none => rfl
      | some sel => rfl
  | pollNow =>
      simp only [gesture]
      cases (adopts s ⟨env, .pollNow⟩).bind (wakeSel s) with
      | none => rfl
      | some sel => rfl
  | _ => cases hdata

/-- No reply, no intent. -/
theorem toldIntent_of_silence {s : Globals} {e : Event} (hact : e.act = .pumpCmd ∨ e.act = .pollNow)
    (hdata : delivered s e = none) : toldIntent s e = s.gIntent := by
  have hadopts : adopts s e = none := by
    rw [adopts, hears, hdata]
    rfl
  rcases hact with h | h <;> simp only [toldIntent, gesture, h, hadopts, Option.bind_none, Option.map_none]

/-! ## Steps that render -/

/-- A reply is rendered once it has been adopted. -/
theorem renders_reply {s : Globals} {e : Event} {data : Bytes} (isCmd : Bool)
    (hdata : delivered s e = some data)
    (hintent : (perform e.env s e.act).gIntent = (adoptReply e.env s data isCmd).gIntent)
    (hshown : (perform e.env s e.act).shown = (adoptReply e.env s data isCmd).shown) :
    Renders e.env (perform e.env s e.act).shown (toldIntent s e) [replied e.env s data isCmd]
      (perform e.env s e.act).gIntent := by
  have hreplied : (perform e.env s e.act).shown = (replied e.env s data isCmd).shown :=
    hshown.trans (shown_redraw e.env _)
  apply renders_redraw
  · rw [intent_replied, toldIntent_of_reply hdata, intent_setIntent_congr e.env .play hreplied]
  · exact hintent
  · exact hshown

theorem renders_pumpCmd (env : Env) (s : Globals) :
    Renders env (pumpCmd env s).shown (toldIntent s ⟨env, .pumpCmd⟩) (rendered s ⟨env, .pumpCmd⟩)
      (pumpCmd env s).gIntent := by
  cases hcmd : s.probe.gCmd with
  | none =>
      have silent : delivered s ⟨env, .pumpCmd⟩ = none := by simp only [delivered, hcmd, Option.bind_none]
      rw [toldIntent_of_silence (.inl rfl) silent]
      simp only [rendered, pumpCmd, hcmd, Renders]
  | some tx =>
      cases hpoll : env.poll tx.id with
      | running =>
          have silent : delivered s ⟨env, .pumpCmd⟩ = none := by
            simp only [delivered, hcmd, Option.bind_some, hpoll, TxPoll.reply]
          rw [toldIntent_of_silence (.inl rfl) silent]
          simp only [rendered, pumpCmd, hcmd, hpoll, Renders]
      | failed message =>
          have silent : delivered s ⟨env, .pumpCmd⟩ = none := by
            simp only [delivered, hcmd, Option.bind_some, hpoll, TxPoll.reply]
          rw [toldIntent_of_silence (.inl rfl) silent]
          simp only [rendered, pumpCmd, hcmd, hpoll]
          apply renders_redraw
          · rfl
          · rfl
          · rfl
      | done data =>
          have heard : delivered s ⟨env, .pumpCmd⟩ = some data := by
            simp only [delivered, hcmd, Option.bind_some, hpoll, TxPoll.reply]
          have hrendered : rendered s ⟨env, .pumpCmd⟩ = [replied env s data true] := by
            simp only [rendered, hcmd, hpoll]
          rw [hrendered]
          apply renders_reply (e := ⟨env, .pumpCmd⟩) true heard
          · simp only [perform, pumpCmd, hcmd, hpoll]
          · simp only [perform, pumpCmd, hcmd, hpoll]

theorem renders_pollNow (env : Env) (s : Globals) :
    Renders env (pollNow env s).shown (toldIntent s ⟨env, .pollNow⟩) (rendered s ⟨env, .pollNow⟩)
      (pollNow env s).gIntent := by
  cases htx : s.gTx with
  | none =>
      have silent : delivered s ⟨env, .pollNow⟩ = none := by simp only [delivered, htx, Option.bind_none]
      have hkept : (startPoll env s).gIntent = s.gIntent := by
        rw [startPoll]
        split <;> rfl
      rw [toldIntent_of_silence (.inr rfl) silent, pollNow, if_neg (by simp [htx])]
      simp only [rendered, htx, Renders, hkept]
  | some tx =>
      have hpump : pollNow env s = pumpPoll env s := by rw [pollNow, if_pos (by simp [htx])]
      rw [hpump]
      cases hpoll : env.poll tx.id with
      | running =>
          have silent : delivered s ⟨env, .pollNow⟩ = none := by
            simp only [delivered, htx, Option.bind_some, hpoll, TxPoll.reply]
          rw [toldIntent_of_silence (.inr rfl) silent]
          simp only [rendered, pumpPoll, htx, hpoll, Renders]
      | failed message =>
          have silent : delivered s ⟨env, .pollNow⟩ = none := by
            simp only [delivered, htx, Option.bind_some, hpoll, TxPoll.reply]
          rw [toldIntent_of_silence (.inr rfl) silent]
          simp only [rendered, pumpPoll, htx, hpoll]
          apply renders_redraw
          · rfl
          · rfl
          · rfl
      | done data =>
          have heard : delivered s ⟨env, .pollNow⟩ = some data := by
            simp only [delivered, htx, Option.bind_some, hpoll, TxPoll.reply]
          have hrendered : rendered s ⟨env, .pollNow⟩ = [replied env s data false] := by
            simp only [rendered, htx, hpoll]
          rw [hrendered, ← hpump]
          apply renders_reply (e := ⟨env, .pollNow⟩) false heard
          · simp only [perform, hpump, pumpPoll, htx, hpoll]
          · simp only [perform, hpump, pumpPoll, htx, hpoll]

theorem renders_pumpCover (env : Env) (s : Globals) :
    Renders env (pumpCover env s).shown s.gIntent (rendered s ⟨env, .pumpCover⟩)
      (pumpCover env s).gIntent := by
  simp only [rendered, pumpCover]
  cases s.gCover with
  | none => rfl
  | some tx =>
      dsimp only
      cases env.poll tx.id with
      | running => rfl
      | failed message => rfl
      | done data =>
          dsimp only
          split
          · apply renders_redraw
            · rfl
            · rfl
            · rfl
          · rfl

theorem renders_tickView (env : Env) (s : Globals) :
    Renders env (tickView env s).shown s.gIntent (rendered s ⟨env, .tickView⟩)
      (tickView env s).gIntent := by
  have hshown : (tickView env s).shown = s.shown := (aside_tickView env s).shown
  have hdrop : (dropIntent s (viewOf env s)).shown = s.shown :=
    ((Aside.refl s).dropIntent (viewOf env s)).shown
  have hview : (dropIntent s (viewOf env s)).gView = s.gView := by
    rw [dropIntent]
    split <;> rfl
  have htick : tickView env s =
      if (env.tick - s.lastDraw).toNat < 30 then s
      else if cqViewDiffers (dropIntent s (viewOf env s)).gView (viewOf env s) then
        redraw env { dropIntent s (viewOf env s) with lastDraw := env.tick }
      else dropIntent s (viewOf env s) := rfl
  rw [hshown, htick, hview, rendered]
  by_cases early : (env.tick - s.lastDraw).toNat < 30
  · rw [if_pos early, if_pos early]
    rfl
  · rw [if_neg early, if_neg early]
    by_cases differs : cqViewDiffers s.gView (viewOf env s) = true
    · -- what is drawn is rendered from what the first render has left
      rw [if_pos differs, if_pos differs, intent_redraw]
      exact ⟨rfl, rfl, rfl, hdrop, rfl⟩
    · rw [if_neg differs, if_neg differs]
      exact ⟨rfl, rfl, rfl⟩

/-! ## Steps that do not render -/

/-- A step that acknowledges and renders nothing. -/
theorem renders_of_kept {s : Globals} {e : Event} (hgesture : gesture s e = none)
    (hrendered : rendered s e = []) (hkept : (perform e.env s e.act).gIntent = s.gIntent) :
    Renders e.env (perform e.env s e.act).shown (toldIntent s e) (rendered s e)
      (perform e.env s e.act).gIntent := by
  rw [hrendered, Renders, toldIntent, hgesture]
  exact hkept

/-- A step that sets the intent and then starts something. -/
theorem renders_of_told {s t : Globals} {e : Event} {kind : CqIntentKind} {own : Own}
    (hgesture : gesture s e = some (kind, own)) (hrendered : rendered s e = [])
    (hshown : (perform e.env s e.act).shown = t.shown)
    (hset : (perform e.env s e.act).gIntent = (setIntent e.env t kind).gIntent) :
    Renders e.env (perform e.env s e.act).shown (toldIntent s e) (rendered s e)
      (perform e.env s e.act).gIntent := by
  rw [hrendered, Renders, toldIntent, hgesture]
  dsimp only
  rw [intent_setIntent_congr e.env kind hshown]
  exact hset

theorem renders_pumpQueue (env : Env) (s : Globals) :
    Renders env (pumpQueue env s).shown (toldIntent s ⟨env, .pumpQueue⟩)
      (rendered s ⟨env, .pumpQueue⟩) (pumpQueue env s).gIntent := by
  rcases pumpQueue_cases env s with ⟨fresh, hcall, hplayed⟩ | ⟨hcall, hquiet⟩
  · -- the first queue after the launch is played
    have hgesture : gesture s ⟨env, .pumpQueue⟩ = some (.play, playOwn s ⟨fresh, 0, none⟩) := by
      simp only [gesture, hcall, Option.map_some]
    apply renders_of_told (t := s) hgesture
    · rfl
    · exact shown_pumpQueue env s
    · rw [perform, hplayed]
      exact (starts_playFrom env (readied env s fresh) fresh 0 none).frame Globals.gIntent rfl
  · apply renders_of_kept (e := ⟨env, .pumpQueue⟩)
    · simp only [gesture, hcall, Option.map_none]
    · rfl
    · rw [perform, hquiet]
      rfl

theorem renders_clickNext (env : Env) (s : Globals) :
    Renders env (nextCommand env s).shown (toldIntent s ⟨env, .clickNext⟩)
      (rendered s ⟨env, .clickNext⟩) (nextCommand env s).gIntent := by
  have hrow : nextRow (setIntent env s .skip) = nextRow s := rfl
  cases hnext : nextRow s with
  | none =>
      have hgesture : gesture s ⟨env, .clickNext⟩ = some (.skip, .tap (.lit "/spot/api/1/next")) := by
        simp only [gesture, hnext]
      apply renders_of_told (t := s) hgesture
      · rfl
      · exact shown_nextCommand env s
      · simp only [perform, nextCommand, hrow, hnext]
        rfl
  | some row =>
      have hgesture : gesture s ⟨env, .clickNext⟩ =
          some (.skip, playOwn s ⟨s.gQueueItems, row, none⟩) := by
        simp only [gesture, hnext]
      apply renders_of_told (t := s) hgesture
      · rfl
      · exact shown_nextCommand env s
      · simp only [perform, nextCommand, hrow, hnext]
        exact (starts_playFrom env _ _ row none).frame Globals.gIntent rfl

theorem renders_clickPlay (env : Env) (s : Globals) :
    Renders env (clickPlay env s).shown (toldIntent s ⟨env, .clickPlay⟩)
      (rendered s ⟨env, .clickPlay⟩) (clickPlay env s).gIntent := by
  rcases actionRepeat_cases env s (playPauseSel s) with ⟨hrepeat, h⟩ | ⟨hrepeat, h⟩
  · apply renders_of_kept (e := ⟨env, .clickPlay⟩)
    · simp only [gesture, hrepeat, if_true]
    · rfl
    · rw [playPauseSel] at h
      simp only [perform, clickPlay, h]
  · have hgesture : gesture s ⟨env, .clickPlay⟩ =
        some (if s.shown.gSnap.state = .playing then .pause else .play,
          .cmd (playPauseSel s) false) := by
      simp only [gesture, hrepeat, Bool.false_eq_true, if_false]
    apply renders_of_told (t := s) hgesture
    · rfl
    · exact shown_clickPlay env s
    · rw [playPauseSel] at h
      simp only [perform, clickPlay, h]
      exact (starts_startCommand env _ _).frame Globals.gIntent rfl

theorem notes_startArtistAlbums (env : Env) (s : Globals) (id : CStr) (name : Option CStr) :
    notes (startArtistAlbums env s id name) = notes s := by
  rcases startArtistAlbums_cases env s id name with h | ⟨sel, h⟩
  · rw [h]
  · rw [h]
    rfl

theorem renders_clickResult (env : Env) (s : Globals) (row : Nat) :
    Renders env (clickResult env s row).shown (toldIntent s ⟨env, .clickResult row⟩)
      (rendered s ⟨env, .clickResult row⟩) (clickResult env s row).gIntent := by
  have quiet : gesture s ⟨env, .clickResult row⟩ = none →
      (clickResult env s row).gIntent = s.gIntent →
      Renders env (clickResult env s row).shown (toldIntent s ⟨env, .clickResult row⟩)
        (rendered s ⟨env, .clickResult row⟩) (clickResult env s row).gIntent :=
    fun hgesture hkept => renders_of_kept (e := ⟨env, .clickResult row⟩) hgesture rfl hkept
  cases hkind : resultKindAt s row with
  | track i =>
      apply quiet
      · simp only [gesture, hkind]
      · simp only [clickResult, hkind]
        exact (starts_playFrom env s _ i _).frame Globals.gIntent rfl
  | artist i =>
      apply quiet
      · simp only [gesture, hkind]
      · simp only [clickResult, hkind]
        split
        · exact congrArg Prod.fst (notes_startArtistAlbums env s _ _)
        · rfl
  | album i =>
      cases halbum : (albumsShown s).items[i]? with
      | none =>
          apply quiet
          · simp only [gesture, hkind, halbum, Option.bind_none]
          · simp only [clickResult, hkind, halbum]
      | some album =>
          rcases actionRepeat_cases env s (albumSel album.id) with ⟨hrepeat, h⟩ | ⟨hrepeat, h⟩
          · apply quiet
            · simp only [gesture, hkind, halbum, Option.bind_some, hrepeat, or_true, if_true]
            · rw [albumSel] at h
              simp only [clickResult, hkind, halbum, playContextAlbum, h]
              split <;> rfl
          · by_cases hid : album.id.bytes = []
            · apply quiet
              · simp only [gesture, hkind, halbum, Option.bind_some, hid, true_or, if_true]
              · simp only [clickResult, hkind, halbum, playContextAlbum, if_pos hid]
            · have hgesture : gesture s ⟨env, .clickResult row⟩ =
                  some (.play, .cmd (albumSel album.id) false) := by
                simp only [gesture, hkind, halbum, Option.bind_some, hid, hrepeat, Bool.false_eq_true,
                  or_self, if_false]
              apply renders_of_told (t := s) hgesture
              · rfl
              · exact shown_clickResult env s row
              · rw [albumSel] at h
                simp only [perform, clickResult, hkind, halbum, playContextAlbum, if_neg hid, h]
                exact (starts_startCommand env _ _).frame Globals.gIntent rfl
  | back =>
      apply quiet
      · simp only [gesture, hkind]
      · simp only [clickResult, hkind]
        rfl
  | none =>
      apply quiet
      · simp only [gesture, hkind]
      · simp only [clickResult, hkind]

theorem renders_flushDebounce (env : Env) (s : Globals) :
    Renders env (flushDebounce env s).shown (toldIntent s ⟨env, .flushDebounce⟩)
      (rendered s ⟨env, .flushDebounce⟩) (flushDebounce env s).gIntent := by
  apply renders_of_kept (e := ⟨env, .flushDebounce⟩)
  · rfl
  · rfl
  · simp only [perform, flushDebounce]
    split
    · split
      · exact (starts_startCommand env _ _).frame Globals.gIntent rfl
      · rfl
    · rfl

theorem renders_script (env : Env) (s : Globals) (cmd : ScriptCmd) :
    Renders env (doScriptCmd env s cmd).shown (toldIntent s ⟨env, .script cmd⟩)
      (rendered s ⟨env, .script cmd⟩) (doScriptCmd env s cmd).gIntent := by
  have hgesture : gesture s ⟨env, .script cmd⟩ =
      some ((scriptOwn cmd).1, .cmd (scriptOwn cmd).2 false) := rfl
  apply renders_of_told (t := s) hgesture
  · rfl
  · exact shown_doScriptCmd env s cmd
  · cases cmd <;> exact (starts_startCommand env _ _).frame Globals.gIntent rfl

theorem notes_reloadConfig (s : Globals) (host : CStr) (port : Nat) :
    notes (reloadConfig s host port) = notes s := by
  rw [reloadConfig]
  split <;> rfl

/-- The actions that neither acknowledge nor render nor send a tap. -/
def keepsNotes : Act → Bool
  | .pumpCmd | .pollNow | .pumpCover | .tickView | .pumpQueue | .flushDebounce | .clickPrev
  | .clickNext | .clickPlay | .clickResult _ | .script _ => false
  | _ => true

theorem notes_kept (env : Env) (s : Globals) {act : Act} (h : keepsNotes act = true) :
    notes (perform env s act) = notes s := by
  cases act with
  | pumpCmd | pollNow | pumpCover | tickView | pumpQueue | flushDebounce | clickPrev | clickNext
  | clickPlay | clickResult row | script cmd => cases h
  | startCover =>
      simp only [perform, startCover]
      split
      · rfl
      · split <;> rfl
  | pumpFire =>
      simp only [perform, pumpFire]
      split
      · rfl
      · split <;> rfl
  | pumpSearch =>
      simp only [perform, pumpSearch]
      split
      · rfl
      · split <;> rfl
  | pumpArtist =>
      simp only [perform, pumpArtist]
      split
      · rfl
      · split <;> rfl
  | pumpFact =>
      simp only [perform, pumpFact, startFact, adoptFact]
      split
      · split <;> rfl
      · split
        · rfl
        · split
          · split <;> rfl
          · rfl
        · rfl
  | audio face plsDone => rfl
  | startListen =>
      simp only [perform, startListen]
      split <;> rfl
  | setVolume value => exact (starts_startCommand env _ _).frame notes rfl
  | seek frac span =>
      simp only [perform, seek]
      split
      · exact (starts_startCommand env _ _).frame notes rfl
      · rfl
  | clickQueue row => exact (starts_playFrom env s _ row none).frame notes rfl
  | queueSelected row =>
      simp only [perform, queueSelected]
      split
      · split
        · exact (starts_startFire env s _).frame notes rfl
        · rfl
      · split
        · exact (starts_startFire env s _).frame notes rfl
        · rfl
      · rfl
      · rfl
      · rfl
  | runSearch query =>
      rw [perform]
      rcases runSearch_cases env s query with h | ⟨sel, h⟩
      · rw [h]
      · rw [h]
        rfl
  | kickQueue => rfl
  | setServer host port =>
      simp only [perform, setServer]
      split <;> rfl
  | suspend => rfl
  | resume host port => exact notes_reloadConfig _ host port

theorem renders_quiet (env : Env) (s : Globals) {act : Act} (h : keepsNotes act = true)
    (hgesture : gesture s ⟨env, act⟩ = none) (hrendered : rendered s ⟨env, act⟩ = []) :
    Renders env (perform env s act).shown (toldIntent s ⟨env, act⟩) (rendered s ⟨env, act⟩)
      (perform env s act).gIntent :=
  @renders_of_kept s ⟨env, act⟩ hgesture hrendered (congrArg Prod.fst (notes_kept env s h))

/-- **What a step does to the intent.** It comes to its renders with what it acknowledges, else with what
was there, and each render drops an intent that it does not show. -/
theorem intent_perform (s : Globals) (e : Event) :
    Renders e.env (perform e.env s e.act).shown (toldIntent s e) (rendered s e)
      (perform e.env s e.act).gIntent := by
  obtain ⟨env, act⟩ := e
  cases act with
  | pumpCmd => exact renders_pumpCmd env s
  | pollNow => exact renders_pollNow env s
  | pumpCover => exact renders_pumpCover env s
  | tickView => exact renders_tickView env s
  | pumpQueue => exact renders_pumpQueue env s
  | flushDebounce => exact renders_flushDebounce env s
  | clickNext => exact renders_clickNext env s
  | clickPlay => exact renders_clickPlay env s
  | clickResult row => exact renders_clickResult env s row
  | script cmd => exact renders_script env s cmd
  | clickPrev =>
      apply renders_of_told (t := s) (show gesture s ⟨env, .clickPrev⟩ = some _ from rfl)
      · rfl
      · rfl
      · rfl
  | _ => exact renders_quiet env s rfl rfl rfl

/-- A step that acknowledges nothing comes to its renders with the intent that was there. -/
theorem renders_of_no_gesture {s : Globals} {e : Event} (h : gesture s e = none) :
    Renders e.env (perform e.env s e.act).shown s.gIntent (rendered s e)
      (perform e.env s e.act).gIntent := by
  have hrenders := intent_perform s e
  rw [toldIntent, h] at hrenders
  exact hrenders

end Casquinha.App
