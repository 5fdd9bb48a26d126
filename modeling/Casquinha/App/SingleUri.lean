import Casquinha.App.Escape
import Casquinha.App.StoredUri

/-!
# A single uri on the wire (`PlayItem`, `QueueSelected`, the replay of `AdoptReply`)

The uri of a row is escaped into 128 bytes and printed into a selector that is large enough for it; the
replay has copied it into 128 bytes before. Neither buffer reports a cut. What a server reads back is
the uri as a whole if and only if its escape fits (`decoded_iff`), and so it is in a run: every single
uri that is sent is whole if and only if every one of them fits (`single_uri_whole_iff`). The replay
sends the uri of the click that stored it, which a run remembers (`Remembers`).
-/

set_option autoImplicit false

namespace Casquinha.App

open Lib Wire

/-! ## Selectors of a single uri -/

/-- The escape of the uri fits in `euri[128]`. -/
def FitsEscape (uri : CStr) : Prop :=
  uri.bytes = [] ∨ (uri.bytes.dropLast.flatMap (escByte true)).length + 3 < 128

instance (uri : CStr) : Decidable (FitsEscape uri) := inferInstanceAs (Decidable (_ ∨ _))

/-- The path of `PlayItem` and of the replay. -/
def playPath : CStr := .lit "/spot/play?uri="

/-- The path of `QueueSelected` for a track. -/
def queuePath : CStr := .lit "/spot/api/1/queue/add?"

/-- The selector that queues a single uri. -/
def queueAddSel (uri : CStr) : CStr := (queuePath ++ escInto uri 128 true).fit 192

/-- The uri that a server reads from a selector of a single uri. -/
def uriArg (sel : CStr) : Option Bytes :=
  if playPath.bytes.isPrefixOf sel.bytes then some (percentDecode (sel.bytes.drop 15))
  else if queuePath.bytes.isPrefixOf sel.bytes then some (percentDecode (sel.bytes.drop 22))
  else none

/-- What is read back is the uri exactly when its escape fits. -/
theorem decoded_iff (uri : CStr) :
    percentDecode (escInto uri 128 true).bytes = uri.bytes ↔ FitsEscape uri := by
  rw [percentDecode_escInto, PercentCode.fitting_eq_self_iff, Nat.zero_add]
  rfl

/-- A uri whose escape fits is within `gFallbackUri[128]`. -/
theorem fit_of_fitsEscape {uri : CStr} (h : FitsEscape uri) : uri.fit 128 = uri := by
  apply CStr.fit_eq_self
  rcases h with h | h
  · rw [CStr.length, h]
    decide
  · have grows : uri.bytes.dropLast.length ≤ (uri.bytes.dropLast.flatMap (escByte true)).length :=
      (escCode true).length_le_write uri.bytes.dropLast
    rw [List.length_dropLast] at grows
    rw [CStr.length]
    omega

/-- Nor does the copy of the uri lose more. -/
theorem decoded_fit_iff (uri : CStr) :
    percentDecode (escInto (uri.fit 128) 128 true).bytes = uri.bytes ↔ FitsEscape uri := by
  constructor
  · intro h
    have part : uri.bytes <+: (uri.fit 128).bytes := by
      rw [← h, percentDecode_escInto]
      exact (escCode true).fitting_isPrefix 128 0 _
    have whole : uri.fit 128 = uri := by
      have length_le := part.length_le
      refine CStr.fit_eq_self ?_
      rw [CStr.fit, List.length_take] at length_le
      rw [CStr.length]
      omega
    rw [whole] at h
    exact (decoded_iff uri).1 h
  · intro h
    rw [fit_of_fitsEscape h]
    exact (decoded_iff uri).2 h

/-- The selectors hold every escape. -/
theorem fit_sel {path : CStr} {size : Nat} (uri : CStr) (room : path.length + 127 < size) :
    (path ++ escInto uri 128 true).fit size = path ++ escInto uri 128 true := by
  have short := length_escInto_lt uri true (by decide : 1 ≤ 128)
  apply CStr.fit_eq_self
  rw [CStr.length, CStr.bytes_append, List.length_append]
  have : path.bytes.length = path.length := rfl
  have : (escInto uri 128 true).bytes.length = (escInto uri 128 true).length := rfl
  omega

theorem isPrefixOf_path (path arg : CStr) : path.bytes.isPrefixOf (path ++ arg).bytes = true := by
  rw [List.isPrefixOf_iff_prefix]
  exact List.prefix_append _ _

theorem drop_path {path : CStr} {n : Nat} (length_eq : path.bytes.length = n) (arg : CStr) :
    (path ++ arg).bytes.drop n = arg.bytes := by
  rw [CStr.bytes_append, ← length_eq, List.drop_left]

theorem uriArg_play (arg : CStr) : uriArg (playPath ++ arg) = some (percentDecode arg.bytes) := by
  have length_eq : playPath.bytes.length = 15 := by decide
  rw [uriArg, if_pos (isPrefixOf_path playPath arg), drop_path length_eq]

theorem uriArg_queue (arg : CStr) : uriArg (queuePath ++ arg) = some (percentDecode arg.bytes) := by
  have length_eq : queuePath.bytes.length = 22 := by decide
  have other : ¬ playPath.bytes.isPrefixOf (queuePath ++ arg).bytes = true := by
    rw [List.isPrefixOf_iff_prefix, List.prefix_iff_eq_take, CStr.bytes_append,
      List.take_append_of_le_length (by decide)]
    decide
  rw [uriArg, if_neg other, if_pos (isPrefixOf_path queuePath arg), drop_path length_eq]

/-- `PlayItem` and the replay differ in the size of the selector, which is enough in both. -/
theorem uriArg_fit_play (uri : CStr) {size : Nat} (room : playPath.length + 127 < size) :
    uriArg ((playPath ++ escInto uri 128 true).fit size) =
      some (percentDecode (escInto uri 128 true).bytes) := by
  rw [fit_sel uri room, uriArg_play]

theorem uriArg_playItemSel (uri : CStr) :
    uriArg (playItemSel uri) = some (percentDecode (escInto uri 128 true).bytes) :=
  uriArg_fit_play uri (by decide)

theorem uriArg_fallbackSel (uri : CStr) :
    uriArg (fallbackSel uri) = some (percentDecode (escInto uri 128 true).bytes) :=
  uriArg_fit_play uri (by decide)

theorem uriArg_queueAddSel (uri : CStr) :
    uriArg (queueAddSel uri) = some (percentDecode (escInto uri 128 true).bytes) := by
  rw [queueAddSel, fit_sel uri (by decide), uriArg_queue]

/-! ## What a step sends -/

/-- The call of `PlayFrom` that a step makes, with the watchdog's in the reply of a command, which can
only come to `PlayItem`. -/
def rowCall (s : Globals) (e : Event) : Option PlayCall :=
  match e.act with
  | .pumpCmd => (delivered s e).bind (replyCall s)
  | _ => playCall s e

/-- The uri of the row that a call names. -/
def PlayCall.uri (call : PlayCall) : Option CStr := call.items.items[call.row]?.map CqTrackItem.uri

/-- The step replays the stored uri: the error of an old server. -/
def replays (s : Globals) (e : Event) : Bool :=
  match e.act with
  | .pumpCmd =>
      match (delivered s e).bind replyError with
      | some err => err ≠ .lit "rate_limited" && takesFallback s true err
      | none => false
  | _ => false

/-- The complete uri of the row that a step is about: the row that is played or queued, or the row that
was clicked when the uri was stored. -/
def namedUri (clicked : Option CStr) (s : Globals) (e : Event) : Option CStr :=
  match e.act with
  | .queueSelected row =>
      match resultKindAt s row with
      | .track i => s.gSearchItems.items[i]?.map CqTrackItem.uri
      | .artist _ | .album _ | .back | .none => none
  | _ => if replays s e then clicked else (rowCall s e).bind PlayCall.uri

/-- What a step starts for a single uri is read back as that uri. -/
def SendsWhole (y : Clicked) (e : Event) : Prop :=
  ∀ tx ∈ startedOn Globals.gFire y.state e, ∀ uri, namedUri y.log y.state e = some uri →
    uriArg tx.selector = some uri.bytes

/-- What a step starts for a single uri is started for one whose escape fits. -/
def SendsFitting (y : Clicked) (e : Event) : Prop :=
  ∀ tx ∈ startedOn Globals.gFire y.state e, ∀ uri, namedUri y.log y.state e = some uri →
    FitsEscape uri

/-! ## The fire of a step -/

/-- From `f` to `f'` the fire stays, is put down, or is started with the selector `sel`. -/
def FiresFor (sel : Option CStr) (f f' : Option Tx) : Prop :=
  f' = f ∨ f' = none ∨ ∃ tx, f' = some tx ∧ sel = some tx.selector

theorem firesFor_refl (sel : Option CStr) (f : Option Tx) : FiresFor sel f f := .inl rfl

theorem fires_startFire (env : Env) (s : Globals) (sel : CStr) :
    FiresFor (some sel) s.gFire (startFire env s sel).gFire := by
  rw [fire_startFire]
  split
  · rw [cqTxNew]
    split
    · exact .inr (.inr ⟨_, rfl, rfl⟩)
    · exact .inr (.inl rfl)
  · exact .inl rfl

theorem fires_playItem (env : Env) (s : Globals) (items : CqTrackList) (row : Nat) :
    FiresFor ((items.items[row]?.map CqTrackItem.uri).map playItemSel) s.gFire
      (playItem env s items row).gFire := by
  rw [playItem]
  cases items.items[row]? with
  | none => exact firesFor_refl _ _
  | some item => exact fires_startFire env s (playItemSel item.uri)

/-- `PlayFrom` fires only through `PlayItem`. -/
theorem fires_playFrom (env : Env) (s : Globals) (call : PlayCall) :
    FiresFor (call.uri.map playItemSel) s.gFire
      (playFrom env s call.items call.row call.cont).gFire := by
  have single := fires_playItem env s call.items call.row
  rw [PlayCall.uri, playFrom]
  cases hitem : call.items.items[call.row]? with
  | none => exact firesFor_refl _ _
  | some item =>
      rw [hitem] at single
      dsimp only
      split
      · exact single
      · split
        · exact firesFor_refl _ _
        · split
          · exact single
          · split
            · exact single
            · exact .inl (frame_storeAndStart env s _ _).1

theorem fires_watchdog (env : Env) (s : Globals) (n : CqNow) :
    FiresFor (((watchdogCall s n).bind PlayCall.uri).map playItemSel) s.gFire
      (watchdog env s n).gFire := by
  rw [watchdog, watchdogCall]
  split
  · cases queueNextRow s with
    | none => exact firesFor_refl _ _
    | some row =>
        exact fires_playFrom env { s with shown := { s.shown with gAutoNexted := true } }
          ⟨s.gQueueItems, row, none⟩
  · split <;> exact firesFor_refl _ _

theorem watchdogCall_adopting (s : Globals) (isCmd : Bool) (n : CqNow) :
    watchdogCall (adopting s isCmd n) n = watchdogCall s n := by
  obtain ⟨-, -, -, -, -, hitems, hrow, hended⟩ :=
    adopting_frame ⟨0, fun _ => false, fun _ => .running, fun _ => false⟩ s isCmd n
  rw [watchdogCall, watchdogCall, hitems, hrow, hended]

/-- A reply without an error fires what its watchdog fires. -/
theorem fires_adoptReply (env : Env) (s : Globals) {data : Bytes} (isCmd : Bool)
    (healthy : replyError data = none) :
    FiresFor (((replyCall s data).bind PlayCall.uri).map playItemSel) s.gFire
      (adoptReply env s data isCmd).gFire := by
  have hreply : healthyReply data = some (cqNowFromFields (replyFields data)) := by
    rw [healthyReply, healthy]
  rw [replyCall, hreply]
  dsimp only
  by_cases accept : (cqGuardAcceptTs s.shown.gGuard (cqNowFromFields (replyFields data)).ts).1 = true
  · have fires := fires_watchdog env (adopting s isCmd (cqNowFromFields (replyFields data)))
      (cqNowFromFields (replyFields data))
    have frame := adopting_frame env s isCmd (cqNowFromFields (replyFields data))
    rw [watchdogCall_adopting, frame.1] at fires
    rw [adoptReply_of_adopts isCmd hreply accept, fire_redraw, (adoptSnapshot_plays env _ _).1,
      if_pos accept]
    exact fires
  · have kept : (adoptReply env s data isCmd).gFire = s.gFire := by
      have guard : (answerProbe { s with gOnline := true } isCmd).shown.gGuard = s.shown.gGuard := by
        rw [shown_answerProbe]
      have fire : (answerProbe { s with gOnline := true } isCmd).gFire = s.gFire := by
        rw [answerProbe]
        split <;> rfl
      simp only [adoptReply, fire_redraw, healthy, adoptHealthy, guard, if_neg accept, fire]
    exact .inl kept

/-- The selector that a step starts for its single uri. -/
def namedSel (s : Globals) (e : Event) : Option CStr :=
  match e.act with
  | .queueSelected row =>
      match resultKindAt s row with
      | .track i => (s.gSearchItems.items[i]?.map CqTrackItem.uri).map queueAddSel
      | .artist _ | .album _ | .back | .none => none
  | _ =>
      if replays s e then some (fallbackSel s.probe.gFallbackUri)
      else ((rowCall s e).bind PlayCall.uri).map playItemSel

theorem fires_pumpCmd (env : Env) (s : Globals) :
    FiresFor (namedSel s ⟨env, .pumpCmd⟩) s.gFire (pumpCmd env s).gFire := by
  rw [pumpCmd]
  cases hcmd : s.probe.gCmd with
  | none => exact firesFor_refl _ _
  | some tx =>
      dsimp only
      cases hpoll : env.poll tx.id with
      | running => exact firesFor_refl _ _
      | failed message =>
          dsimp only
          rw [fire_redraw]
          exact firesFor_refl _ _
      | done data =>
          have heard : delivered s ⟨env, .pumpCmd⟩ = some data := by
            simp only [delivered, hcmd, Option.bind_some, hpoll, TxPoll.reply]
          simp only [namedSel, rowCall, replays, heard, Option.bind_some]
          cases herror : replyError data with
          | none =>
              simp only [Bool.false_eq_true, if_false]
              exact fires_adoptReply env s true herror
          | some err =>
              simp only [adoptReply, herror, fire_redraw, adoptError]
              by_cases busy : err = .lit "rate_limited"
              · rw [if_pos busy]
                exact firesFor_refl _ _
              · rw [if_neg busy]
                have same : takesFallback { s with gOnline := true } true err =
                    takesFallback s true err := rfl
                rw [same]
                by_cases takes : takesFallback s true err = true
                · rw [if_pos takes]
                  simp only [takes, busy, ne_eq, not_false_eq_true, decide_true, Bool.and_true, if_true]
                  exact fires_startFire env _ _
                · rw [if_neg takes]
                  exact firesFor_refl _ _

theorem fires_pollNow (env : Env) (s : Globals) :
    FiresFor (namedSel s ⟨env, .pollNow⟩) s.gFire (pollNow env s).gFire := by
  rw [pollNow, pumpPoll]
  simp only [namedSel, replays, rowCall, playCall, Bool.false_eq_true, if_false]
  cases s.gTx with
  | none =>
      have kept : (startPoll env s).gFire = s.gFire := by
        rw [startPoll]
        split <;> rfl
      rw [if_neg (by simp), kept]
      exact firesFor_refl _ _
  | some tx =>
      simp only [Option.isSome_some, if_true, Option.bind_some]
      cases env.poll tx.id with
      | running => exact firesFor_refl _ _
      | failed message =>
          dsimp only
          rw [fire_redraw]
          exact firesFor_refl _ _
      | done data =>
          cases herror : replyError data with
          | none => exact fires_adoptReply env s false herror
          | some err =>
              have kept : (adoptReply env s data false).gFire = s.gFire := by
                simp only [adoptReply, fire_redraw, herror, adoptError, takesFallback, Bool.false_and,
                  Bool.false_eq_true, if_false]
                split <;> rfl
              exact .inl kept

theorem fires_pumpQueue (env : Env) (s : Globals) :
    FiresFor (namedSel s ⟨env, .pumpQueue⟩) s.gFire (pumpQueue env s).gFire := by
  simp only [namedSel, replays, rowCall, Bool.false_eq_true, if_false]
  rcases pumpQueue_cases env s with ⟨fresh, hcall, hplayed⟩ | ⟨hcall, hquiet⟩
  · rw [hcall, hplayed]
    exact fires_playFrom env (readied env s fresh) ⟨fresh, 0, none⟩
  · rw [hcall, hquiet]
    exact firesFor_refl _ _

theorem fires_nextCommand (env : Env) (s : Globals) :
    FiresFor (namedSel s ⟨env, .clickNext⟩) s.gFire (nextCommand env s).gFire := by
  have hrow : nextRow (setIntent env s .skip) = nextRow s := rfl
  simp only [namedSel, replays, rowCall, playCall, Bool.false_eq_true, if_false, nextCommand, hrow]
  cases nextRow s with
  | none => exact firesFor_refl _ _
  | some row => exact fires_playFrom env (setIntent env s .skip) ⟨s.gQueueItems, row, none⟩

theorem fires_queueSelected (env : Env) (s : Globals) {row i : Nat} {item : CqTrackItem}
    (hkind : resultKindAt s row = .track i) (hitem : s.gSearchItems.items[i]? = some item) :
    FiresFor (namedSel s ⟨env, .queueSelected row⟩) s.gFire (queueSelected env s row).gFire := by
  simp only [namedSel, queueSelected, hkind, hitem]
  exact fires_startFire env s (queueAddSel item.uri)

/-- **A step that is about a single uri fires for it**, or not at all. -/
theorem fires_perform {clicked : Option CStr} {s : Globals} {e : Event} {uri : CStr}
    (h : namedUri clicked s e = some uri) :
    FiresFor (namedSel s e) s.gFire (perform e.env s e.act).gFire := by
  obtain ⟨env, act⟩ := e
  cases act with
  | pumpCmd => exact fires_pumpCmd env s
  | pollNow => exact fires_pollNow env s
  | pumpQueue => exact fires_pumpQueue env s
  | clickNext => exact fires_nextCommand env s
  | clickQueue row => exact fires_playFrom env s ⟨s.gQueueItems, row, none⟩
  | clickResult row =>
      simp only [namedUri, namedSel, replays, rowCall, playCall, Bool.false_eq_true, if_false] at h ⊢
      simp only [perform, clickResult]
      cases hkind : resultKindAt s row with
      | track i => exact fires_playFrom env s ⟨s.gSearchItems, i, some s.gQueueItems⟩
      -- the other kinds of row have no uri of their own
      | _ =>
          rw [hkind] at h
          cases h
  | queueSelected row =>
      simp only [namedUri] at h
      cases hkind : resultKindAt s row with
      | track i =>
          rw [hkind] at h
          obtain ⟨item, hitem, -⟩ := Option.map_eq_some_iff.1 h
          exact fires_queueSelected env s hkind hitem
      -- the other kinds of row have no uri of their own
      | _ =>
          rw [hkind] at h
          cases h
  -- the others name no uri
  | _ => cases h

/-! ## Whole uris -/

/-- A replay has a uri to replay. -/
theorem stored_of_replays {s : Globals} {e : Event} (h : replays s e = true) :
    s.probe.gFallbackUri.bytes ≠ [] := by
  obtain ⟨env, act⟩ := e
  cases act with
  | pumpCmd =>
      simp only [replays] at h
      split at h
      · simp only [takesFallback, Bool.and_eq_true, decide_eq_true_eq] at h
        exact h.2.2
      · cases h
  | _ => cases h

/-- A step that is not `QueueSelected` names the uri of a replay or of a call of `PlayFrom`. -/
theorem named_of_not_queued {clicked : Option CStr} {s : Globals} {e : Event}
    (h : ∀ row, e.act ≠ .queueSelected row) :
    namedUri clicked s e = (if replays s e then clicked else (rowCall s e).bind PlayCall.uri) ∧
      namedSel s e =
        if replays s e then some (fallbackSel s.probe.gFallbackUri)
        else ((rowCall s e).bind PlayCall.uri).map playItemSel := by
  obtain ⟨env, act⟩ := e
  cases act with
  | queueSelected row => exact absurd rfl (h row)
  | _ => exact ⟨rfl, rfl⟩

/-- What is read back from a selector with the escape of a text. -/
theorem uriArg_eq_iff {sel text uri : CStr}
    (hread : uriArg sel = some (percentDecode (escInto text 128 true).bytes))
    (hiff : percentDecode (escInto text 128 true).bytes = uri.bytes ↔ FitsEscape uri) :
    uriArg sel = some uri.bytes ↔ FitsEscape uri := by
  rw [hread, Option.some.injEq, hiff]

/-- The selector of a step that names a uri. -/
theorem namedSel_of_namedUri {y : Clicked} {e : Event} {uri sel : CStr} (hrem : Remembers y)
    (huri : namedUri y.log y.state e = some uri) (hsel : namedSel y.state e = some sel) :
    uriArg sel = some uri.bytes ↔ FitsEscape uri := by
  by_cases queued : ∃ row, e.act = .queueSelected row
  · obtain ⟨row, hact⟩ := queued
    simp only [namedUri, namedSel, hact] at huri hsel
    cases hkind : resultKindAt y.state row with
    | track i =>
        simp only [hkind] at huri hsel
        rw [huri, Option.map_some, Option.some.injEq] at hsel
        subst hsel
        exact uriArg_eq_iff (uriArg_queueAddSel uri) (decoded_iff uri)
    | _ =>
        rw [hkind] at huri
        cases huri
  · have named := @named_of_not_queued y.log y.state e fun row h => queued ⟨row, h⟩
    rw [named.1] at huri
    rw [named.2] at hsel
    by_cases again : replays y.state e = true
    · -- the replay: the uri that was clicked, copied once more
      obtain ⟨clicked, hlog, hcopy⟩ := hrem (stored_of_replays again)
      rw [if_pos again, hlog, Option.some.injEq] at huri
      rw [if_pos again, hcopy, Option.some.injEq] at hsel
      subst huri
      subst hsel
      exact uriArg_eq_iff (uriArg_fallbackSel _) (decoded_fit_iff _)
    · rw [if_neg again] at huri hsel
      rw [huri, Option.map_some, Option.some.injEq] at hsel
      subst hsel
      exact uriArg_eq_iff (uriArg_playItemSel uri) (decoded_iff uri)

/-- **A step sends whole uris if and only if they fit.** -/
theorem sendsWhole_iff {y : Clicked} (hrem : Remembers y) (e : Event) :
    SendsWhole y e ↔ SendsFitting y e := by
  have each : ∀ tx ∈ startedOn Globals.gFire y.state e, ∀ uri,
      namedUri y.log y.state e = some uri →
        (uriArg tx.selector = some uri.bytes ↔ FitsEscape uri) := by
    intro tx htx uri huri
    obtain ⟨hfire, moved⟩ := of_mem_startedOn htx
    rcases fires_perform huri with same | gone | ⟨tx', hfire', hsel⟩
    · exact absurd same moved
    · rw [gone] at hfire
      cases hfire
    · rw [hfire] at hfire'
      cases hfire'
      exact namedSel_of_namedUri hrem huri hsel
  exact forall₄_congr fun tx htx uri huri => each tx htx uri huri

/-- **A single uri is sent whole**, by `PlayItem`, `QueueSelected` and the replay, in every step of a run,
if and only if the escape of every uri that the run sends alone fits in 128 bytes. -/
theorem single_uri_whole_iff (host : CStr) (port : Nat) (autoStart qtOk : Bool)
    (events : List Event) :
    Meets (traced step noteClick) SendsWhole (unclicked host port autoStart qtOk) events ↔
      Meets (traced step noteClick) SendsFitting (unclicked host port autoStart qtOk) events := by
  have nothing_stored : Remembers (unclicked host port autoStart qtOk) := fun h => absurd rfl h
  refine meets_congr_of_inv Remembers ?_ ?_ nothing_stored
  · intro y e z hy hz
    exact hy.step hz
  · intro y e hy
    exact sendsWhole_iff hy e

/-! ## A local file -/

/-- The uri of a local file: short enough for every buffer as it is, too long when it is escaped. -/
def localUri : CStr := .lit "spotify:local:Ana+e+Bia:Ao+vivo+na+rua+das+flores:1+2+3+4+5+6+7+8+9+10+11+12+13+14:215"

/-- A search finds the file. -/
def fileFound : List Event :=
  [⟨worldAt 1000 .running, .runSearch (.lit "bia")⟩,
    ⟨worldAt 1060 (.done (ascii "item.0.uri\t" ++ localUri.bytes ++ ascii "\n")), .pumpSearch⟩]

/-- The file is queued. -/
def queueFile : Event := ⟨worldAt 1200 .running, .queueSelected 0⟩

/-- What is started for the file, as a server reads it, and the uri it was started for. -/
def fileSent : Option (List (Option Bytes) × Option CStr) :=
  (run (traced step noteClick) (unclicked (.lit "192.0.2.10") 70 false false) fileFound).map fun y =>
    ((startedOn Globals.gFire y.state queueFile).map fun tx => uriArg tx.selector,
      namedUri y.log y.state queueFile)

/-- **A long uri is cut.** The file is queued under the beginning of its uri. -/
theorem long_uri_is_cut :
    fileSent = some ([some (localUri.bytes.take 85)], some localUri) ∧
      ¬ Meets (traced step noteClick) SendsWhole (unclicked (.lit "192.0.2.10") 70 false false)
        (fileFound ++ [queueFile]) := by
  have sent : fileSent = some ([some (localUri.bytes.take 85)], some localUri) := by decide +kernel
  refine ⟨sent, fun whole => ?_⟩
  obtain ⟨y, hy, hsent⟩ := Option.map_eq_some_iff.1 sent
  obtain ⟨-, ⟨here, -⟩⟩ := (meets_append hy).1 whole
  simp only [Prod.mk.injEq] at hsent
  obtain ⟨tx, htx, hread⟩ := List.map_eq_singleton_iff.1 hsent.1
  have read := here tx (by simp [htx]) localUri hsent.2
  rw [hread] at read
  exact absurd read (by decide +kernel)

end Casquinha.App
