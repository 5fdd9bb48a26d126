import Casquinha.App.Adoption

/-!
# The play/from probe

`PlayFrom` stores the clicked uri in `gFallbackUri` before it starts its command, and a reply to any
command is taken for the answer to the probe while the uri is there. This attributes a reply to the
right command as long as the uri is there only while that command is in flight (`FallbackOwned`).

What a step needs to keep it that way is `Clean`, and `Clean` is exactly that
(`owned_perform_iff`): so a run attributes every reply to the right command if and only if its steps
are clean (`playFrom_attribution`). The source has steps that are not: a swallowed repeat and a failed
allocation leave the uri behind, and so do a failed transaction, an error other than `not_found`, and a
server change (`stale_fallback_replays`).
-/

set_option autoImplicit false

namespace Casquinha.App

open Lib Wire

/-- A stored uri belongs to the command in flight: the one that the call which stored it started. -/
def FallbackOwned (p : Probe) : Prop :=
  p.gFallbackUri.bytes ≠ [] → ∃ tx, p.gCmd = some tx ∧ p.storedBy = some tx.id

theorem owned_of_no_uri {p : Probe} (huri : p.gFallbackUri.bytes = []) : FallbackOwned p :=
  fun h => absurd huri h

/-- Without a command in flight nothing may be stored. -/
theorem owned_iff_of_free {p : Probe} (hfree : p.gCmd = none) :
    FallbackOwned p ↔ p.gFallbackUri.bytes = [] := by
  constructor
  · intro h
    by_contra huri
    obtain ⟨tx, hcmd, -⟩ := h huri
    rw [hfree] at hcmd
    cases hcmd
  · exact owned_of_no_uri

/-- A uri was stored, and the call that stored it has started no command. -/
structure LeftBehind (p : Probe) : Prop where
  uri : p.gFallbackUri.bytes ≠ []
  unowned : p.storedBy = none

theorem LeftBehind.not_owned {p : Probe} (h : LeftBehind p) : ¬ FallbackOwned p := by
  intro howned
  obtain ⟨tx, -, htx⟩ := howned h.uri
  rw [h.unowned] at htx
  cases htx

/-- The condition `c` decides what becomes of a stored uri. -/
def Decides (c : Prop) (p : Probe) : Prop := (c ∧ FallbackOwned p) ∨ (¬ c ∧ LeftBehind p)

theorem Decides.owned_iff {c : Prop} {p : Probe} (h : Decides c p) : FallbackOwned p ↔ c := by
  rcases h with ⟨hc, howned⟩ | ⟨hc, hleft⟩
  · exact iff_of_true howned hc
  · exact iff_of_false hleft.not_owned hc

theorem Decides.congr {c d : Prop} {p : Probe} (h : Decides c p) (hcd : c ↔ d) : Decides d p := by
  rwa [← propext hcd]

/-! ## Starting a command -/

/-- Starting a command leaves the stored uri alone, and a command in flight. -/
theorem probe_startCommand (env : Env) (s : Globals) (sel : CStr) :
    (startCommand env s sel).probe.gFallbackUri = s.probe.gFallbackUri ∧
      (startCommand env s sel).probe.storedBy = s.probe.storedBy ∧
      (s.probe.gCmd.isSome → (startCommand env s sel).probe = s.probe) := by
  rw [startCommand]
  cases s.probe.gCmd with
  | some tx => exact ⟨rfl, rfl, fun _ => rfl⟩
  | none => exact ⟨rfl, rfl, fun h => by cases h⟩

/-- Starting another command does not take the uri from the command in flight. -/
theorem owned_startCommand {env : Env} {s : Globals} {sel : CStr} (h : FallbackOwned s.probe) :
    FallbackOwned (startCommand env s sel).probe := by
  obtain ⟨huri, -, hkeep⟩ := probe_startCommand env s sel
  intro hne
  rw [huri] at hne
  obtain ⟨tx, hcmd, hstored⟩ := h hne
  rw [hkeep (by rw [hcmd]; rfl)]
  exact ⟨tx, hcmd, hstored⟩

/-- A uri left behind stays behind when another command is started. -/
theorem Decides.startCommand {c : Prop} {s : Globals} (h : Decides c s.probe) (env : Env)
    (sel : CStr) : Decides c (startCommand env s sel).probe := by
  rcases h with ⟨hc, howned⟩ | ⟨hc, hleft⟩
  · exact Or.inl ⟨hc, owned_startCommand howned⟩
  · obtain ⟨huri, hstored, -⟩ := probe_startCommand env s sel
    exact Or.inr ⟨hc, by rw [huri]; exact hleft.uri, by rw [hstored]; exact hleft.unowned⟩

/-! ## A call of `PlayFrom` -/

/-- The arguments of a `PlayFrom` call. -/
structure PlayCall where
  items : CqTrackList
  row : Nat
  cont : Option CqTrackList

/-- The uri and the selector of a call that gets as far as storing its uri. -/
def PlayCall.stores (s : Globals) (call : PlayCall) : Option (CStr × CStr) :=
  match call.items.items[call.row]? with
  | none => none
  | some item =>
      if s.probe.gNativePlay = .notFound ∨ s.probe.gCmd.isSome then none
      else
        match afterLastColon item.uri with
        | none => none
        | some id =>
            if id.bytes = [] then none
            else some (item.uri, playFromSel id (continuation call.items call.row call.cont))

/-- A call that stores its uri is not swallowed as a repeat, and its transaction is allocated. -/
def CallClean (env : Env) (s : Globals) (call : PlayCall) : Prop :=
  ∀ uri sel, call.stores s = some (uri, sel) →
    isRepeat env s sel = false ∧ env.alloc s.nextTx = true

theorem fit_ne_nil_of_afterLastColon {uri id : CStr} (h : afterLastColon uri = some id) :
    (uri.fit 128).bytes ≠ [] := by
  rw [afterLastColon] at h
  split at h
  · next hmem =>
    cases hbytes : uri.bytes with
    | nil => simp [hbytes] at hmem
    | cons c b => simp [CStr.fit, hbytes]
  · cases h

/-- A call that stores nothing leaves the probe alone. -/
theorem probe_playFrom_of_no_store (env : Env) (s : Globals) (call : PlayCall)
    (h : call.stores s = none) :
    (playFrom env s call.items call.row call.cont).probe = s.probe := by
  rw [PlayCall.stores] at h
  rw [playFrom]
  cases hitem : call.items.items[call.row]? with
  | none => rfl
  | some item =>
      simp only [hitem] at h ⊢
      by_cases hold : s.probe.gNativePlay = .notFound
      · rw [if_pos hold]
        exact (aside_playItem _ _ _ _).probe
      · -- a busy command slot drops the click, else only a row with an id stores
        by_cases hbusy : s.probe.gCmd.isSome
        · rw [if_neg hold, if_pos hbusy]
        · rw [if_neg (by simp [hold, hbusy])] at h
          rw [if_neg hold, if_neg hbusy]
          cases hid : afterLastColon item.uri with
          | none => exact (aside_playItem _ _ _ _).probe
          | some id =>
              simp only [hid] at h ⊢
              by_cases hnil : id.bytes = []
              · rw [if_pos hnil]
                exact (aside_playItem _ _ _ _).probe
              · rw [if_neg hnil] at h
                cases h

/-- A call that stores its uri. -/
theorem playFrom_of_stores (env : Env) {s : Globals} {call : PlayCall} {uri sel : CStr}
    (h : call.stores s = some (uri, sel)) :
    playFrom env s call.items call.row call.cont = storeAndStart env s uri sel ∧
      s.probe.gCmd = none ∧ (uri.fit 128).bytes ≠ [] := by
  rw [PlayCall.stores] at h
  rw [playFrom]
  cases hitem : call.items.items[call.row]? with
  | none =>
      rw [hitem] at h
      cases h
  | some item =>
      simp only [hitem] at h ⊢
      -- the conditions of the source, one after the other
      by_cases hfree : s.probe.gNativePlay = .notFound ∨ s.probe.gCmd.isSome
      · rw [if_pos hfree] at h
        cases h
      · rw [if_neg hfree] at h
        rw [not_or] at hfree
        rw [if_neg hfree.1, if_neg hfree.2]
        cases hid : afterLastColon item.uri with
        | none =>
            rw [hid] at h
            cases h
        | some id =>
            simp only [hid] at h ⊢
            by_cases hnil : id.bytes = []
            · rw [if_pos hnil] at h
              cases h
            · rw [if_neg hnil] at h
              simp only [Option.some.injEq, Prod.mk.injEq] at h
              obtain ⟨rfl, rfl⟩ := h
              rw [if_neg hnil]
              exact ⟨rfl, by simpa using hfree.2, fit_ne_nil_of_afterLastColon hid⟩

/-- **Storing and starting.** The uri is owned if the action is no repeat and the transaction is
allocated; otherwise it is left behind. -/
theorem decides_storeAndStart (env : Env) (s : Globals) (uri sel : CStr)
    (hfree : s.probe.gCmd = none) (hne : (uri.fit 128).bytes ≠ []) :
    Decides (isRepeat env s sel = false ∧ env.alloc s.nextTx = true)
      (storeAndStart env s uri sel).probe := by
  rcases storeAndStart_cases env s uri sel with ⟨hrep, h⟩ | ⟨hrep, t, rfl, h⟩
  · -- a repeat: the uri is stored, and no command goes out to own it
    right
    rw [h]
    exact ⟨by simp [hrep], hne, rfl⟩
  · -- no repeat: it is owned if the command can be allocated
    rw [h]
    simp only [startCommand, hfree]
    cases halloc : env.alloc s.nextTx with
    | true =>
        left
        refine ⟨⟨hrep, rfl⟩, fun _ => ⟨⟨s.nextTx, s.gHost, s.gPort, sel⟩, ?_⟩⟩
        simp [cqTxNew, halloc]
    | false =>
        right
        refine ⟨by simp, hne, ?_⟩
        simp [cqTxNew, halloc]

/-- **What a call needs**: it keeps the ownership if and only if it is clean. One that is not leaves a
uri behind. -/
theorem decides_playFrom (env : Env) (s : Globals) (call : PlayCall) (h : FallbackOwned s.probe) :
    Decides (CallClean env s call) (playFrom env s call.items call.row call.cont).probe := by
  cases hstores : call.stores s with
  | none =>
      left
      rw [probe_playFrom_of_no_store env s call hstores]
      refine ⟨?_, h⟩
      intro uri sel h'
      rw [hstores] at h'
      cases h'
  | some pair =>
      obtain ⟨uri, sel⟩ := pair
      obtain ⟨heq, hfree, hne⟩ := playFrom_of_stores env hstores
      rw [heq]
      refine (decides_storeAndStart env s uri sel hfree hne).congr ⟨fun hc => ?_, fun hc => ?_⟩
      · intro uri' sel' h'
        rw [hstores] at h'
        cases h'
        exact hc
      · exact hc uri sel hstores

/-! ## Replies -/

/-- The call that the watchdog makes on an adopted snapshot. -/
def watchdogCall (s : Globals) (tmp : CqNow) : Option PlayCall :=
  if trackEnded s.shown tmp then (queueNextRow s).map fun row => ⟨s.gQueueItems, row, none⟩
  else none

/-- The call that a poll's reply makes. -/
def replyCall (s : Globals) (data : Bytes) : Option PlayCall :=
  match healthyReply data with
  | none => none
  | some n => if (cqGuardAcceptTs s.shown.gGuard n.ts).1 then watchdogCall s n else none

/-- What an optional call needs. -/
def CallsClean (env : Env) (s : Globals) (call : Option PlayCall) : Prop :=
  ∀ c, call = some c → CallClean env s c

theorem callsClean_none (env : Env) (s : Globals) : CallsClean env s none := fun _ h => by cases h

theorem callsClean_some {env : Env} {s : Globals} {call : PlayCall} :
    CallsClean env s (some call) ↔ CallClean env s call :=
  ⟨fun h => h call rfl, fun h c hc => by cases hc; exact h⟩

theorem probe_kickQueue (env : Env) (s : Globals) (tmp : CqNow) :
    (kickQueue env s tmp).probe = s.probe := by
  rw [kickQueue]
  split <;> rfl

theorem probe_settleVolume (s : Globals) (held : Bool) (keepVol : Int) :
    (settleVolume s held keepVol).probe = s.probe := by
  rw [settleVolume]
  split <;> rfl

theorem probe_dropPending (s : Globals) : (dropPending s).probe = s.probe := by
  rw [dropPending]
  split <;> rfl

theorem probe_redraw (env : Env) (s : Globals) : (redraw env s).probe = s.probe :=
  ((Aside.refl s).redraw env).probe

/-- The auto-start may start a command, no more. -/
theorem decides_autoWake {c : Prop} {s : Globals} (h : Decides c s.probe) (env : Env) :
    Decides c (autoWake env s).probe := by
  simp only [autoWake]
  split
  · split
    · split
      · exact h
      · exact Decides.startCommand (s := setIntent env { s with gAutoWoke := true } .play) h env _
      · exact h
    · exact Decides.startCommand (s := setIntent env { s with gAutoWoke := true } .play) h env _
  · exact h

/-- What follows the watchdog in an adoption. -/
theorem decides_adoptSnapshot {c : Prop} {env : Env} {s : Globals} {tmp : CqNow}
    (h : Decides c (watchdog env s tmp).probe) : Decides c (adoptSnapshot env s tmp).probe := by
  simp only [adoptSnapshot, probe_dropPending]
  refine decides_autoWake ?_ env
  rw [probe_settleVolume]
  simp only [showSnapshot]
  rw [probe_kickQueue]
  exact h

theorem decides_watchdog (env : Env) (s : Globals) (tmp : CqNow) (h : FallbackOwned s.probe) :
    Decides (CallsClean env s (watchdogCall s tmp)) (watchdog env s tmp).probe := by
  rw [watchdog, watchdogCall]
  split
  · cases hrow : queueNextRow s with
    | none => exact Or.inl ⟨callsClean_none env s, h⟩
    | some row =>
        exact (decides_playFrom env { s with shown := { s.shown with gAutoNexted := true } }
          ⟨s.gQueueItems, row, none⟩ h).congr callsClean_some.symm
  · refine Or.inl ⟨callsClean_none env s, ?_⟩
    split <;> exact h

/-- **A poll's reply** can leave a uri behind only through the watchdog. -/
theorem decides_adoptReply_poll (env : Env) (s : Globals) (data : Bytes)
    (h : FallbackOwned s.probe) :
    Decides (CallsClean env s (replyCall s data)) (adoptReply env s data false).probe := by
  simp only [adoptReply, probe_redraw, replyCall, healthyReply]
  cases replyError data with
  | some err =>
      left
      refine ⟨callsClean_none env s, ?_⟩
      simp only [adoptError, takesFallback, Bool.false_and, Bool.false_eq_true, if_false]
      split <;> exact h
  | none =>
      simp only [adoptHealthy, answerProbe, answersProbe, Bool.false_and, Bool.false_eq_true,
        if_false]
      split
      · refine (decides_adoptSnapshot (decides_watchdog env _ _ ?_)).congr ?_
        · exact h
        · exact Iff.rfl
      · exact Or.inl ⟨callsClean_none env s, h⟩

theorem stores_of_busy {s : Globals} {call : PlayCall} (hbusy : s.probe.gCmd.isSome) :
    call.stores s = none := by
  rw [PlayCall.stores]
  split
  · rfl
  · rw [if_pos (Or.inr hbusy)]

/-- While a command is in flight, an adoption leaves the probe alone. -/
theorem probe_adoptSnapshot_of_busy {env : Env} {s : Globals} {tmp : CqNow}
    (hbusy : s.probe.gCmd.isSome) : (adoptSnapshot env s tmp).probe = s.probe := by
  have hwatchdog : (watchdog env s tmp).probe = s.probe := by
    rw [watchdog]
    split
    · dsimp only
      split
      · next row _ =>
        exact probe_playFrom_of_no_store env
          { s with shown := { s.shown with gAutoNexted := true } } ⟨s.gQueueItems, row, none⟩
          (stores_of_busy hbusy)
      · rfl
    · split <;> rfl
  -- the auto-start too meets a command in flight
  have hwake : ∀ t : Globals, t.probe = s.probe → (autoWake env t).probe = s.probe := by
    intro t ht
    have hkeep : ∀ u sel, u.probe = t.probe → (startCommand env u sel).probe = s.probe := by
      intro u sel hu
      rw [(probe_startCommand env u sel).2.2 (by rw [hu, ht]; exact hbusy), hu, ht]
    simp only [autoWake]
    split
    · split
      · split
        · exact ht
        · exact hkeep _ _ rfl
        · exact ht
      · exact hkeep _ _ rfl
    · exact ht
  simp only [adoptSnapshot, probe_dropPending]
  apply hwake _
  rw [probe_settleVolume]
  simp only [showSnapshot]
  rw [probe_kickQueue, hwatchdog]

/-- **A command's reply** clears the uri if it is healthy or `not_found`; another error leaves it. -/
theorem uri_adoptReply_cmd (env : Env) {s : Globals} (data : Bytes) (hbusy : s.probe.gCmd.isSome) :
    (adoptReply env s data true).probe.gFallbackUri.bytes = [] ↔
      s.probe.gFallbackUri.bytes = [] ∨ replyError data = none ∨
        replyError data = some (.lit "not_found") := by
  simp only [adoptReply, probe_redraw]
  cases replyError data with
  | some err =>
      simp only [adoptError, reduceCtorEq, false_or, Option.some.injEq]
      split
      · next hrate =>
        have hne : (CStr.lit "rate_limited") ≠ .lit "not_found" := by decide
        simp [hrate, hne]
      · split
        · next hfall =>
          rw [fallBack, (aside_startFire _ _ _).probe]
          simp only [takesFallback, Bool.and_eq_true, decide_eq_true_eq] at hfall
          exact iff_of_true rfl (Or.inr hfall.1.2)
        · next hfall =>
          simp only [takesFallback, Bool.true_and, Bool.and_eq_true, decide_eq_true_eq,
            not_and] at hfall
          constructor
          · exact Or.inl
          · rintro (huri | herr)
            · exact huri
            · simpa using hfall herr
  | none =>
      -- a healthy reply has cleared the uri before its snapshot is looked at
      have hanswer : ∀ t : Globals, (answerProbe t true).probe.gFallbackUri.bytes = [] ∧
          (t.probe.gCmd.isSome → (answerProbe t true).probe.gCmd.isSome) := by
        intro t
        rw [answerProbe, answersProbe]
        split
        · exact ⟨rfl, id⟩
        · next huri => exact ⟨by simpa using huri, id⟩
      refine iff_of_true ?_ (Or.inr (Or.inl rfl))
      simp only [adoptHealthy]
      split
      · rw [probe_adoptSnapshot_of_busy]
        · exact (hanswer _).1
        · exact (hanswer _).2 hbusy
      · exact (hanswer _).1

/-! ## Steps -/

/-- The call of `PlayFrom` that a step makes. -/
def playCall (s : Globals) (e : Event) : Option PlayCall :=
  match e.act with
  | .clickQueue row => some ⟨s.gQueueItems, row, none⟩
  | .clickResult row =>
      match resultKindAt s row with
      | .track i => some ⟨s.gSearchItems, i, some s.gQueueItems⟩
      | .artist _ | .album _ | .back | .none => none
  | .clickNext => (nextRow s).map fun row => ⟨s.gQueueItems, row, none⟩
  | .pumpQueue =>
      s.gQueueTx.bind fun tx =>
        (e.env.poll tx.id).reply.bind fun data =>
          if (cqTrackListFromResponse data).items ≠ [] ∧ autoPlays s then
            some ⟨cqTrackListFromResponse data, 0, none⟩
          else none
  | .pollNow => s.gTx.bind fun tx => (e.env.poll tx.id).reply.bind (replyCall s)
  | _ => none

/-- The end of a command that answers a stored uri. -/
def Answers : TxPoll → Prop
  | .running => True
  | .done data => replyError data = none ∨ replyError data = some (.lit "not_found")
  | .failed _ => False

/-- What a step needs: its call is clean; while a uri is stored, the command does not fail, its reply
carries no error but `not_found`, and the server stays the same. -/
structure Clean (s : Globals) (e : Event) : Prop where
  call : CallsClean e.env s (playCall s e)
  reply : e.act = .pumpCmd → s.probe.gFallbackUri.bytes ≠ [] →
    ∀ tx, s.probe.gCmd = some tx → Answers (e.env.poll tx.id)
  server : resetsGuard s e = true → s.probe.gFallbackUri.bytes = []

/-- A step that neither polls the command nor changes the server is clean if its call is. -/
theorem clean_iff_call {s : Globals} {e : Event} (hact : e.act ≠ .pumpCmd)
    (hserver : resetsGuard s e = false) :
    Clean s e ↔ CallsClean e.env s (playCall s e) :=
  ⟨Clean.call, fun h => ⟨h, fun h' => absurd h' hact, fun h' => by rw [hserver] at h'; cases h'⟩⟩

theorem clean_of_quiet {s : Globals} {e : Event} (hcall : playCall s e = none)
    (hact : e.act ≠ .pumpCmd) (hserver : resetsGuard s e = false) : Clean s e :=
  (clean_iff_call hact hserver).2 (by rw [hcall]; exact callsClean_none _ _)

theorem owned_pumpCmd {env : Env} {s : Globals} (h : FallbackOwned s.probe) :
    FallbackOwned (pumpCmd env s).probe ↔ Clean s ⟨env, .pumpCmd⟩ := by
  have hclean : Clean s ⟨env, .pumpCmd⟩ ↔ (s.probe.gFallbackUri.bytes ≠ [] →
      ∀ tx, s.probe.gCmd = some tx → Answers (env.poll tx.id)) :=
    ⟨fun hc => hc.reply rfl, fun hr => ⟨callsClean_none env s, fun _ => hr, fun h' => by cases h'⟩⟩
  rw [hclean, pumpCmd]
  cases hcmd : s.probe.gCmd with
  | none => exact iff_of_true h fun _ tx h' => by cases h'
  | some tx =>
      have hone : (∀ tx', some tx = some tx' → Answers (env.poll tx'.id)) ↔
          Answers (env.poll tx.id) :=
        ⟨fun h' => h' tx rfl, fun h' tx' htx' => by cases htx'; exact h'⟩
      rw [hone]
      dsimp only
      cases env.poll tx.id with
      | running => exact iff_of_true h fun _ => trivial
      | done data =>
          -- behind the reply the slot is free, so the uri has to be gone
          rw [owned_iff_of_free rfl]
          exact (uri_adoptReply_cmd env data (by rw [hcmd]; rfl)).trans or_iff_not_imp_left
      | failed message =>
          dsimp only
          rw [probe_redraw, owned_iff_of_free rfl]
          exact (not_not.symm : _ ↔ ¬ _ ≠ [])

theorem decides_pollNow {env : Env} {s : Globals} (h : FallbackOwned s.probe) :
    Decides (CallsClean env s (playCall s ⟨env, .pollNow⟩)) (pollNow env s).probe := by
  rw [pollNow, pumpPoll]
  simp only [playCall]
  cases s.gTx with
  | none =>
      refine Or.inl ⟨callsClean_none env s, ?_⟩
      rw [if_neg (by simp), (aside_startPoll env s).probe]
      exact h
  | some tx =>
      simp only [Option.isSome_some, if_true, Option.bind_some]
      cases env.poll tx.id with
      | running => exact Or.inl ⟨callsClean_none env s, h⟩
      | done data => exact decides_adoptReply_poll env s data h
      | failed message =>
          refine Or.inl ⟨callsClean_none env s, ?_⟩
          dsimp only
          rw [probe_redraw]
          exact h

/-- `s` with the globals of `t` that the queue fetch writes beside a play. -/
def withFetch (s t : Globals) : Globals :=
  { s with
    gQueueTx := t.gQueueTx
    gQueueItems := t.gQueueItems
    gQueueLast := t.gQueueLast
    gQBackoff := t.gQBackoff
    gQueueKick := t.gQueueKick
    gQueueEmptyRuns := t.gQueueEmptyRuns
    gAutoPlayPending := t.gAutoPlayPending
    nextTx := t.nextTx }

/-- The list is in place, and the user is told, before its first row is played. -/
def readied (env : Env) (s : Globals) (fresh : CqTrackList) : Globals :=
  setIntent env
    { s with
      gQueueItems := fresh
      gQueueEmptyRuns := 0
      gAutoPlayPending := false } .play

/-- **The queue fetch** plays the first row of a new list, or it leaves alone whatever is not the queue's. -/
theorem pumpQueue_cases (env : Env) (s : Globals) :
    (∃ fresh, playCall s ⟨env, .pumpQueue⟩ = some ⟨fresh, 0, none⟩ ∧
      pumpQueue env s = withFetch (playFrom env (readied env s fresh) fresh 0 none) (pumpQueue env s)) ∨
    (playCall s ⟨env, .pumpQueue⟩ = none ∧ pumpQueue env s = withFetch s (pumpQueue env s)) := by
  cases htx : s.gQueueTx with
  | none =>
      simp only [playCall, pumpQueue, htx, Option.bind_none, startQueue]
      right
      refine ⟨trivial, ?_⟩
      split <;> rfl
  | some tx =>
      cases hpoll : env.poll tx.id with
      | running =>
          simp only [playCall, pumpQueue, htx, hpoll, Option.bind_some, TxPoll.reply, Option.bind_none]
          exact Or.inr ⟨trivial, rfl⟩
      | failed message =>
          simp only [playCall, pumpQueue, htx, hpoll, Option.bind_some, TxPoll.reply, Option.bind_none]
          exact Or.inr ⟨trivial, rfl⟩
      | done data =>
          simp only [playCall, pumpQueue, htx, hpoll, Option.bind_some, TxPoll.reply]
          by_cases hplays : (cqTrackListFromResponse data).items ≠ [] ∧ autoPlays s = true
          · left
            rw [if_pos hplays, if_pos hplays.1]
            refine ⟨cqTrackListFromResponse data, rfl, ?_⟩
            simp only [adoptQueue, if_pos hplays.2]
            rfl
          · right
            rw [if_neg hplays]
            refine ⟨rfl, ?_⟩
            split
            · next hfresh =>
              simp only [adoptQueue, if_neg fun h => hplays ⟨hfresh, h⟩]
              rfl
            · simp only [adoptEmptyQueue]
              split <;> rfl

theorem decides_pumpQueue {env : Env} {s : Globals} (h : FallbackOwned s.probe) :
    Decides (CallsClean env s (playCall s ⟨env, .pumpQueue⟩)) (pumpQueue env s).probe := by
  rcases pumpQueue_cases env s with ⟨fresh, hcall, hplayed⟩ | ⟨hcall, hquiet⟩
  · -- the first row is played on the new list
    rw [hcall, hplayed]
    refine (decides_playFrom env (readied env s fresh) ⟨fresh, 0, none⟩ h).congr ?_
    exact callsClean_some.symm
  · rw [hcall, hquiet]
    exact Or.inl ⟨callsClean_none env s, h⟩

theorem decides_nextCommand {env : Env} {s : Globals} (h : FallbackOwned s.probe) :
    Decides (CallsClean env s (playCall s ⟨env, .clickNext⟩)) (nextCommand env s).probe := by
  have hrow : nextRow (setIntent env s .skip) = nextRow s := rfl
  simp only [nextCommand, playCall, hrow]
  cases nextRow s with
  | none => exact Or.inl ⟨callsClean_none env s, h⟩
  | some row =>
      refine (decides_playFrom env _ ⟨s.gQueueItems, row, none⟩ ?_).congr ?_
      · exact h
      · exact callsClean_some.symm

theorem owned_playContextAlbum {env : Env} {s : Globals} {albumId : CStr}
    (h : FallbackOwned s.probe) : FallbackOwned (playContextAlbum env s albumId).probe := by
  rcases playContextAlbum_cases env s albumId with heq | ⟨sel, heq⟩
  · rw [heq]
    exact h
  · rw [heq]
    exact owned_startCommand h

theorem decides_clickResult {env : Env} {s : Globals} {row : Nat} (h : FallbackOwned s.probe) :
    Decides (CallsClean env s (playCall s ⟨env, .clickResult row⟩))
      (clickResult env s row).probe := by
  simp only [clickResult, playCall]
  cases resultKindAt s row with
  | track i =>
      -- a track: the one kind of row that stores
      refine (decides_playFrom env s ⟨s.gSearchItems, i, some s.gQueueItems⟩ h).congr ?_
      exact callsClean_some.symm
  | artist i =>
      refine Or.inl ⟨callsClean_none env s, ?_⟩
      dsimp only
      split
      · rw [(aside_startArtistAlbums _ _ _ _).probe]
        exact h
      · exact h
  | album i =>
      refine Or.inl ⟨callsClean_none env s, ?_⟩
      dsimp only
      split
      · exact owned_playContextAlbum h
      · exact h
  | back => exact Or.inl ⟨callsClean_none env s, h⟩
  | none => exact Or.inl ⟨callsClean_none env s, h⟩

theorem owned_flushDebounce {env : Env} {s : Globals} (h : FallbackOwned s.probe) :
    FallbackOwned (flushDebounce env s).probe := by
  simp only [flushDebounce]
  split
  · split
    · exact owned_startCommand h
    · exact h
  · exact h

theorem owned_clickPlay {env : Env} {s : Globals} (h : FallbackOwned s.probe) :
    FallbackOwned (clickPlay env s).probe := by
  rcases clickPlay_cases env s with heq | ⟨kind, sel, heq⟩
  · rw [heq]
    exact h
  · rw [heq]
    exact owned_startCommand h

theorem owned_seek {env : Env} {s : Globals} {frac span : Nat} (h : FallbackOwned s.probe) :
    FallbackOwned (seek env s frac span).probe := by
  simp only [seek]
  split
  · exact owned_startCommand h
  · exact h

theorem owned_doScriptCmd {env : Env} {s : Globals} {cmd : ScriptCmd} (h : FallbackOwned s.probe) :
    FallbackOwned (doScriptCmd env s cmd).probe := by
  cases cmd <;> exact owned_startCommand h

/-- A change of server keeps the uri and drops the command. -/
theorem owned_applyServerChange {s : Globals} :
    FallbackOwned (applyServerChange s).probe ↔ s.probe.gFallbackUri.bytes = [] :=
  owned_iff_of_free rfl

theorem clean_iff_server {s : Globals} {e : Event} (hact : e.act ≠ .pumpCmd)
    (hcall : playCall s e = none) :
    Clean s e ↔ (resetsGuard s e = true → s.probe.gFallbackUri.bytes = []) :=
  ⟨Clean.server, fun h => ⟨by rw [hcall]; exact callsClean_none _ _, fun h' => absurd h' hact, h⟩⟩

/-- A step without a call, a command's end or a server change. -/
theorem owned_iff_of_quiet {s t : Globals} {e : Event} (hcall : playCall s e = none)
    (hact : e.act ≠ .pumpCmd) (hserver : resetsGuard s e = false) (ht : FallbackOwned t.probe) :
    FallbackOwned t.probe ↔ Clean s e :=
  iff_of_true ht (clean_of_quiet hcall hact hserver)

theorem owned_iff_of_aside {s t : Globals} {e : Event} (h : FallbackOwned s.probe)
    (hcall : playCall s e = none) (hact : e.act ≠ .pumpCmd) (hserver : resetsGuard s e = false)
    (ht : Aside s t) : FallbackOwned t.probe ↔ Clean s e :=
  owned_iff_of_quiet hcall hact hserver (by rw [ht.probe]; exact h)

/-- A step whose call decides. -/
theorem owned_iff_of_call {s t : Globals} {e : Event} (hact : e.act ≠ .pumpCmd)
    (hserver : resetsGuard s e = false)
    (ht : Decides (CallsClean e.env s (playCall s e)) t.probe) :
    FallbackOwned t.probe ↔ Clean s e :=
  ht.owned_iff.trans (clean_iff_call hact hserver).symm

/-- **A step keeps the ownership if and only if it is clean.** -/
theorem owned_perform_iff {s : Globals} {e : Event} (h : FallbackOwned s.probe) :
    FallbackOwned (perform e.env s e.act).probe ↔ Clean s e := by
  obtain ⟨env, act⟩ := e
  cases act with
  | pumpCmd => exact owned_pumpCmd h
  | pollNow => exact owned_iff_of_call (by simp) rfl (decides_pollNow h)
  | pumpQueue => exact owned_iff_of_call (by simp) rfl (decides_pumpQueue h)
  | clickNext => exact owned_iff_of_call (by simp) rfl (decides_nextCommand h)
  | clickResult row => exact owned_iff_of_call (by simp) rfl (decides_clickResult h)
  | clickQueue row =>
      refine owned_iff_of_call (by simp) rfl ?_
      exact (decides_playFrom env s ⟨s.gQueueItems, row, none⟩ h).congr callsClean_some.symm
  -- a change of server drops the command but not the uri
  | setServer host port =>
      rw [clean_iff_server (by simp) rfl]
      simp only [perform, setServer, resetsGuard]
      by_cases hhost : host.bytes = []
      · rw [if_pos hhost]
        exact iff_of_true h fun h' => absurd hhost (by simpa using h')
      · rw [if_neg hhost, owned_applyServerChange]
        exact ⟨fun huri _ => huri, fun h' => h' (by simpa using hhost)⟩
  | resume host port =>
      rw [clean_iff_server (by simp) rfl]
      have hmoved : configMoved { s with gSuspended := false } host port =
        configMoved s host port := rfl
      simp only [perform, resume, reloadConfig, resetsGuard, hmoved]
      by_cases hconfig : configMoved s host port = true
      · rw [if_pos hconfig, owned_applyServerChange]
        exact ⟨fun huri _ => huri, fun h' => h' hconfig⟩
      · rw [if_neg hconfig]
        exact iff_of_true h fun h' => absurd h' hconfig
  -- the others start no play, and leave the probe alone or only take the slot
  | pumpCover => exact owned_iff_of_aside h rfl (by simp) rfl (aside_pumpCover env s)
  | startCover => exact owned_iff_of_aside h rfl (by simp) rfl (aside_startCover env s)
  | pumpFire => exact owned_iff_of_aside h rfl (by simp) rfl (aside_pumpFire env s)
  | pumpSearch => exact owned_iff_of_aside h rfl (by simp) rfl (aside_pumpSearch env s)
  | pumpArtist => exact owned_iff_of_aside h rfl (by simp) rfl (aside_pumpArtist env s)
  | pumpFact => exact owned_iff_of_aside h rfl (by simp) rfl (aside_pumpFact env s)
  | tickView => exact owned_iff_of_aside h rfl (by simp) rfl (aside_tickView env s)
  | startListen => exact owned_iff_of_aside h rfl (by simp) rfl (aside_startListen env s)
  | queueSelected row => exact owned_iff_of_aside h rfl (by simp) rfl (aside_queueSelected env s row)
  | runSearch query => exact owned_iff_of_aside h rfl (by simp) rfl (aside_runSearch env s query)
  | flushDebounce => exact owned_iff_of_quiet rfl (by simp) rfl (owned_flushDebounce h)
  | clickPlay => exact owned_iff_of_quiet rfl (by simp) rfl (owned_clickPlay h)
  | setVolume value => exact owned_iff_of_quiet rfl (by simp) rfl (owned_startCommand h)
  | seek frac span => exact owned_iff_of_quiet rfl (by simp) rfl (owned_seek h)
  | script cmd => exact owned_iff_of_quiet rfl (by simp) rfl (owned_doScriptCmd h)
  | audio face plsDone => exact owned_iff_of_quiet rfl (by simp) rfl h
  | clickPrev => exact owned_iff_of_quiet rfl (by simp) rfl h
  | kickQueue => exact owned_iff_of_quiet rfl (by simp) rfl h
  | suspend => exact owned_iff_of_quiet rfl (by simp) rfl h

/-! ## Runs -/

/-- A stored uri belongs to the command in flight, and a reply to that command that is taken for the
answer to the probe is the reply to the command of the call that stored the uri. -/
structure Attributed (s : Globals) : Prop where
  owned : FallbackOwned s.probe
  fallback : ∀ tx err, s.probe.gCmd = some tx → takesFallback s true err = true →
    s.probe.storedBy = some tx.id
  native : ∀ tx, s.probe.gCmd = some tx → answersProbe s true = true →
    s.probe.storedBy = some tx.id

/-- Ownership is all there is to attribution. -/
theorem attributed_iff_owned {s : Globals} : Attributed s ↔ FallbackOwned s.probe := by
  refine ⟨Attributed.owned, ?_⟩
  intro h
  have hmine : ∀ tx, s.probe.gCmd = some tx → s.probe.gFallbackUri.bytes ≠ [] →
      s.probe.storedBy = some tx.id := by
    intro tx hcmd huri
    obtain ⟨tx', hcmd', hstored⟩ := h huri
    rw [hcmd] at hcmd'
    cases hcmd'
    exact hstored
  refine ⟨h, fun tx err hcmd hfall => hmine tx hcmd ?_, fun tx hcmd hanswer => hmine tx hcmd ?_⟩
  · simp only [takesFallback, Bool.and_eq_true, decide_eq_true_eq] at hfall
    exact hfall.2
  · simp only [answersProbe, Bool.true_and, decide_eq_true_eq] at hanswer
    exact hanswer

/-- **Attribution.** A run attributes every reply to the right command, in all the states it passes
through, if and only if its steps are clean. -/
theorem playFrom_attribution (host : CStr) (port : Nat) (autoStart qtOk : Bool)
    (events : List Event) :
    Meets step Clean (launch host port autoStart qtOk) events ↔
      ∀ before s, before <+: events →
        run step (launch host port autoStart qtOk) before = some s → Attributed s := by
  refine meets_iff_of_step_iff ?_ (fun _ _ => rfl) ?_
  · intro s e t hs ht
    cases ht
    rw [attributed_iff_owned]
    exact owned_perform_iff hs.owned
  · exact attributed_iff_owned.2 (owned_of_no_uri rfl)

/-- A search brings up one track, a click plays it, the transaction fails, and the user pauses. -/
def staleRun : List Event :=
  [⟨worldAt 1000 .running, .runSearch (.lit "rosa")⟩,
    ⟨worldAt 1060 (.done (ascii "item.0.uri\tspotify:track:A\n")), .pumpSearch⟩,
    ⟨worldAt 1200 .running, .clickResult 0⟩,
    ⟨worldAt 1500 (.failed (.lit "Connect failed to")), .pumpCmd⟩,
    ⟨worldAt 1600 .running, .script .pause⟩]

/-- **A uri left behind replays an old track.** The uri of the failed command is still there, so a
`not_found` reply to the pause is taken for the answer to the probe: native play is off for the
session, and the old track is fired. -/
theorem stale_fallback_replays :
    ∃ s, run step (launch (.lit "192.0.2.10") 70 false false) staleRun = some s ∧
      ¬ Attributed s ∧ s.probe.gCmd.map Tx.selector = some (.lit "/spot/api/1/pause") ∧
      (adoptReply (worldAt 1700 .running) s (ascii "error\tnot_found\n") true).probe.gNativePlay =
        .notFound ∧
      (adoptReply (worldAt 1700 .running) s (ascii "error\tnot_found\n") true).gFire.map
        Tx.selector = some (.lit "/spot/play?uri=spotify:track:A") := by
  refine ⟨_, rfl, ?_, by decide +kernel, by decide +kernel, by decide +kernel⟩
  intro h
  have hstored := h.fallback ⟨2, .lit "192.0.2.10", 70, .lit "/spot/api/1/pause"⟩ (.lit "not_found")
    (by decide +kernel) (by decide +kernel)
  exact absurd hstored (by decide +kernel)

end Casquinha.App
