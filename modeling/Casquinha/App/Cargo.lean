import Casquinha.App.Budget
import Casquinha.App.Fallback

/-!
# What a step carries along

The transactions in flight, the tap that waits in the debouncer and the uri that waits for a replay are
the app's cargo. A step loads it in three ways only: it starts a transaction, which has the next serial
number, it takes a tap, or it makes a call of `PlayFrom` that stores its uri. Everything else is carried
along or put down (`Carries`, `carries_perform`).
-/

set_option autoImplicit false

namespace Casquinha.App

open Lib Wire

/-- The handles, the next serial number, the waiting tap and the stored uri. -/
structure Cargo where
  handles : List (Option Tx)
  nextTx : Nat
  tap : Option CStr
  uri : CStr

def cargo (s : Globals) : Cargo := ⟨handles s, s.nextTx, s.gDeb.pending, s.probe.gFallbackUri⟩

/-- From `c` to `d`, a tap is loaded only if `tap` and a uri only if `store`; the transactions of `d` are
of `c`, or have been started in between. -/
structure Carries (tap store : Prop) (c d : Cargo) : Prop where
  nextTx : c.nextTx ≤ d.nextTx
  handles : ∀ tx, some tx ∈ d.handles → some tx ∈ c.handles ∨ c.nextTx ≤ tx.id ∧ tx.id < d.nextTx
  tap : tap ∨ (c.tap = none → d.tap = none)
  uri : store ∨ (c.uri.bytes = [] → d.uri.bytes = [])

section Rules

variable {tap store : Prop} {c d e : Cargo}

theorem Carries.refl (c : Cargo) : Carries tap store c c :=
  ⟨Nat.le_refl _, fun _ h => Or.inl h, Or.inr id, Or.inr id⟩

theorem Carries.trans (h : Carries tap store c d) (h' : Carries tap store d e) :
    Carries tap store c e := by
  refine ⟨Nat.le_trans h.nextTx h'.nextTx, ?_, ?_, ?_⟩
  · intro tx htx
    rcases h'.handles tx htx with hold | ⟨hge, hlt⟩
    · rcases h.handles tx hold with hold | ⟨hge, hlt⟩
      · exact Or.inl hold
      · exact Or.inr ⟨hge, Nat.lt_of_lt_of_le hlt h'.nextTx⟩
    · exact Or.inr ⟨Nat.le_trans h.nextTx hge, hlt⟩
  · rcases h.tap with htap | hkeep
    · exact Or.inl htap
    · exact h'.tap.imp_right fun hkeep' hnone => hkeep' (hkeep hnone)
  · rcases h.uri with hstore | hkeep
    · exact Or.inl hstore
    · exact h'.uri.imp_right fun hkeep' hnil => hkeep' (hkeep hnil)

/-- A handle is put down. -/
theorem Carries.clear (i : Nat) (h : d = { c with handles := c.handles.set i none }) :
    Carries tap store c d := by
  subst h
  refine ⟨Nat.le_refl _, ?_, Or.inr id, Or.inr id⟩
  intro tx htx
  rcases List.mem_or_eq_of_mem_set htx with hmem | hnone
  · exact Or.inl hmem
  · cases hnone

/-- A transaction is started on a handle, if it can be allocated. -/
theorem Carries.start (i : Nat) {env : Env} {s : Globals} {sel : CStr} (hs : c.nextTx = s.nextTx)
    (h : d = { c with
      handles := c.handles.set i (cqTxNew env s sel)
      nextTx := c.nextTx + 1 }) :
    Carries tap store c d := by
  subst h
  refine ⟨Nat.le_succ _, ?_, Or.inr id, Or.inr id⟩
  intro tx htx
  rcases List.mem_or_eq_of_mem_set htx with hmem | hnew
  · exact Or.inl hmem
  · rw [cqTxNew] at hnew
    split at hnew
    · cases hnew
      exact Or.inr ⟨Nat.le_of_eq hs, Nat.lt_succ_of_le (Nat.le_of_eq hs.symm)⟩
    · cases hnew

/-- The stored uri is put down. -/
theorem Carries.clearUri (h : d = { c with uri := .empty }) : Carries tap store c d := by
  subst h
  exact ⟨Nat.le_refl _, fun _ h => Or.inl h, Or.inr id, Or.inr fun _ => rfl⟩

/-- The waiting tap is put down. -/
theorem Carries.clearTap (h : d = { c with tap := none }) : Carries tap store c d := by
  subst h
  exact ⟨Nat.le_refl _, fun _ h => Or.inl h, Or.inr fun _ => rfl, Or.inr id⟩

end Rules

variable {tap store : Prop}

/-- Steps that do not touch the cargo come before. -/
theorem Carries.after {s t : Globals} {d : Cargo} (h : Carries tap store (cargo t) d)
    (hsame : cargo t = cargo s) : Carries tap store (cargo s) d := by
  rwa [hsame] at h

/-! ## Commands -/

theorem carries_startCommand (env : Env) (s : Globals) (sel : CStr) :
    Carries tap store (cargo s) (cargo (startCommand env s sel)) := by
  rw [startCommand]
  split
  · exact Carries.refl _
  · exact Carries.start 1 rfl rfl

theorem carries_startFire (env : Env) (s : Globals) (sel : CStr) :
    Carries tap store (cargo s) (cargo (startFire env s sel)) := by
  rcases actionRepeat_cases env s sel with ⟨-, h⟩ | ⟨-, h⟩
  · simp only [startFire, h]
    exact Carries.refl _
  · simp only [startFire, h]
    split
    · exact Carries.refl _
    · exact Carries.start 3 (s := s) rfl rfl

theorem carries_playItem (env : Env) (s : Globals) (items : CqTrackList) (row : Nat) :
    Carries tap store (cargo s) (cargo (playItem env s items row)) := by
  rw [playItem]
  split
  · exact Carries.refl _
  · exact carries_startFire _ _ _

/-- Storing a uri is for a call that may store. -/
theorem carries_storeAndStart (env : Env) (s : Globals) (uri sel : CStr) (hstore : store) :
    Carries tap store (cargo s) (cargo (storeAndStart env s uri sel)) := by
  have hstored : ∀ t : Globals, (cargo t).handles = (cargo s).handles → t.nextTx = s.nextTx →
      t.gDeb = s.gDeb → Carries tap store (cargo s) (cargo t) := by
    intro t hhandles hnext hdeb
    refine ⟨Nat.le_of_eq hnext.symm, fun tx htx => Or.inl ?_, Or.inr ?_, Or.inl hstore⟩
    · rwa [hhandles] at htx
    · intro hnone
      exact (congrArg CqDebounce.pending hdeb).trans hnone
  rcases storeAndStart_cases env s uri sel with ⟨-, h⟩ | ⟨-, t, rfl, h⟩
  · rw [h]
    exact hstored _ rfl rfl rfl
  · rw [h]
    exact (hstored { s with
      probe := { s.probe with gFallbackUri := uri.fit 128, storedBy := none }
      gLastAction := sel.fit 240
      gLastActionTick := env.tick } rfl rfl rfl).trans (carries_startCommand env _ sel)

/-- **A call** loads a uri only if it stores one. -/
theorem carries_playFrom (env : Env) (s : Globals) (call : PlayCall)
    (hstore : (call.stores s).isSome → store) :
    Carries tap store (cargo s) (cargo (playFrom env s call.items call.row call.cont)) := by
  cases hstores : call.stores s with
  | some pair =>
      obtain ⟨uri, sel⟩ := pair
      rw [(playFrom_of_stores env hstores).1]
      apply carries_storeAndStart
      apply hstore
      rw [hstores]
      rfl
  | none =>
      -- the call is turned away, or it becomes a `PlayItem`, which stores nothing
      rw [PlayCall.stores] at hstores
      rw [playFrom]
      cases hitem : call.items.items[call.row]? with
      | none => exact Carries.refl _
      | some item =>
          simp only [hitem] at hstores ⊢
          by_cases hold : s.probe.gNativePlay = .notFound
          · rw [if_pos hold]
            exact carries_playItem _ _ _ _
          · by_cases hbusy : s.probe.gCmd.isSome
            · rw [if_neg hold, if_pos hbusy]
              exact Carries.refl _
            · rw [if_neg (by simp [hold, hbusy])] at hstores
              rw [if_neg hold, if_neg hbusy]
              cases hid : afterLastColon item.uri with
              | none => exact carries_playItem _ _ _ _
              | some id =>
                  simp only [hid] at hstores ⊢
                  by_cases hnil : id.bytes = []
                  · rw [if_pos hnil]
                    exact carries_playItem _ _ _ _
                  · rw [if_neg hnil] at hstores
                    cases hstores

theorem carries_playContextAlbum (env : Env) (s : Globals) (albumId : CStr) :
    Carries tap store (cargo s) (cargo (playContextAlbum env s albumId)) := by
  rcases playContextAlbum_cases env s albumId with h | ⟨sel, h⟩
  · rw [h]
    exact Carries.refl _
  · rw [h]
    exact (carries_startCommand env _ _).after rfl

theorem carries_queueSelected (env : Env) (s : Globals) (row : Nat) :
    Carries tap store (cargo s) (cargo (queueSelected env s row)) := by
  rw [queueSelected]
  split
  · split
    · exact carries_startFire _ _ _
    · exact Carries.refl _
  · split
    · exact carries_startFire _ _ _
    · exact Carries.refl _
  · exact Carries.refl _
  · exact Carries.refl _
  · exact Carries.refl _

theorem carries_clickPlay (env : Env) (s : Globals) :
    Carries tap store (cargo s) (cargo (clickPlay env s)) := by
  rcases clickPlay_cases env s with h | ⟨kind, sel, h⟩
  · rw [h]
    exact Carries.refl _
  · rw [h]
    exact (carries_startCommand env _ _).after rfl

theorem carries_seek (env : Env) (s : Globals) (frac span : Nat) :
    Carries tap store (cargo s) (cargo (seek env s frac span)) := by
  simp only [seek]
  split
  · exact carries_startCommand _ _ _
  · exact Carries.refl _

theorem carries_doScriptCmd (env : Env) (s : Globals) (cmd : ScriptCmd) :
    Carries tap store (cargo s) (cargo (doScriptCmd env s cmd)) := by
  cases cmd <;> exact (carries_startCommand env _ _).after rfl

/-- A flush puts the waiting tap down. -/
theorem carries_flushDebounce (env : Env) (s : Globals) :
    Carries tap store (cargo s) (cargo (flushDebounce env s)) := by
  simp only [flushDebounce]
  split
  · have htaken : Carries tap store (cargo s) (cargo { s with gDeb := (cqDebounceTake s.gDeb).2 }) :=
      Carries.clearTap rfl
    split
    · exact htaken.trans (carries_startCommand env _ _)
    · exact htaken
  · exact Carries.refl _

/-! ## Replies -/

theorem cargo_dropIntent (s : Globals) (v : CqView) : cargo (dropIntent s v) = cargo s := by
  rw [dropIntent]
  split <;> rfl

theorem cargo_redraw (env : Env) (s : Globals) : cargo (redraw env s) = cargo s :=
  cargo_dropIntent _ _

theorem carries_fallBack (env : Env) (s : Globals) :
    Carries tap store (cargo s) (cargo (fallBack env s)) := by
  have hcleared : Carries tap store (cargo s)
      (cargo { s with probe := { s.probe with gNativePlay := .notFound, gFallbackUri := .empty } }) :=
    Carries.clearUri rfl
  exact hcleared.trans (carries_startFire env _ _)

theorem carries_autoWake (env : Env) (s : Globals) :
    Carries tap store (cargo s) (cargo (autoWake env s)) := by
  simp only [autoWake]
  split
  · split
    · split
      · exact Carries.refl _
      · exact (carries_startCommand env _ _).after rfl
      · exact Carries.refl _
    · exact (carries_startCommand env _ _).after rfl
  · exact Carries.refl _

theorem carries_watchdog (env : Env) (s : Globals) (tmp : CqNow)
    (hstore : ∀ call, watchdogCall s tmp = some call → (call.stores s).isSome → store) :
    Carries tap store (cargo s) (cargo (watchdog env s tmp)) := by
  rw [watchdog]
  rw [watchdogCall] at hstore
  split
  · next hended =>
    rw [if_pos hended] at hstore
    cases hrow : queueNextRow s with
    | none => exact Carries.refl _
    | some row =>
        rw [hrow] at hstore
        exact carries_playFrom env { s with shown := { s.shown with gAutoNexted := true } }
          ⟨s.gQueueItems, row, none⟩ (hstore _ rfl)
  · split <;> exact Carries.refl _

theorem carries_adoptSnapshot (env : Env) (s : Globals) (tmp : CqNow)
    (hstore : ∀ call, watchdogCall s tmp = some call → (call.stores s).isSome → store) :
    Carries tap store (cargo s) (cargo (adoptSnapshot env s tmp)) := by
  have hkick : ∀ t, cargo (kickQueue env t tmp) = cargo t := by
    intro t
    rw [kickQueue]
    split <;> rfl
  have hshow : ∀ t, cargo (showSnapshot env t tmp) = cargo t := fun _ => rfl
  have hsettle : ∀ t held keepVol, cargo (settleVolume t held keepVol) = cargo t := by
    intro t held keepVol
    rw [settleVolume]
    split <;> rfl
  have hpending : ∀ t, cargo (dropPending t) = cargo t := by
    intro t
    rw [dropPending]
    split <;> rfl
  simp only [adoptSnapshot, hpending]
  refine Carries.trans ?_ (carries_autoWake env _)
  rw [hsettle, hshow, hkick]
  exact carries_watchdog env s tmp hstore

/-- What follows the answer to a probe. -/
theorem carries_adoptHealthy (env : Env) (s : Globals) (isCmd : Bool) (f : CqFields)
    (hstore : (cqGuardAcceptTs s.shown.gGuard (cqNowFromFields f).ts).1 = true →
      ∀ call, watchdogCall (answerProbe s isCmd) (cqNowFromFields f) = some call →
        (call.stores (answerProbe s isCmd)).isSome → store) :
    Carries tap store (cargo (answerProbe s isCmd)) (cargo (adoptHealthy env s isCmd f)) := by
  rw [← shown_answerProbe s isCmd] at hstore
  simp only [adoptHealthy]
  split
  · next haccept =>
    refine (carries_adoptSnapshot env { answerProbe s isCmd with
      gBackoff := cqBackoffOk (answerProbe s isCmd).gBackoff
      shown := { (answerProbe s isCmd).shown with
        gGuard := (cqGuardAcceptTs (answerProbe s isCmd).shown.gGuard
          (cqNowFromFields f).ts).2 } } (cqNowFromFields f) ?_).after rfl
    exact hstore haccept
  · exact Carries.refl _

/-- **A reply** loads a uri only through the watchdog's call, and a command's reply none at all: the
command is still in flight when the call is made. -/
theorem carries_adoptReply (env : Env) (s : Globals) (data : Bytes) (isCmd : Bool)
    (hstore : isCmd = false →
      ∀ call, replyCall s data = some call → (call.stores s).isSome → store)
    (hbusy : isCmd = true → s.probe.gCmd.isSome) :
    Carries tap store (cargo s) (cargo (adoptReply env s data isCmd)) := by
  simp only [adoptReply, cargo_redraw]
  cases hkey : replyError data with
  | some err =>
      simp only [adoptError]
      split
      · exact Carries.refl _
      · split
        · exact (carries_fallBack env _).after rfl
        · exact Carries.refl _
  | none =>
      dsimp only
      cases isCmd with
      | false =>
          refine (carries_adoptHealthy env { s with gOnline := true } false (replyFields data) ?_).after
            rfl
          intro haccept call hcall
          apply hstore rfl call
          rw [replyCall, healthyReply, hkey]
          dsimp only
          rw [if_pos haccept]
          exact hcall
      | true =>
          have hanswer :
              Carries tap store (cargo s) (cargo (answerProbe { s with gOnline := true } true)) ∧
                (answerProbe { s with gOnline := true } true).probe.gCmd = s.probe.gCmd := by
            rw [answerProbe]
            split
            · exact ⟨Carries.clearUri rfl, rfl⟩
            · exact ⟨Carries.refl _, rfl⟩
          refine hanswer.1.trans (carries_adoptHealthy env _ true (replyFields data) ?_)
          -- the watchdog finds the command still in flight
          intro _ call _ hstores
          rw [stores_of_busy (by rw [hanswer.2]; exact hbusy rfl)] at hstores
          cases hstores

/-! ## Limbs -/

theorem carries_pumpCmd (env : Env) (s : Globals) :
    Carries tap store (cargo s) (cargo (pumpCmd env s)) := by
  rw [pumpCmd]
  cases hcmd : s.probe.gCmd with
  | none => exact Carries.refl _
  | some tx =>
      dsimp only
      cases env.poll tx.id with
      | running => exact Carries.refl _
      | done data =>
          have hreply : Carries tap store (cargo s) (cargo (adoptReply env s data true)) :=
            carries_adoptReply env s data true (fun h => by cases h) (fun _ => by rw [hcmd]; rfl)
          exact hreply.trans (Carries.clear 1 rfl)
      | failed message =>
          dsimp only
          rw [cargo_redraw]
          exact Carries.clear 1 rfl

theorem carries_pollNow (env : Env) (s : Globals)
    (hstore : ∀ call, playCall s ⟨env, .pollNow⟩ = some call → (call.stores s).isSome → store) :
    Carries tap store (cargo s) (cargo (pollNow env s)) := by
  rw [pollNow, pumpPoll]
  cases htx : s.gTx with
  | none =>
      -- no poll in flight: one may start
      rw [if_neg (by simp), startPoll]
      split
      · exact Carries.start 0 (s := s) rfl rfl
      · exact Carries.refl _
  | some tx =>
      simp only [playCall, htx, Option.bind_some] at hstore
      simp only [Option.isSome_some, if_true]
      cases hpoll : env.poll tx.id with
      | running => exact Carries.refl _
      | done data =>
          rw [hpoll] at hstore
          -- the reply is adopted, then the transaction is freed
          have hreply : Carries tap store (cargo s) (cargo (adoptReply env s data false)) :=
            carries_adoptReply env s data false (fun _ call hcall => hstore call hcall)
              (fun h => by cases h)
          exact hreply.trans (Carries.clear 0 rfl)
      | failed message =>
          dsimp only
          rw [cargo_redraw]
          exact Carries.clear 0 rfl

theorem carries_pumpCover (env : Env) (s : Globals) :
    Carries tap store (cargo s) (cargo (pumpCover env s)) := by
  rw [pumpCover]
  split
  · exact Carries.refl _
  · dsimp only
    split
    · exact Carries.refl _
    · exact Carries.clear 2 rfl
    · split
      · rw [cargo_redraw]
        exact Carries.clear 2 rfl
      · exact Carries.clear 2 rfl

theorem carries_startCover (env : Env) (s : Globals) :
    Carries tap store (cargo s) (cargo (startCover env s)) := by
  rw [startCover]
  split
  · exact Carries.refl _
  · split
    · exact Carries.start 2 (s := s) rfl rfl
    · exact Carries.refl _

theorem carries_pumpFire (env : Env) (s : Globals) :
    Carries tap store (cargo s) (cargo (pumpFire env s)) := by
  rw [pumpFire]
  split
  · exact Carries.refl _
  · split
    · exact Carries.refl _
    · exact Carries.clear 3 rfl
    · exact Carries.clear 3 rfl

theorem carries_pumpSearch (env : Env) (s : Globals) :
    Carries tap store (cargo s) (cargo (pumpSearch env s)) := by
  rw [pumpSearch]
  split
  · exact Carries.refl _
  · split
    · exact Carries.refl _
    · exact Carries.clear 4 rfl
    · exact Carries.clear 4 rfl

theorem carries_pumpArtist (env : Env) (s : Globals) :
    Carries tap store (cargo s) (cargo (pumpArtist env s)) := by
  rw [pumpArtist]
  split
  · exact Carries.refl _
  · split
    · exact Carries.refl _
    · exact Carries.clear 5 rfl
    · exact Carries.clear 5 rfl

theorem carries_pumpQueue (env : Env) (s : Globals)
    (hstore : ∀ call, playCall s ⟨env, .pumpQueue⟩ = some call → (call.stores s).isSome → store) :
    Carries tap store (cargo s) (cargo (pumpQueue env s)) := by
  rw [pumpQueue]
  cases htx : s.gQueueTx with
  | none =>
      dsimp only
      rw [startQueue]
      split
      · exact Carries.start 6 (s := s) rfl rfl
      · exact Carries.refl _
  | some tx =>
      simp only [playCall, htx, Option.bind_some] at hstore
      dsimp only
      cases hpoll : env.poll tx.id with
      | running => exact Carries.refl _
      | failed message => exact Carries.clear 6 rfl
      | done data =>
          simp only [hpoll, TxPoll.reply, Option.bind_some] at hstore
          dsimp only
          have hcleared : ∀ t, Carries tap store (cargo t) (cargo { t with
              gQueueTx := none
              gQueueLast := env.tick
              gQBackoff := cqBackoffOk t.gQBackoff }) := fun t => Carries.clear 6 rfl
          -- the transaction is freed last, whatever the reply has started
          refine Carries.trans ?_ (hcleared _)
          by_cases hfresh : (cqTrackListFromResponse data).items ≠ []
          · rw [if_pos hfresh, adoptQueue]
            by_cases hplays : autoPlays s
            · rw [if_pos hplays]
              rw [if_pos ⟨hfresh, hplays⟩] at hstore
              refine (carries_playFrom env _ ⟨cqTrackListFromResponse data, 0, none⟩ ?_).after rfl
              exact hstore _ rfl
            · rw [if_neg hplays]
              exact Carries.refl _
          · -- an empty list starts nothing
            rw [if_neg hfresh]
            simp only [adoptEmptyQueue]
            split <;> exact Carries.refl _

theorem carries_pumpFact (env : Env) (s : Globals) :
    Carries tap store (cargo s) (cargo (pumpFact env s)) := by
  rw [pumpFact]
  split
  · rw [startFact]
    split
    · exact Carries.start 8 (s := s) rfl rfl
    · exact Carries.refl _
  · split
    · exact Carries.refl _
    · next data _ =>
      have hfact : cargo (adoptFact s data) = cargo s := by
        simp only [adoptFact]
        split
        · split <;> rfl
        · rfl
      rw [← hfact]
      exact Carries.clear 8 rfl
    · exact Carries.clear 8 rfl

theorem cargo_tickView (env : Env) (s : Globals) : cargo (tickView env s) = cargo s := by
  rw [tickView]
  split
  · rfl
  · dsimp only
    split
    · rw [cargo_redraw]
      exact cargo_dropIntent s _
    · exact cargo_dropIntent s _

/-! ## Gestures -/

theorem carries_runSearch (env : Env) (s : Globals) (query : CStr) :
    Carries tap store (cargo s) (cargo (runSearch env s query)) := by
  rcases runSearch_cases env s query with h | ⟨sel, h⟩
  · rw [h]
    exact Carries.refl _
  · -- the drill in flight is dropped
    rw [h]
    exact Carries.trans (Carries.clear 5 rfl) (Carries.start 4 (s := s) rfl rfl)

theorem carries_startArtistAlbums (env : Env) (s : Globals) (id : CStr) (name : Option CStr) :
    Carries tap store (cargo s) (cargo (startArtistAlbums env s id name)) := by
  rcases startArtistAlbums_cases env s id name with h | ⟨sel, h⟩
  · rw [h]
    exact Carries.refl _
  · rw [h]
    exact Carries.start 5 (s := s) rfl rfl

theorem carries_clickResult (env : Env) (s : Globals) (row : Nat)
    (hstore : ∀ call, playCall s ⟨env, .clickResult row⟩ = some call →
      (call.stores s).isSome → store) :
    Carries tap store (cargo s) (cargo (clickResult env s row)) := by
  rw [clickResult]
  simp only [playCall] at hstore
  cases hkind : resultKindAt s row with
  | track i =>
      rw [hkind] at hstore
      exact carries_playFrom env s ⟨s.gSearchItems, i, some s.gQueueItems⟩ (hstore _ rfl)
  | artist i =>
      dsimp only
      split
      · exact carries_startArtistAlbums _ _ _ _
      · exact Carries.refl _
  | album i =>
      dsimp only
      split
      · exact carries_playContextAlbum _ _ _
      · exact Carries.refl _
  | back => exact Carries.refl _
  | none => exact Carries.refl _

/-- The step takes a tap. -/
def takesTap (s : Globals) (e : Event) : Bool :=
  match e.act with
  | .clickPrev => true
  | .clickNext => (nextRow s).isNone
  | _ => false

theorem carries_debounceTap (env : Env) (s : Globals) (sel : CStr) (htap : tap) :
    Carries tap store (cargo s) (cargo (debounceTap env s sel)) :=
  ⟨Nat.le_refl _, fun _ h => Or.inl h, Or.inl htap, Or.inr id⟩

theorem carries_nextCommand (env : Env) (s : Globals)
    (htap : takesTap s ⟨env, .clickNext⟩ = true → tap)
    (hstore : ∀ call, playCall s ⟨env, .clickNext⟩ = some call → (call.stores s).isSome → store) :
    Carries tap store (cargo s) (cargo (nextCommand env s)) := by
  have hrow : nextRow (setIntent env s .skip) = nextRow s := rfl
  simp only [nextCommand, hrow]
  simp only [playCall] at hstore
  simp only [takesTap] at htap
  cases hnext : nextRow s with
  | none => exact (carries_debounceTap env _ _ (htap (by rw [hnext]; rfl))).after rfl
  | some row =>
      rw [hnext] at hstore
      refine (carries_playFrom env _ ⟨s.gQueueItems, row, none⟩ ?_).after rfl
      exact hstore _ rfl

/-! ## Steps -/

/-- The step makes a call that stores its uri. -/
def storesUri (s : Globals) (e : Event) : Bool :=
  ((playCall s e).bind fun call => call.stores s).isSome

theorem storesUri_of_call {s : Globals} {e : Event} {call : PlayCall}
    (hcall : playCall s e = some call) (h : (call.stores s).isSome) : storesUri s e = true := by
  rw [storesUri, hcall]
  exact h

/-- After a change of server nothing is in flight. -/
theorem cargo_applyServerChange (s : Globals) :
    cargo (applyServerChange s) = { cargo s with handles := List.replicate 9 none } := rfl

theorem carries_applyServerChange (s : Globals) :
    Carries tap store (cargo s) (cargo (applyServerChange s)) := by
  rw [cargo_applyServerChange]
  refine ⟨Nat.le_refl _, ?_, Or.inr id, Or.inr id⟩
  intro tx htx
  cases List.eq_of_mem_replicate htx

/-- **What a step carries**: it loads a tap or a uri only if it takes a tap or makes a call that stores
one. -/
theorem carries_perform (s : Globals) (e : Event) :
    Carries (takesTap s e = true) (storesUri s e = true) (cargo s)
      (cargo (perform e.env s e.act)) := by
  obtain ⟨env, act⟩ := e
  cases act with
  | pumpCmd => exact carries_pumpCmd env s
  | pumpCover => exact carries_pumpCover env s
  | startCover => exact carries_startCover env s
  | flushDebounce => exact carries_flushDebounce env s
  | pollNow => exact carries_pollNow env s fun _ => storesUri_of_call
  | pumpFire => exact carries_pumpFire env s
  | pumpSearch => exact carries_pumpSearch env s
  | pumpArtist => exact carries_pumpArtist env s
  | pumpQueue => exact carries_pumpQueue env s fun _ => storesUri_of_call
  | pumpFact => exact carries_pumpFact env s
  -- steps outside of the transactions
  | tickView =>
      simp only [perform, cargo_tickView]
      exact Carries.refl _
  | audio face plsDone =>
      cases plsDone with
      | true => exact Carries.clear 7 rfl
      | false => exact Carries.refl _
  | startListen =>
      simp only [perform, startListen]
      split
      · exact Carries.start 7 (s := s) rfl rfl
      · exact Carries.refl _
  | clickPrev => exact (carries_debounceTap env _ _ rfl).after rfl
  | clickNext => exact carries_nextCommand env s id fun _ => storesUri_of_call
  | clickPlay => exact carries_clickPlay env s
  | setVolume value => exact (carries_startCommand env _ _).after rfl
  | seek frac span => exact carries_seek env s frac span
  | clickResult row => exact carries_clickResult env s row fun _ => storesUri_of_call
  | clickQueue row =>
      exact carries_playFrom env s ⟨s.gQueueItems, row, none⟩ (storesUri_of_call rfl)
  | queueSelected row => exact carries_queueSelected env s row
  | runSearch query => exact carries_runSearch env s query
  | script cmd => exact carries_doScriptCmd env s cmd
  | kickQueue => exact Carries.refl _
  | setServer host port =>
      simp only [perform, setServer]
      split
      · exact Carries.refl _
      · exact (carries_applyServerChange _).after rfl
  | suspend => exact Carries.refl _
  | resume host port =>
      simp only [perform, resume, reloadConfig]
      split
      · exact (carries_applyServerChange { s with
          gSuspended := false
          gHost := host.fit 64
          gPort := port }).after rfl
      · exact Carries.refl _

end Casquinha.App
