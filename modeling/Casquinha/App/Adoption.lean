import Casquinha.App.Frame
import Mathlib.Data.List.Induction

/-!
# Adoption over whole runs

Only two things move the adopted snapshot and its guard: a reply and a server change
(`shown_perform`). A reply with an error key and a reply whose positive `ts` is below the mark change
nothing (`shown_adoptReply`). So, since the last server change, the mark is the largest positive `ts`
heard in an error-free reply and adopted snapshots do not go back in time (`adoption_law`).

Nothing else resets the guard. An outage leaves the mark as high as it was, and a reply after it is
adopted only when its `ts` has caught up (`adopted_iff_caught_up`, `clock_reset_locks_out`).
-/

set_option autoImplicit false

namespace Casquinha.App

open Lib Wire

/-! ## One reply -/

/-- The snapshot of a reply without an error key. -/
def healthyReply (data : Bytes) : Option CqNow :=
  match replyError data with
  | some _ => none
  | none => some (cqNowFromFields (replyFields data))

/-- A snapshot with the volume on show, within the hold. -/
def heldVolume (env : Env) (s : Globals) (n : CqNow) : CqNow :=
  if volHeld env s then { n with volume := s.shown.gSnap.volume } else n

@[simp] theorem heldVolume_ts (env : Env) (s : Globals) (n : CqNow) :
    (heldVolume env s n).ts = n.ts := by
  rw [heldVolume]
  split <;> rfl

/-- What is shown once `n` has been adopted. -/
def adoptedShown (env : Env) (s : Globals) (n : CqNow) : Shown :=
  { gGuard := (cqGuardAcceptTs s.shown.gGuard n.ts).2
    gSnap := heldVolume env s n
    gHaveSnap := true
    gSnapTick :=
      if s.shown.gHaveSnap && 0 < n.ts && n.ts = s.shown.gSnap.ts then s.shown.gSnapTick
      else env.tick
    gAutoNexted :=
      if trackEnded s.shown n then true
      else if n.state = .playing then false
      else s.shown.gAutoNexted }

theorem shown_adoptError (env : Env) (s : Globals) (isCmd : Bool) (err : CStr) :
    (adoptError env s isCmd err).shown = s.shown := by
  rw [adoptError]
  split
  · rfl
  · split
    · exact (aside_startFire _ _ _).shown
    · rfl

theorem shown_answerProbe (s : Globals) (isCmd : Bool) : (answerProbe s isCmd).shown = s.shown := by
  rw [answerProbe]
  split <;> rfl

theorem shown_watchdog (env : Env) (s : Globals) (n : CqNow) :
    (watchdog env s n).shown = { s.shown with
      gAutoNexted :=
        if trackEnded s.shown n then true
        else if n.state = .playing then false
        else s.shown.gAutoNexted } := by
  rw [watchdog]
  split
  · dsimp only
    split
    · exact shown_playFrom _ _ _ _ _
    · rfl
  · split <;> rfl

theorem shown_kickQueue (env : Env) (s : Globals) (n : CqNow) :
    (kickQueue env s n).shown = s.shown := by
  rw [kickQueue]
  split <;> rfl

theorem shown_autoWake (env : Env) (s : Globals) : (autoWake env s).shown = s.shown := by
  simp only [autoWake]
  split
  · split
    · split
      · rfl
      · exact shown_startCommand _ _ _
      · rfl
    · exact shown_startCommand _ _ _
  · rfl

theorem shown_dropPending (s : Globals) : (dropPending s).shown = s.shown := by
  rw [dropPending]
  split <;> rfl

theorem shown_settleVolume (s : Globals) (held : Bool) (keepVol : Int) :
    (settleVolume s held keepVol).shown =
      { s.shown with
        gSnap := if held then { s.shown.gSnap with volume := keepVol } else s.shown.gSnap } := by
  rw [settleVolume]
  split <;> rfl

theorem shown_adoptSnapshot (env : Env) (s : Globals) (n : CqNow) :
    (adoptSnapshot env s n).shown =
      { adoptedShown env s n with gGuard := s.shown.gGuard } := by
  simp only [adoptSnapshot, shown_dropPending, shown_autoWake, shown_settleVolume, showSnapshot,
    shown_kickQueue, shown_watchdog, adoptedShown, heldVolume]

/-- What is shown after a reply. -/
def replyShown (env : Env) (s : Globals) (data : Bytes) : Shown :=
  match healthyReply data with
  | none => s.shown
  | some n =>
      if (cqGuardAcceptTs s.shown.gGuard n.ts).1 then adoptedShown env s n
      else { s.shown with gGuard := (cqGuardAcceptTs s.shown.gGuard n.ts).2 }

/-- **What a reply does to what is shown.** -/
theorem shown_adoptReply (env : Env) (s : Globals) (data : Bytes) (isCmd : Bool) :
    (adoptReply env s data isCmd).shown = replyShown env s data := by
  have hredraw : ∀ t, (redraw env t).shown = t.shown := fun t =>
    ((Aside.refl t).redraw env).shown
  simp only [adoptReply, hredraw, replyShown, healthyReply]
  cases replyError data with
  | some err => exact shown_adoptError _ _ _ _
  | none =>
      simp only [adoptHealthy, shown_answerProbe]
      split
      · rw [shown_adoptSnapshot]
        simp only [adoptedShown, heldVolume, volHeld]
        rw [answerProbe]
        split <;> rfl
      · rfl

/-! ## One step -/

/-- The reply in a report. -/
def TxPoll.reply : TxPoll → Option Bytes
  | .done data => some data
  | .running | .failed _ => none

theorem TxPoll.eq_done_of_reply {report : TxPoll} {data : Bytes} (h : report.reply = some data) :
    report = .done data := by
  cases report with
  | running => cases h
  | done data' =>
      cases h
      rfl
  | failed message => cases h

/-- The reply that a step hands to `AdoptReply`. -/
def delivered (s : Globals) (e : Event) : Option Bytes :=
  match e.act with
  | .pumpCmd => s.probe.gCmd.bind fun tx => (e.env.poll tx.id).reply
  | .pollNow => s.gTx.bind fun tx => (e.env.poll tx.id).reply
  | _ => none

/-- The step changes the server. -/
def resetsGuard (s : Globals) (e : Event) : Bool :=
  match e.act with
  | .setServer host _ => host.bytes ≠ []
  | .resume host port => configMoved s host port
  | _ => false

theorem shown_pumpCmd (env : Env) (s : Globals) :
    (pumpCmd env s).shown =
      match delivered s ⟨env, .pumpCmd⟩ with
      | some data => replyShown env s data
      | none => s.shown := by
  rw [pumpCmd, delivered]
  cases s.probe.gCmd with
  | none => rfl
  | some tx =>
      simp only [Option.bind_some]
      cases env.poll tx.id with
      | running => rfl
      | done data => exact shown_adoptReply env s data true
      | failed message =>
          refine (Aside.redraw (s := { s with probe := { s.probe with gCmd := none } }) ?_ env).shown
          exact ⟨rfl, rfl⟩

theorem shown_pollNow (env : Env) (s : Globals) :
    (pollNow env s).shown =
      match delivered s ⟨env, .pollNow⟩ with
      | some data => replyShown env s data
      | none => s.shown := by
  rw [pollNow, delivered, pumpPoll]
  cases s.gTx with
  | none => exact (aside_startPoll env s).shown
  | some tx =>
      simp only [Option.bind_some, Option.isSome_some, if_true]
      cases env.poll tx.id with
      | running => rfl
      | done data => exact shown_adoptReply env s data false
      | failed message =>
          refine (Aside.redraw (s := s) ?_ env).shown
          exact ⟨rfl, rfl⟩

theorem shown_resume (s : Globals) (host : CStr) (port : Nat) :
    (resume s host port).shown =
      if configMoved s host port then { s.shown with gGuard := cqGuardInit } else s.shown := by
  have hmoved : configMoved { s with gSuspended := false } host port = configMoved s host port := rfl
  rw [resume]
  simp only [reloadConfig, hmoved]
  split <;> rfl

/-- **Only a reply and a server change move what is shown.** -/
theorem shown_perform (s : Globals) (e : Event) :
    (perform e.env s e.act).shown =
      if resetsGuard s e then { s.shown with gGuard := cqGuardInit }
      else
        match delivered s e with
        | some data => replyShown e.env s data
        | none => s.shown := by
  obtain ⟨env, act⟩ := e
  cases act with
  -- the two steps that deliver a reply
  | pumpCmd => exact shown_pumpCmd env s
  | pollNow => exact shown_pollNow env s
  -- the two that may change the server
  | setServer host port =>
      simp only [perform, setServer, resetsGuard]
      by_cases h : host.bytes = []
      · simp [h, delivered]
      · simp [h, applyServerChange, cqGuardReset, cqGuardInit]
  | resume host port => exact shown_resume s host port
  -- all the others leave the display alone
  | pumpCover => exact (aside_pumpCover env s).shown
  | startCover => exact (aside_startCover env s).shown
  | flushDebounce => exact shown_flushDebounce env s
  | pumpFire => exact (aside_pumpFire env s).shown
  | pumpSearch => exact (aside_pumpSearch env s).shown
  | pumpArtist => exact (aside_pumpArtist env s).shown
  | pumpQueue => exact shown_pumpQueue env s
  | pumpFact => exact (aside_pumpFact env s).shown
  | tickView => exact (aside_tickView env s).shown
  | startListen => exact (aside_startListen env s).shown
  | clickNext => exact shown_nextCommand env s
  | clickPlay => exact shown_clickPlay env s
  | setVolume value => exact shown_startCommand env _ _
  | seek frac span => exact shown_seek env s frac span
  | clickResult row => exact shown_clickResult env s row
  | clickQueue row => exact shown_playFrom env s _ row none
  | queueSelected row => exact (aside_queueSelected env s row).shown
  | runSearch query => exact (aside_runSearch env s query).shown
  | script cmd => exact shown_doScriptCmd env s cmd
  | audio _ _ | clickPrev | kickQueue | suspend => rfl

/-! ## The run and its log -/

/-- The largest positive `ts`, or `0`. -/
def maxTs (l : List CqNow) : Int := l.foldl (fun m n => max m n.ts) 0

theorem maxTs_append_singleton (l : List CqNow) (n : CqNow) :
    maxTs (l ++ [n]) = max (maxTs l) n.ts := by
  rw [maxTs, List.foldl_append]
  rfl

/-- `maxTs` bounds every `ts`, and it is one of them unless it is `0`. -/
theorem maxTs_spec (l : List CqNow) :
    0 ≤ maxTs l ∧ (∀ n ∈ l, n.ts ≤ maxTs l) ∧ (maxTs l = 0 ∨ ∃ n ∈ l, n.ts = maxTs l) := by
  induction l using List.reverseRecOn with
  | nil => exact ⟨Int.le_refl 0, by simp, Or.inl rfl⟩
  | append_singleton l n ih =>
      obtain ⟨hnonneg, hbound, hmem⟩ := ih
      rw [maxTs_append_singleton]
      refine ⟨by omega, ?_, ?_⟩
      · intro m hm
        rcases List.mem_append.1 hm with hm | hm
        · have := hbound m hm
          omega
        · rw [List.mem_singleton.1 hm]
          omega
      · by_cases h : maxTs l ≤ n.ts
        · exact Or.inr ⟨n, by simp, (Int.max_eq_right h).symm⟩
        · rw [Int.max_eq_left (by omega)]
          rcases hmem with hzero | ⟨m, hm, heq⟩
          · exact Or.inl hzero
          · exact Or.inr ⟨m, by simp [hm], heq⟩

/-- Since the last server change: the snapshots of the error-free replies heard, and of those
adopted, in order. -/
structure Log where
  heard : List CqNow
  adopted : List CqNow

/-- The snapshot a step hears. -/
def hears (s : Globals) (e : Event) : Option CqNow := (delivered s e).bind healthyReply

/-- The snapshot a step adopts. -/
def adopts (s : Globals) (e : Event) : Option CqNow :=
  (hears s e).filter fun n => (cqGuardAcceptTs s.shown.gGuard n.ts).1

/-- The log after a step from `s`. -/
def Log.next (log : Log) (s : Globals) (e : Event) : Log :=
  if resetsGuard s e then ⟨[], []⟩
  else
    { heard := log.heard ++ (hears s e).toList
      adopted := log.adopted ++ (adopts s e).toList }

/-- The globals with the log. -/
structure Observed where
  globals : Globals
  log : Log

/-- The machine, observed. -/
def Observed.step (o : Observed) (e : Event) : Option Observed :=
  some ⟨perform e.env o.globals e.act, o.log.next o.globals e⟩

/-- Nothing has been heard yet. -/
def observe (s : Globals) : Observed := ⟨s, ⟨[], []⟩⟩

/-- Observing a run does not change it. -/
theorem run_observed (events : List Event) (o : Observed) :
    (run Observed.step o events).map Observed.globals = run step o.globals events := by
  induction events generalizing o with
  | nil => rfl
  | cons e events ih => exact ih _

namespace Observed

/-- The mark is the largest `ts` heard; the adopted snapshots are in order of `ts`, where they have
one; the last of them is on show; and a mark above `0` is the `ts` on show, unless that has none. -/
structure Inv (o : Observed) : Prop where
  mark : o.globals.shown.gGuard.lastTs = maxTs o.log.heard
  adopted_le : ∀ n ∈ o.log.adopted, n.ts ≤ o.globals.shown.gGuard.lastTs
  sorted : (o.log.adopted.filter fun n => 0 < n.ts).Pairwise fun m n => m.ts ≤ n.ts
  last : ∀ n, o.log.adopted.getLast? = some n →
    ∃ v, o.globals.shown.gSnap = { n with volume := v }
  onShow : 0 < o.globals.shown.gGuard.lastTs →
    o.globals.shown.gSnap.ts ≤ 0 ∨ o.globals.shown.gSnap.ts = o.globals.shown.gGuard.lastTs

theorem inv_launch (host : CStr) (port : Nat) (autoStart qtOk : Bool) :
    (observe (launch host port autoStart qtOk)).Inv where
  mark := rfl
  adopted_le := fun _ h => by cases h
  sorted := List.Pairwise.nil
  last := fun _ h => by cases h
  onShow := fun h => absurd h (Int.lt_irrefl 0)

theorem Inv.nonneg {o : Observed} (h : o.Inv) : 0 ≤ o.globals.shown.gGuard.lastTs :=
  h.mark ▸ (maxTs_spec _).1

/-- A server change starts a new log. -/
theorem Inv.reset {o : Observed} {t : Globals}
    (ht : t.shown = { o.globals.shown with gGuard := cqGuardInit }) : (Observed.mk t ⟨[], []⟩).Inv where
  mark := by
    rw [ht]
    rfl
  adopted_le := fun _ h => by cases h
  sorted := List.Pairwise.nil
  last := fun _ h => by cases h
  onShow := fun h => by
    rw [ht] at h
    exact absurd h (Int.lt_irrefl 0)

/-- A step that hears nothing. -/
theorem Inv.silent {o : Observed} (h : o.Inv) {t : Globals} (ht : t.shown = o.globals.shown) :
    (Observed.mk t ⟨o.log.heard ++ [], o.log.adopted ++ []⟩).Inv := by
  simp only [List.append_nil]
  exact ⟨ht ▸ h.mark, ht ▸ h.adopted_le, h.sorted, ht ▸ h.last, ht ▸ h.onShow⟩

/-- A reply that is let through. -/
theorem Inv.adopt {o : Observed} (h : o.Inv) {env : Env} {n : CqNow} {t : Globals}
    (haccept : (cqGuardAcceptTs o.globals.shown.gGuard n.ts).1 = true)
    (ht : t.shown = adoptedShown env o.globals n) :
    (Observed.mk t ⟨o.log.heard ++ [n], o.log.adopted ++ [n]⟩).Inv := by
  have hpass := (cqGuardAcceptTs_fst h.nonneg n.ts).1 haccept
  have hguard : t.shown.gGuard = ⟨max o.globals.shown.gGuard.lastTs n.ts⟩ := by
    rw [ht, adoptedShown, cqGuardAcceptTs_snd h.nonneg]
  have hsnap : t.shown.gSnap = heldVolume env o.globals n := by rw [ht, adoptedShown]
  refine ⟨?_, ?_, ?_, ?_, ?_⟩
  · simp only [hguard, maxTs_append_singleton, h.mark]
  · intro m hm
    simp only [hguard]
    rcases List.mem_append.1 hm with hm | hm
    · -- the mark never falls, so the earlier ones stay below it
      have := h.adopted_le m hm
      omega
    · rw [List.mem_singleton.1 hm]
      omega
  · -- every positive `ts` before it is at most the mark, which it has met
    rw [List.filter_append, List.pairwise_append]
    refine ⟨h.sorted, ?_, ?_⟩
    · rw [List.filter_singleton]
      cases decide (0 < n.ts) <;> simp
    · intro m hm m' hm'
      simp only [List.mem_filter, List.mem_singleton, decide_eq_true_eq] at hm hm'
      have := h.adopted_le m hm.1
      rw [hm'.1]
      have := hm'.2
      rw [hm'.1] at this
      omega
  · intro m hm
    simp only [List.getLast?_append, List.getLast?_singleton, Option.some_or,
      Option.some.injEq] at hm
    rw [hsnap, ← hm, heldVolume]
    split
    · exact ⟨_, rfl⟩
    · exact ⟨n.volume, rfl⟩
  · intro hpos
    simp only [hguard] at hpos ⊢
    rw [hsnap, heldVolume_ts]
    omega

/-- A reply that is not let through. -/
theorem Inv.drop {o : Observed} (h : o.Inv) {n : CqNow} {t : Globals}
    (haccept : (cqGuardAcceptTs o.globals.shown.gGuard n.ts).1 = false)
    (ht : t.shown = o.globals.shown) :
    (Observed.mk t ⟨o.log.heard ++ [n], o.log.adopted ++ []⟩).Inv := by
  have hpass : ¬ (n.ts ≤ 0 ∨ o.globals.shown.gGuard.lastTs ≤ n.ts) := by
    rw [← cqGuardAcceptTs_fst h.nonneg, haccept]
    simp
  simp only [List.append_nil]
  refine ⟨?_, ht ▸ h.adopted_le, h.sorted, ht ▸ h.last, ht ▸ h.onShow⟩
  simp only [ht, maxTs_append_singleton, ← h.mark]
  omega

/-- **The invariant is kept** by every step. -/
theorem Inv.step {o o' : Observed} {e : Event} (h : o.Inv) (hstep : o.step e = some o') : o'.Inv := by
  cases hstep
  have hshown := shown_perform o.globals e
  rw [Log.next]
  by_cases hreset : resetsGuard o.globals e = true
  · -- a change of server drops the log with the mark
    rw [if_pos hreset] at hshown ⊢
    exact Inv.reset hshown
  · rw [if_neg hreset] at hshown ⊢
    cases hdel : delivered o.globals e with
    | none =>
        rw [hdel] at hshown
        simp only [adopts, hears, hdel]
        exact h.silent hshown
    | some data =>
        rw [hdel] at hshown
        simp only [adopts, hears, hdel, Option.bind_some]
        simp only [replyShown] at hshown
        cases hn : healthyReply data with
        | none =>
            rw [hn] at hshown
            exact h.silent hshown
        | some n =>
            simp only [hn] at hshown
            cases haccept : (cqGuardAcceptTs o.globals.shown.gGuard n.ts).1 with
            | true =>
                simp only [haccept, if_true] at hshown
                simp only [Option.filter_some, haccept, if_true]
                exact h.adopt haccept hshown
            | false =>
                simp only [haccept, Bool.false_eq_true, if_false] at hshown
                simp only [Option.filter_some, haccept, Bool.false_eq_true, if_false]
                refine h.drop haccept (hshown.trans ?_)
                have hnot : ¬ (n.ts ≤ 0 ∨ o.globals.shown.gGuard.lastTs ≤ n.ts) := by
                  rw [← cqGuardAcceptTs_fst h.nonneg, haccept]
                  simp
                rw [cqGuardAcceptTs_snd h.nonneg, Int.max_eq_left (by omega)]

theorem Inv.run {events : List Event} {o : Observed} (host : CStr) (port : Nat)
    (autoStart qtOk : Bool)
    (hrun : run Observed.step (observe (launch host port autoStart qtOk)) events = some o) : o.Inv :=
  run_invariant Inv (fun _ _ _ h hstep => Inv.step h hstep) (inv_launch host port autoStart qtOk) hrun

end Observed

/-! ## The laws of adoption -/

/-- A reply with an error key changes nothing on show. -/
theorem replyShown_of_error (env : Env) (s : Globals) {data : Bytes} (h : replyError data ≠ none) :
    replyShown env s data = s.shown := by
  obtain ⟨err, herr⟩ := Option.ne_none_iff_exists'.1 h
  simp only [replyShown, healthyReply, herr]

/-- A reply whose positive `ts` is below the mark changes nothing on show. -/
theorem replyShown_of_stale (env : Env) (s : Globals) {data : Bytes} {n : CqNow}
    (h : healthyReply data = some n) (hpos : 0 < n.ts) (hstale : n.ts < s.shown.gGuard.lastTs) :
    replyShown env s data = s.shown := by
  have hreject : cqGuardAcceptTs s.shown.gGuard n.ts = (false, s.shown.gGuard) := by
    rw [cqGuardAcceptTs, if_neg (by omega), if_pos (by omega)]
  simp only [replyShown, h, hreject, Bool.false_eq_true, if_false]

/-- A reply without a positive `ts` is adopted and leaves the mark. -/
theorem replyShown_of_no_ts (env : Env) (s : Globals) {data : Bytes} {n : CqNow}
    (h : healthyReply data = some n) (hts : n.ts ≤ 0) :
    (replyShown env s data).gSnap = heldVolume env s n ∧ (replyShown env s data).gHaveSnap = true ∧
      (replyShown env s data).gGuard = s.shown.gGuard := by
  have haccept : cqGuardAcceptTs s.shown.gGuard n.ts = (true, s.shown.gGuard) := by
    rw [cqGuardAcceptTs, if_pos hts]
  simp only [replyShown, h, haccept, if_true, adoptedShown, and_self]

/-- **The law of adoption.** In every run, with the log taken since the last server change: the mark is
the largest positive `ts` heard in an error-free reply; adopted snapshots with a `ts` never go back in
time, and the last one adopted is on show; a reply with an error key, or with a positive `ts` below the
mark, leaves all that is shown as it is; and one without a positive `ts` is adopted without moving the
mark. -/
theorem adoption_law (host : CStr) (port : Nat) (autoStart qtOk : Bool) {events : List Event}
    {o : Observed}
    (hrun : run Observed.step (observe (launch host port autoStart qtOk)) events = some o) :
    o.globals.shown.gGuard.lastTs = maxTs o.log.heard ∧
      ((o.log.adopted.filter fun n => 0 < n.ts).Pairwise fun m n => m.ts ≤ n.ts) ∧
      (∀ n, o.log.adopted.getLast? = some n → ∃ v, o.globals.shown.gSnap = { n with volume := v }) ∧
      ∀ (env : Env) (data : Bytes) (isCmd : Bool),
        (replyError data ≠ none →
          (adoptReply env o.globals data isCmd).shown = o.globals.shown) ∧
        ∀ n, healthyReply data = some n →
          (0 < n.ts → n.ts < o.globals.shown.gGuard.lastTs →
            (adoptReply env o.globals data isCmd).shown = o.globals.shown) ∧
          (n.ts ≤ 0 →
            (adoptReply env o.globals data isCmd).shown.gSnap = heldVolume env o.globals n ∧
              (adoptReply env o.globals data isCmd).shown.gHaveSnap = true ∧
              (adoptReply env o.globals data isCmd).shown.gGuard = o.globals.shown.gGuard) := by
  have h := Observed.Inv.run host port autoStart qtOk hrun
  refine ⟨h.mark, h.sorted, h.last, ?_⟩
  intro env data isCmd
  -- what a reply does to the display is known from the reply and the guard
  rw [shown_adoptReply]
  exact ⟨replyShown_of_error env _, fun n hn =>
    ⟨replyShown_of_stale env _ hn, replyShown_of_no_ts env _ hn⟩⟩

/-- A world at a tick in which every transaction in flight reports the same. -/
def worldAt (tick : BitVec 32) (report : TxPoll) : Env :=
  { tick := tick
    alloc := fun _ => true
    poll := fun _ => report
    decodes := fun _ => false }

/-- A poll is started, and its reply is adopted. -/
def firstPoll : List Event :=
  [⟨worldAt 1000 .running, .pollNow⟩,
    ⟨worldAt 1001 (.done (ascii "state\tplaying\nts\t2000\n")), .pollNow⟩]

/-- A poll and its reply. -/
def polled (tick : BitVec 32) (reply : Bytes) : List Event :=
  [⟨worldAt tick .running, .pollNow⟩, ⟨worldAt (tick + 1) (.done reply), .pollNow⟩]

/-- An error, a snapshot from before the first one, and a snapshot without a `ts`. -/
def mixedReplies : List Event :=
  polled 2000 (ascii "error\tupstream\n") ++ polled 3000 (ascii "state\tpaused\nts\t1500\n") ++
    polled 4000 (ascii "state\tpaused\nvolume\t40\n")

/-- The client once it has heard them, behind the first poll. -/
def mixedPolls : Observed :=
  (run Observed.step (observe (launch (.lit "192.0.2.10") 70 false false))
    (firstPoll ++ mixedReplies)).get (by decide +kernel)

theorem adoption_law_sample :
    mixedPolls.log.heard.map CqNow.ts = [2000, 1500, 0] ∧ mixedPolls.log.adopted.map CqNow.ts = [2000, 0] ∧
      mixedPolls.globals.shown.gGuard.lastTs = maxTs mixedPolls.log.heard ∧
      (adoptReply (worldAt 5000 .running) mixedPolls.globals (ascii "error\tupstream\n") false).shown =
        mixedPolls.globals.shown ∧
      (adoptReply (worldAt 5000 .running) mixedPolls.globals (ascii "state\tplaying\nts\t1999\n") true).shown =
        mixedPolls.globals.shown ∧
      (adoptReply (worldAt 5000 .running) mixedPolls.globals (ascii "state\tplaying\n") true).shown.gGuard =
        mixedPolls.globals.shown.gGuard := by
  have hrun : run Observed.step (observe (launch (.lit "192.0.2.10") 70 false false))
      (firstPoll ++ mixedReplies) = some mixedPolls := (Option.some_get _).symm
  obtain ⟨hmark, -, -, hreply⟩ := adoption_law (.lit "192.0.2.10") 70 false false hrun
  refine ⟨by decide +kernel, by decide +kernel, hmark, ?_, ?_, ?_⟩
  · exact (hreply _ _ false).1 (by decide +kernel)
  · exact ((hreply _ _ true).2 (cqNowFromResponse (ascii "state\tplaying\nts\t1999\n"))
      (by decide +kernel)).1 (by decide +kernel) (by decide +kernel)
  · exact (((hreply _ _ true).2 (cqNowFromResponse (ascii "state\tplaying\n"))
      (by decide +kernel)).2 (by decide +kernel)).2.2

/-! ## After an outage -/

/-- **When a reply is adopted, over whole runs.** The next error-free reply, the first one after an
outage like any other, is adopted if and only if it has no positive `ts`, or a `ts` that has caught up
with every error-free reply heard since the last server change. -/
theorem adopted_iff_caught_up (host : CStr) (port : Nat) (autoStart qtOk : Bool)
    {events : List Event} {o : Observed}
    (hrun : run Observed.step (observe (launch host port autoStart qtOk)) events = some o)
    {e : Event} {n : CqNow} (hears_n : hears o.globals e = some n) :
    (perform e.env o.globals e.act).shown.gSnap = heldVolume e.env o.globals n ↔
      n.ts ≤ 0 ∨ ∀ m ∈ o.log.heard, m.ts ≤ n.ts := by
  have h := Observed.Inv.run host port autoStart qtOk hrun
  obtain ⟨-, hbound, hmem⟩ := maxTs_spec o.log.heard
  obtain ⟨data, hdel, hdata⟩ := Option.bind_eq_some_iff.1 hears_n
  have hreset : resetsGuard o.globals e = false := by
    obtain ⟨env, act⟩ := e
    cases act <;> first | rfl | cases hdel
  have hshown := shown_perform o.globals e
  simp only [hreset, Bool.false_eq_true, if_false, hdel, replyShown, hdata] at hshown
  have hcaught : (n.ts ≤ 0 ∨ ∀ m ∈ o.log.heard, m.ts ≤ n.ts) ↔
      (cqGuardAcceptTs o.globals.shown.gGuard n.ts).1 = true := by
    rw [cqGuardAcceptTs_fst h.nonneg, h.mark]
    constructor
    · rintro (hts | hall)
      · exact Or.inl hts
      · rcases hmem with hzero | ⟨m, hm, heq⟩
        · omega
        · exact Or.inr (heq ▸ hall m hm)
    · rintro (hts | hmark)
      · exact Or.inl hts
      · exact Or.inr fun m hm => Int.le_trans (hbound m hm) hmark
  rw [hcaught, hshown]
  cases haccept : (cqGuardAcceptTs o.globals.shown.gGuard n.ts).1 with
  | true => simp only [if_true, adoptedShown]
  | false =>
      -- a dropped reply has a positive `ts` below the mark, which is not the `ts` on show
      simp only [Bool.false_eq_true, if_false, iff_false]
      intro heq
      have hts := congrArg CqNow.ts heq
      rw [heldVolume_ts] at hts
      have hstale : ¬ (n.ts ≤ 0 ∨ o.globals.shown.gGuard.lastTs ≤ n.ts) := by
        rw [← cqGuardAcceptTs_fst h.nonneg, haccept]
        simp
      rcases h.onShow (by omega) with hnone | hmark <;> omega

/-- The backend dies after the first reply, and comes back with its clock set back. -/
def outage : List Event :=
  firstPoll ++
    [⟨worldAt 2000 .running, .pollNow⟩,
      ⟨worldAt 2001 (.failed (.lit "Connect failed to")), .pollNow⟩,
      ⟨worldAt 4000 .running, .pollNow⟩]

/-- The first reply after the outage. -/
def backOnline : Event :=
  ⟨worldAt 4001 (.done (ascii "state\tpaused\nts\t1000\n")), .pollNow⟩

theorem adopted_iff_caught_up_sample :
    ¬ ((perform backOnline.env ((run Observed.step (observe (launch (.lit "192.0.2.10") 70 false false))
        outage).get rfl).globals backOnline.act).shown.gSnap =
      heldVolume backOnline.env ((run Observed.step
        (observe (launch (.lit "192.0.2.10") 70 false false)) outage).get rfl).globals
        (cqNowFromResponse (ascii "state\tpaused\nts\t1000\n"))) := by
  rw [adopted_iff_caught_up (.lit "192.0.2.10") 70 false false (Option.some_get rfl).symm
    (by decide +kernel)]
  decide +kernel

/-- **A clock reset locks adoption out.** The poll goes offline and recovers, and the first error-free
reply after that is not adopted. -/
theorem clock_reset_locks_out :
    (run step (launch (.lit "192.0.2.10") 70 false false) (outage.take 4)).map
        (fun s => (s.gOnline, s.shown.gSnap.ts)) = some (false, 2000) ∧
      (run step (launch (.lit "192.0.2.10") 70 false false) (outage ++ [backOnline])).map
        (fun s => (s.gOnline, s.shown.gSnap.state, s.shown.gSnap.ts)) = some (true, .playing, 2000) ∧
      (healthyReply (ascii "state\tpaused\nts\t1000\n")).map CqNow.ts = some 1000 := by
  decide +kernel

end Casquinha.App
