import Casquinha.App.Writes
import Casquinha.Lib.Ring

/-!
# The poll cadence (`src/cq_backoff.c`, `PumpTx`, `PollNetwork`)

The backoff waits `base * 2 ^ k`, capped, after `k` failures in a row, and its jitter only ever waits
longer (`cqBackoff_law`). One backoff is driven by the poll and by the commands; `gLastPoll` is
written where a poll starts and where a command is answered. Over any run without a resume or a change
of server, a `/now` poll starts no sooner than the interval of the failures counted so far after the
last poll and after the last answered command (`poll_cadence`).

The run carries what the law speaks of: the time, the failures since the last error-free reply, and
when a poll last started and a command was last answered. `TickCount` shows the low 32 bits of the
time, and the bound survives its wrap because a difference of ticks is never more than the time that
has passed.
-/

set_option autoImplicit false

namespace Casquinha.App

open Lib Wire

/-! ## The backoff -/

/-- What happens to a backoff. -/
inductive BackoffOp where
  | ok
  | fail

/-- `cq_backoff_ok` or `cq_backoff_fail`. -/
def BackoffOp.perform (b : CqBackoff) : BackoffOp → CqBackoff
  | .ok => cqBackoffOk b
  | .fail => cqBackoffFail b

/-- The failures since the last success. -/
def BackoffOp.count (k : Nat) : BackoffOp → Nat
  | .ok => 0
  | .fail => k + 1

/-- The backoff after `k` failures in a row. -/
def backedOff (base cap : Int) (k : Nat) : CqBackoff where
  base := base
  cap := cap
  current := min cap (base * 2 ^ k)

section Backoff

variable {base cap : Int}

theorem cqBackoffInit_eq (hbase : 1 ≤ base) (hcap : base ≤ cap) :
    cqBackoffInit base cap = backedOff base cap 0 := by
  have h1 : ¬ base < 1 := by omega
  have h2 : ¬ cap < base := by omega
  simp [cqBackoffInit, backedOff, h1, h2, hcap]

theorem cqBackoffOk_backedOff (hcap : base ≤ cap) (k : Nat) :
    cqBackoffOk (backedOff base cap k) = backedOff base cap 0 := by
  simp [cqBackoffOk, backedOff, hcap]

/-- Doubling below the cap, twice clamped, is doubling and then the cap. -/
theorem clamp_double {x : Int} (hx : 0 < x) (hcap : 0 < cap) :
    (let next := min cap x * 2
     let next := if cap < next then cap else next
     if next < min cap x then cap else next) = min cap (x * 2) := by
  rcases le_total cap x with hle | hle
  · -- the cap has been reached, and the interval stays there
    have hover : cap < cap * 2 := by omega
    rw [min_eq_left hle, min_eq_left (by omega)]
    simp only [if_pos hover, lt_irrefl, if_false]
  · -- below the cap the clamp of the source is what keeps the double under it
    rw [min_eq_right hle]
    by_cases hover : cap < x * 2
    · simp only [if_pos hover]
      rw [min_eq_left (by omega), if_neg (by omega)]
    · simp only [if_neg hover]
      rw [min_eq_right (by omega), if_neg (by omega)]

/-- A failure doubles the interval, up to the cap. -/
theorem cqBackoffFail_backedOff (hbase : 1 ≤ base) (hcap : base ≤ cap) (k : Nat) :
    cqBackoffFail (backedOff base cap k) = backedOff base cap (k + 1) := by
  have hpos : 0 < base * 2 ^ k := Int.mul_pos (by omega) (Int.pow_pos (by decide))
  have hdouble : base * 2 ^ (k + 1) = base * 2 ^ k * 2 := by rw [pow_succ, mul_assoc]
  rw [backedOff, backedOff, hdouble, ← clamp_double hpos (by omega)]
  rfl

/-- The jitter waits up to a quarter longer, whatever the seed. -/
theorem cqBackoffIntervalSeeded_bounds {b : CqBackoff} (h : 0 ≤ b.current) (seed : BitVec 32) :
    cqBackoffInterval b ≤ cqBackoffIntervalSeeded b seed ∧
      cqBackoffIntervalSeeded b seed ≤ cqBackoffInterval b + cqBackoffInterval b / 4 := by
  -- `current / 4` of the source truncates, which is the floor from zero on
  have hspan : b.current.tdiv 4 = b.current / 4 := Int.tdiv_eq_ediv_of_nonneg h
  simp only [cqBackoffInterval, cqBackoffIntervalSeeded, hspan]
  split
  · omega
  · next hpos =>
    have hmod := Nat.mod_lt (seed * 2654435761 + 40503 : BitVec 32).toNat
      (show 0 < (b.current / 4 + 1).toNat by omega)
    omega

/-- Any history leaves the backoff of its last failures. -/
theorem foldl_perform_backedOff (hbase : 1 ≤ base) (hcap : base ≤ cap) (history : List BackoffOp)
    (k : Nat) : history.foldl BackoffOp.perform (backedOff base cap k) =
      backedOff base cap (history.foldl BackoffOp.count k) := by
  induction history generalizing k with
  | nil => rfl
  | cons op history ih =>
      rw [List.foldl_cons, List.foldl_cons]
      cases op with
      -- a success forgets the failures, a failure counts one more
      | ok =>
          rw [BackoffOp.perform, cqBackoffOk_backedOff hcap]
          exact ih 0
      | fail =>
          rw [BackoffOp.perform, cqBackoffFail_backedOff hbase hcap]
          exact ih (k + 1)

/-- **The law of the backoff.** With a cap that can be doubled, no value leaves the range of a `long`. -/
theorem cqBackoff_law (hbase : 1 ≤ base) (hcap : base ≤ cap) {longMax : Int}
    (hmax : cap ≤ longMax / 2) (history : List BackoffOp) :
    let b := history.foldl BackoffOp.perform (cqBackoffInit base cap)
    cqBackoffInterval b = min cap (base * 2 ^ history.foldl BackoffOp.count 0) ∧
      (∀ seed, cqBackoffInterval b ≤ cqBackoffIntervalSeeded b seed ∧
        cqBackoffIntervalSeeded b seed ≤ cqBackoffInterval b + cqBackoffInterval b / 4) ∧
      cqBackoffInterval b * 2 ≤ longMax ∧
      cqBackoffInterval b + cqBackoffInterval b / 4 ≤ longMax := by
  intro b
  have hb : b = backedOff base cap (history.foldl BackoffOp.count 0) := by
    show history.foldl BackoffOp.perform (cqBackoffInit base cap) = _
    rw [cqBackoffInit_eq hbase hcap, foldl_perform_backedOff hbase hcap]
  -- the interval is known in closed form, and both bounds follow from the cap
  have hcurrent : cqBackoffInterval b = min cap (base * 2 ^ history.foldl BackoffOp.count 0) := by
    rw [hb]
    rfl
  have hpos : 0 ≤ cqBackoffInterval b := by
    rw [hcurrent]
    exact le_min (by omega) (Int.mul_pos (by omega) (Int.pow_pos (by decide))).le
  have hle : cqBackoffInterval b ≤ cap := by
    rw [hcurrent]
    exact min_le_left _ _
  exact ⟨hcurrent, cqBackoffIntervalSeeded_bounds hpos, by omega, by omega⟩

end Backoff

/-! ## Time and history -/

/-- An event and the time at which it happens. -/
structure TimedEvent where
  time : Nat
  event : Event

/-- The event as the program meets it: `TickCount` is the low 32 bits of the time. -/
def TimedEvent.seen (x : TimedEvent) : Event :=
  { x.event with env := { x.event.env with tick := BitVec.ofNat 32 x.time } }

/-- The machine, on events that carry their time. -/
def timedStep (s : Globals) (x : TimedEvent) : Option Globals := step s x.seen

/-- The transaction that `PumpTx` advances in the step: whether it is a command, and its report. -/
def advanced (s : Globals) (e : Event) : Option (Bool × TxPoll) :=
  match e.act with
  | .pumpCmd => s.probe.gCmd.map fun tx => (true, e.env.poll tx.id)
  | .pollNow => s.gTx.map fun tx => (false, e.env.poll tx.id)
  | _ => none

/-- The error document that `AdoptReply` does not charge. -/
def isUncharged (s : Globals) (isCmd : Bool) (err : CStr) : Bool :=
  err = .lit "rate_limited" || takesFallback s isCmd err

/-- The failures after a report, `k` before it. -/
def failsAfter (s : Globals) (k : Nat) : Bool × TxPoll → Nat
  | (_, .running) => k
  | (_, .failed _) => k + 1
  | (isCmd, .done data) =>
      match replyError data with
      | none => 0
      | some err => if isUncharged s isCmd err then k else k + 1

/-- The step answers a command. -/
def answersCmd (s : Globals) (e : Event) : Bool :=
  match advanced s e with
  | some (true, .done _) => true
  | _ => false

/-- The step starts a poll. -/
def startsPoll (s : Globals) (e : Event) : Bool :=
  match e.act with
  | .pollNow => s.gTx.isNone && (pollNow e.env s).gTx.isSome
  | _ => false

/-- What the cadence depends on. -/
structure PollLog where
  /-- The time of the last step. -/
  now : Nat
  /-- The failures charged since the last error-free reply. -/
  fails : Nat
  /-- When a `/now` poll last started. -/
  lastPoll : Option Nat
  /-- When a command was last answered. -/
  lastReply : Option Nat

/-- The log after a step. -/
def notePoll (log : PollLog) (s : Globals) (x : TimedEvent) : PollLog where
  now := x.time
  fails := ((advanced s x.seen).map (failsAfter s log.fails)).getD log.fails
  lastPoll := if startsPoll s x.seen then some x.time else log.lastPoll
  lastReply := if answersCmd s x.seen then some x.time else log.lastReply

/-- Time does not go back, and the step is neither a resume nor a change of server. -/
def Unforced (y : Traced Globals PollLog) (x : TimedEvent) : Prop :=
  y.log.now ≤ x.time ∧ resetsGuard y.state x.seen = false ∧
    ∀ host port, x.event.act ≠ .resume host port

/-- The ticks between polls after `k` failures. -/
def pollGap (k : Nat) : Nat := min 1800 (120 * 2 ^ k)

/-- A poll that starts, starts a gap after the last poll and after the last answered command. -/
def Spaced (y : Traced Globals PollLog) (x : TimedEvent) : Prop :=
  startsPoll y.state x.seen = true →
    ∀ t, y.log.lastPoll = some t ∨ y.log.lastReply = some t → t + pollGap y.log.fails ≤ x.time

/-! ## One step -/

/-- Neither the backoff nor the mark of the last poll is touched. -/
structure Paced (s t : Globals) : Prop where
  lastPoll : t.gLastPoll = s.gLastPoll
  backoff : t.gBackoff = s.gBackoff

theorem Paced.trans {s t u : Globals} (h : Paced s t) (h' : Paced t u) : Paced s u :=
  ⟨h'.lastPoll.trans h.lastPoll, h'.backoff.trans h.backoff⟩

theorem Asks.paced {s t : Globals} (h : Asks s t) : Paced s t :=
  ⟨h.frame Globals.gLastPoll rfl, h.frame Globals.gBackoff rfl⟩

/-- What is no reply, no poll and no resume leaves the pace alone. -/
theorem paced_perform {env : Env} {s : Globals} {act : Act}
    (h : resetsGuard s ⟨env, act⟩ = false) (haside : drivesPoll act = false) :
    Paced s (perform env s act) := by
  have hwritten := writtenAside_perform h haside
  constructor
  · rw [← hwritten]
    rfl
  · rw [← hwritten]
    rfl

/-- An error document that is charged fails the backoff. -/
theorem pace_adoptError (env : Env) (s : Globals) (isCmd : Bool) (err : CStr) :
    (adoptError env s isCmd err).gLastPoll = s.gLastPoll ∧
      (adoptError env s isCmd err).gBackoff =
        if isUncharged s isCmd err then s.gBackoff else cqBackoffFail s.gBackoff := by
  rw [adoptError, isUncharged]
  by_cases hbusy : err = .lit "rate_limited"
  · rw [if_pos hbusy]
    simp [hbusy]
  · rw [if_neg hbusy]
    by_cases hfall : takesFallback s isCmd err = true
    · -- the fire that replays the click is an action like any other
      obtain ⟨hlast, hback⟩ := (asks_startFire env
        { s with
          probe :=
            { s.probe with
              gNativePlay := .notFound
              gFallbackUri := .empty } }
        (fallbackSel s.probe.gFallbackUri)).paced
      rw [if_pos hfall, fallBack, hlast, hback]
      simp [hfall]
    · -- any other error is charged
      rw [if_neg hfall]
      simp [hbusy, hfall]

/-- A reply without an error key resets the backoff, be it stale or not. -/
theorem pace_adoptHealthy (env : Env) (s : Globals) (isCmd : Bool) (f : CqFields) :
    (adoptHealthy env s isCmd f).gLastPoll = s.gLastPoll ∧
      (adoptHealthy env s isCmd f).gBackoff = cqBackoffOk s.gBackoff := by
  have hanswer : Paced s (answerProbe s isCmd) := by
    rw [answerProbe]
    split <;> exact ⟨rfl, rfl⟩
  simp only [adoptHealthy]
  split
  · -- a fresh snapshot is adopted behind the reset
    obtain ⟨hlast, hback⟩ := (asks_adoptSnapshot env _ (cqNowFromFields f)).paced
    rw [hlast, hback]
    exact ⟨hanswer.lastPoll, congrArg cqBackoffOk hanswer.backoff⟩
  · exact ⟨hanswer.lastPoll, congrArg cqBackoffOk hanswer.backoff⟩

/-- A reply settles the backoff by its error key, and leaves the mark of the last poll alone. -/
theorem pace_adoptReply (env : Env) (s : Globals) (data : Bytes) (isCmd : Bool) :
    (adoptReply env s data isCmd).gLastPoll = s.gLastPoll ∧
      (adoptReply env s data isCmd).gBackoff =
        match replyError data with
        -- the redraw at the end of `AdoptReply` leaves the pace alone
        | none => cqBackoffOk s.gBackoff
        | some err =>
            if isUncharged s isCmd err then s.gBackoff else cqBackoffFail s.gBackoff := by
  rw [adoptReply]
  cases replyError data with
  | none =>
      obtain ⟨hlast, hback⟩ := (asks_redraw env
        (adoptHealthy env { s with gOnline := true } isCmd (replyFields data))).paced
      rw [hlast, hback]
      exact pace_adoptHealthy env { s with gOnline := true } isCmd (replyFields data)
  | some err =>
      obtain ⟨hlast, hback⟩ := (asks_redraw env
        (adoptError env { s with gOnline := true } isCmd err)).paced
      rw [hlast, hback]
      exact pace_adoptError env { s with gOnline := true } isCmd err

/-- The backoff after a report. -/
def backoffAfter (s : Globals) : Bool × TxPoll → CqBackoff
  | (_, .running) => s.gBackoff
  | (_, .failed _) => cqBackoffFail s.gBackoff
  | (isCmd, .done data) =>
      match replyError data with
      | none => cqBackoffOk s.gBackoff
      | some err => if isUncharged s isCmd err then s.gBackoff else cqBackoffFail s.gBackoff

theorem backoffAfter_eq {s : Globals} {k : Nat}
    (h : s.gBackoff = backedOff cqPollTicks cqPollCap k) (report : Bool × TxPoll) :
    backoffAfter s report = backedOff cqPollTicks cqPollCap (failsAfter s k report) := by
  -- both kinds of failure are charged the same
  have hfail : cqBackoffFail s.gBackoff = backedOff cqPollTicks cqPollCap (k + 1) := by
    rw [h]
    exact cqBackoffFail_backedOff (by decide) (by decide) k
  obtain ⟨isCmd, poll⟩ := report
  cases poll with
  | running => exact h
  | failed message => exact hfail
  | done data =>
      rw [backoffAfter, failsAfter]
      cases replyError data with
      | none =>
          rw [h]
          exact cqBackoffOk_backedOff (by decide) k
      | some err =>
          by_cases hfree : isUncharged s isCmd err = true
          · simp only [if_pos hfree]
            exact h
          · simp only [if_neg hfree]
            exact hfail

theorem pace_pumpCmd (env : Env) (s : Globals) :
    (pumpCmd env s).gLastPoll = (if answersCmd s ⟨env, .pumpCmd⟩ then env.tick else s.gLastPoll) ∧
      (pumpCmd env s).gBackoff =
        ((advanced s ⟨env, .pumpCmd⟩).map (backoffAfter s)).getD s.gBackoff := by
  cases htx : s.probe.gCmd with
  -- without a command nothing is advanced and nothing is reported
  | none =>
      have hidle : advanced s ⟨env, .pumpCmd⟩ = none := by rw [advanced, htx]; rfl
      rw [pumpCmd, htx, answersCmd, hidle]
      exact ⟨rfl, rfl⟩
  | some tx =>
      have hreport : advanced s ⟨env, .pumpCmd⟩ = some (true, env.poll tx.id) := by
        rw [advanced, htx]
        rfl
      rw [pumpCmd, htx, answersCmd, hreport]
      dsimp only
      cases env.poll tx.id with
      | running => exact ⟨rfl, rfl⟩
      | done data => exact ⟨rfl, (pace_adoptReply env s data true).2⟩
      | failed message =>
          exact ⟨(asks_redraw env _).paced.lastPoll, (asks_redraw env _).paced.backoff⟩

/-- A poll in flight is advanced; no poll starts beside it. -/
theorem pace_pumpPoll (env : Env) {s : Globals} (h : s.gTx.isSome = true) :
    (pollNow env s).gLastPoll = s.gLastPoll ∧
      (pollNow env s).gBackoff =
        ((advanced s ⟨env, .pollNow⟩).map (backoffAfter s)).getD s.gBackoff := by
  obtain ⟨tx, htx⟩ := Option.isSome_iff_exists.1 h
  have hreport : advanced s ⟨env, .pollNow⟩ = some (false, env.poll tx.id) := by
    rw [advanced, htx]
    rfl
  rw [pollNow, if_pos h, pumpPoll, htx, hreport]
  dsimp only
  cases env.poll tx.id with
  | running => exact ⟨rfl, rfl⟩
  | done data => exact pace_adoptReply env s data false
  | failed message =>
      exact ⟨(asks_redraw env _).paced.lastPoll, (asks_redraw env _).paced.backoff⟩

/-- With no poll in flight one is started when it is due, and the mark is moved, or nothing happens. -/
theorem startPoll_cases (env : Env) {s : Globals} (h : s.gTx = none) :
    (pollNow env s).gBackoff = s.gBackoff ∧
      ((pollNow env s).gLastPoll = env.tick ∧
          cqBackoffIntervalSeeded s.gBackoff env.tick ≤ (env.tick - s.gLastPoll).toNat ∨
        (pollNow env s).gLastPoll = s.gLastPoll ∧ startsPoll s ⟨env, .pollNow⟩ = false) := by
  have hidle : ¬ s.gTx.isSome = true := by simp [h]
  rw [startsPoll, pollNow, if_neg hidle, startPoll]
  split
  · -- it is due: the mark is moved, also when there is no memory for the transaction
    next hdue => exact ⟨rfl, Or.inl ⟨rfl, hdue.2⟩⟩
  · exact ⟨rfl, Or.inr ⟨rfl, by simp [h]⟩⟩

/-! ## Every run -/

/-- A difference of ticks is no more than the time that has passed, however often the counter has
wrapped. -/
theorem toNat_ticks_le {now mark : Nat} (h : mark ≤ now) :
    (BitVec.ofNat 32 now - BitVec.ofNat 32 mark).toNat ≤ now - mark := by
  rw [ofNat_sub_ofNat h, BitVec.toNat_ofNat]
  exact Nat.mod_le _ _

/-- The backoff stands for the failures counted, and the mark for a time at or after the last poll and
the last answered command. -/
structure KeepsPace (y : Traced Globals PollLog) : Prop where
  backoff : y.state.gBackoff = backedOff cqPollTicks cqPollCap y.log.fails
  mark : ∃ marked, marked ≤ y.log.now ∧ y.state.gLastPoll = BitVec.ofNat 32 marked ∧
    ∀ t, y.log.lastPoll = some t ∨ y.log.lastReply = some t → t ≤ marked

/-- The run starts with no failure, no poll and no command. -/
def PollLog.start : PollLog where
  now := 0
  fails := 0
  lastPoll := none
  lastReply := none

theorem keepsPace_launch (host : CStr) (port : Nat) (autoStart qtOk : Bool) :
    KeepsPace ⟨launch host port autoStart qtOk, .start⟩ where
  backoff := cqBackoffInit_eq (by decide) (by decide)
  mark := ⟨0, le_refl 0, rfl, fun t ht => by rcases ht with ht | ht <;> cases ht⟩

/-- An action that does not drive the poll is not logged. -/
theorem unlogged_of_aside {s : Globals} {e : Event} (h : drivesPoll e.act = false) :
    advanced s e = none ∧ startsPoll s e = false ∧ answersCmd s e = false := by
  obtain ⟨env, act⟩ := e
  cases act with
  | pumpCmd => cases h
  | pollNow => cases h
  | resume host port => cases h
  | _ => exact ⟨rfl, rfl, rfl⟩

section Step

variable {y : Traced Globals PollLog} {time : Nat} {env : Env}

/-- The mark stays: whatever was logged before is behind it, and nothing is logged now. -/
theorem KeepsPace.mark_stays (h : KeepsPace y) (htime : y.log.now ≤ time) {t : Globals}
    (ht : t.gLastPoll = y.state.gLastPoll) :
    ∃ marked, marked ≤ time ∧ t.gLastPoll = BitVec.ofNat 32 marked ∧
      ∀ u, y.log.lastPoll = some u ∨ y.log.lastReply = some u → u ≤ marked := by
  obtain ⟨marked, hle, hmark, hbefore⟩ := h.mark
  exact ⟨marked, hle.trans htime, ht.trans hmark, hbefore⟩

/-- The mark moves to now, which is behind nothing that is logged. -/
theorem KeepsPace.mark_moves (h : KeepsPace y) (htime : y.log.now ≤ time) (log : PollLog)
    (hlog : ∀ u, log.lastPoll = some u ∨ log.lastReply = some u →
      u = time ∨ y.log.lastPoll = some u ∨ y.log.lastReply = some u) :
    ∀ u, log.lastPoll = some u ∨ log.lastReply = some u → u ≤ time := by
  obtain ⟨marked, hle, -, hbefore⟩ := h.mark
  intro u hu
  rcases hlog u hu with rfl | hu
  · exact le_refl u
  · exact (hbefore u hu).trans (hle.trans htime)

theorem KeepsPace.pumpCmd (h : KeepsPace y) (htime : y.log.now ≤ time)
    (htick : env.tick = BitVec.ofNat 32 time) (x : TimedEvent)
    (hx : x.seen = ⟨env, .pumpCmd⟩) (hxt : x.time = time) :
    KeepsPace ⟨App.pumpCmd env y.state, notePoll y.log y.state x⟩ := by
  obtain ⟨hlast, hback⟩ := pace_pumpCmd env y.state
  have hstarts : startsPoll y.state ⟨env, .pumpCmd⟩ = false := rfl
  constructor
  · rw [hback]
    simp only [notePoll, hx]
    cases advanced y.state ⟨env, .pumpCmd⟩ with
    | none => exact h.backoff
    | some report => exact backoffAfter_eq h.backoff report
  · simp only [notePoll, hx, hstarts, hxt, Bool.false_eq_true, if_false]
    by_cases hans : answersCmd y.state ⟨env, .pumpCmd⟩ = true
    · -- the answer is the fresh snapshot: the next poll is a full gap away
      rw [if_pos hans] at hlast
      refine ⟨time, le_refl time, hlast.trans htick, ?_⟩
      intro u hu
      rw [if_pos hans] at hu
      refine h.mark_moves htime { y.log with lastReply := some time } ?_ u hu
      rintro v (hv | hv)
      · exact Or.inr (Or.inl hv)
      · exact Or.inl (Option.some.inj hv).symm
    · rw [if_neg hans] at hlast
      simp only [if_neg hans]
      exact h.mark_stays htime hlast

theorem KeepsPace.pollNow (h : KeepsPace y) (htime : y.log.now ≤ time)
    (htick : env.tick = BitVec.ofNat 32 time) (x : TimedEvent)
    (hx : x.seen = ⟨env, .pollNow⟩) (hxt : x.time = time) :
    KeepsPace ⟨App.pollNow env y.state, notePoll y.log y.state x⟩ := by
  by_cases htx : y.state.gTx.isSome = true
  · -- a poll in flight: its report is charged, and the mark stays
    obtain ⟨hlast, hback⟩ := pace_pumpPoll env htx
    have hstarts : startsPoll y.state ⟨env, .pollNow⟩ = false := by
      rw [startsPoll, Option.isNone_eq_false_iff.2 htx]
      rfl
    have hans : answersCmd y.state ⟨env, .pollNow⟩ = false := by
      obtain ⟨tx, hsome⟩ := Option.isSome_iff_exists.1 htx
      simp only [answersCmd, advanced, hsome, Option.map_some]
    constructor
    · rw [hback]
      simp only [notePoll, hx]
      cases advanced y.state ⟨env, .pollNow⟩ with
      | none => exact h.backoff
      | some report => exact backoffAfter_eq h.backoff report
    · simp only [notePoll, hx, hstarts, hans, hxt, Bool.false_eq_true, if_false]
      exact h.mark_stays htime hlast
  · have hnone : y.state.gTx = none := by simpa using htx
    have hidle : advanced y.state ⟨env, .pollNow⟩ = none := by
      simp only [advanced, hnone, Option.map_none]
    have hans : answersCmd y.state ⟨env, .pollNow⟩ = false := by rw [answersCmd, hidle]
    obtain ⟨hback, hcase⟩ := startPoll_cases env hnone
    constructor
    · rw [hback]
      simp only [notePoll, hx, hidle, Option.map_none, Option.getD_none]
      exact h.backoff
    · simp only [notePoll, hx, hans, hxt, Bool.false_eq_true, if_false]
      rcases hcase with ⟨hlast, -⟩ | ⟨hlast, hstarts⟩
      · -- the mark moves when a poll is due, also when there is no memory for it
        refine ⟨time, le_refl time, hlast.trans htick, ?_⟩
        intro u hu
        refine h.mark_moves htime
          { y.log with
            lastPoll := if startsPoll y.state ⟨env, .pollNow⟩ = true then some time
              else y.log.lastPoll } ?_ u hu
        rintro v (hv | hv)
        · by_cases hstarts : startsPoll y.state ⟨env, .pollNow⟩ = true
          · simp only [if_pos hstarts] at hv
            exact Or.inl (Option.some.inj hv).symm
          · simp only [if_neg hstarts] at hv
            exact Or.inr (Or.inl hv)
        · exact Or.inr (Or.inr hv)
      · simp only [hstarts, Bool.false_eq_true, if_false]
        exact h.mark_stays htime hlast

end Step

/-- **Every step keeps the pace.** -/
theorem KeepsPace.step {y z : Traced Globals PollLog} {x : TimedEvent} (h : KeepsPace y)
    (hx : Unforced y x) (hz : traced timedStep notePoll y x = some z) : KeepsPace z := by
  obtain ⟨time, env, act⟩ := x
  obtain ⟨htime, hserver, hresume⟩ := hx
  obtain ⟨t, ht, rfl⟩ := Option.map_eq_some_iff.1 hz
  obtain rfl := Option.some.inj ht
  by_cases haside : drivesPoll act = false
  · obtain ⟨hidle, hstarts, hans⟩ := unlogged_of_aside (s := y.state)
      (e := TimedEvent.seen ⟨time, env, act⟩) haside
    have hpaced := paced_perform hserver haside
    constructor
    · simp only [notePoll, hidle, Option.map_none, Option.getD_none]
      exact hpaced.backoff.trans h.backoff
    · simp only [notePoll, hstarts, hans, Bool.false_eq_true, if_false]
      exact h.mark_stays htime hpaced.lastPoll
  · cases act with
    | pumpCmd => exact h.pumpCmd htime rfl _ rfl rfl
    | pollNow => exact h.pollNow htime rfl _ rfl rfl
    | resume host port => exact absurd rfl (hresume host port)
    | _ => exact absurd rfl haside

/-- A poll that starts has waited the gap since the mark. -/
theorem KeepsPace.spaced {y : Traced Globals PollLog} {x : TimedEvent} (h : KeepsPace y)
    (hx : y.log.now ≤ x.time) : Spaced y x := by
  -- the poll is due by the mark, and the mark is no earlier than what is logged
  obtain ⟨time, env, act⟩ := x
  intro hstarts t ht
  obtain ⟨marked, hle, hmark, hbefore⟩ := h.mark
  have htm := hbefore t ht
  cases act with
  | pollNow =>
      have hnone : y.state.gTx = none := by
        simp only [startsPoll, TimedEvent.seen, Bool.and_eq_true, Option.isNone_iff_eq_none] at hstarts
        exact hstarts.1
      rcases (startPoll_cases { env with tick := BitVec.ofNat 32 time } hnone).2 with
        ⟨-, hdue⟩ | ⟨-, hno⟩
      · have hcurrent : y.state.gBackoff.current = (pollGap y.log.fails : Int) := by
          rw [h.backoff]
          simp [backedOff, pollGap, cqPollCap, cqPollTicks]
        have hgap := (cqBackoffIntervalSeeded_bounds (b := y.state.gBackoff)
          (by rw [hcurrent]; exact Int.natCast_nonneg _) (BitVec.ofNat 32 time)).1
        have hpast : marked ≤ time := hle.trans hx
        have hticks := toNat_ticks_le hpast
        have hwait : cqBackoffIntervalSeeded y.state.gBackoff (BitVec.ofNat 32 time) ≤
            (BitVec.ofNat 32 time - BitVec.ofNat 32 marked).toNat := by
          rw [← hmark]
          exact hdue
        rw [cqBackoffInterval, hcurrent] at hgap
        show t + pollGap y.log.fails ≤ time
        omega
      · exact absurd (hno.symm.trans hstarts) Bool.false_ne_true
  | _ => cases hstarts

/-- **The poll cadence.** The backoff waits as long as its failures say, its jitter up to a quarter
longer; and in a run without a resume or a change of server every poll starts the interval of the
failures so far after the last poll and after the last answered command. -/
theorem poll_cadence :
    (∀ base cap longMax : Int, 1 ≤ base → base ≤ cap → cap ≤ longMax / 2 →
      ∀ history : List BackoffOp,
        let b := history.foldl BackoffOp.perform (cqBackoffInit base cap)
        cqBackoffInterval b = min cap (base * 2 ^ history.foldl BackoffOp.count 0) ∧
          (∀ seed, cqBackoffInterval b ≤ cqBackoffIntervalSeeded b seed ∧
            cqBackoffIntervalSeeded b seed ≤ cqBackoffInterval b + cqBackoffInterval b / 4) ∧
          cqBackoffInterval b * 2 ≤ longMax ∧
          cqBackoffInterval b + cqBackoffInterval b / 4 ≤ longMax) ∧
    ∀ (host : CStr) (port : Nat) (autoStart qtOk : Bool) (xs : List TimedEvent),
      Meets (traced timedStep notePoll) Unforced
          ⟨launch host port autoStart qtOk, .start⟩ xs →
        Meets (traced timedStep notePoll) Spaced ⟨launch host port autoStart qtOk, .start⟩ xs := by
  refine ⟨fun base cap longMax hbase hcap hmax history => cqBackoff_law hbase hcap hmax history, ?_⟩
  intro host port autoStart qtOk xs hxs
  apply meets_of_meets KeepsPace ?_ ?_ (keepsPace_launch host port autoStart qtOk) hxs
  · intro y x z hy hx hz
    exact hy.step hx hz
  · intro y x hy hx
    exact hy.spaced hx.1

/-- A step of the poll at a time, with the report its transaction gives. -/
def polling (time : Nat) (report : TxPoll) : TimedEvent where
  time := time
  event :=
    { env :=
        { tick := 0
          alloc := fun _ => true
          poll := fun _ => report
          decodes := fun _ => false }
      act := .pollNow }

/-- A poll that starts at 200 and fails, and the next one at 500. -/
theorem poll_cadence_sample :
    Meets (traced timedStep notePoll) Spaced ⟨launch (.lit "h") 70 false false, .start⟩
      [polling 200 .running, polling 210 (.failed (.lit "reset")), polling 500 .running] := by
  apply poll_cadence.2
  have hpoll : ∀ {y : Traced Globals PollLog} {time : Nat} {report : TxPoll}, y.log.now ≤ time →
      Unforced y (polling time report) := by
    intro y time report htime
    exact ⟨htime, rfl, fun host port h => by cases h⟩
  refine ⟨hpoll (Nat.zero_le _), ?_⟩
  intro t ht
  cases ht
  refine ⟨hpoll (by decide), ?_⟩
  intro t ht
  cases ht
  exact ⟨hpoll (by decide), fun t _ => trivial⟩

end Casquinha.App
