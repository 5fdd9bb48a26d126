import Casquinha.Lib.Run
import Casquinha.Lib.Ring
import Casquinha.Transport.Lifecycle

/-!
# The deadlines of a transaction

`TickCount()` is a 32-bit counter. A `Timed` transaction knows the time as a number that does not wrap,
and when it was last started; the transaction itself sees the counter (`tickAt`). As long as time does
not run backwards and a poll is less than `2^31` ticks behind the start, a difference of two readings
is the time between them, and the deadlines, which every poll checks behind its slice, hold whatever
the slice has done.
-/

set_option autoImplicit false

namespace Casquinha.Transport

open Lib App CqTransport

/-! ## A poll -/

theorem fail_running {t : CqTransport} (e : CqTxError) (what : String) :
    (t.fail e what).status = .failed ∧ (t.fail e what).error = e := by
  rw [fail]
  dsimp only
  split <;> exact ⟨rfl, rfl⟩

/-- Past the watchdog a transaction is over, or it is a stream that is being received. -/
theorem checkDeadlines_watchdog {now : BitVec 32} {t : CqTransport}
    (hlate : watchdogTicks < (now - t.startTick).toNat) :
    (checkDeadlines now t).status ≠ .running ∨
      ((checkDeadlines now t).streaming = true ∧ (checkDeadlines now t).st = .receiving) := by
  rw [checkDeadlines]
  split
  · split
    · left
      rw [(fail_running _ _).1]
      intro h
      cases h
    · split
      · left
        rw [(fail_running _ _).1]
        intro h
        cases h
      · -- late and not failed, so it is exempt
        rename_i hexempt
        right
        by_contra hnot
        exact hexempt ⟨hnot, hlate⟩
  · exact Or.inl ‹_›

/-- Past the connect deadline a transaction that is still connecting fails. -/
theorem checkDeadlines_connect {now : BitVec 32} {t : CqTransport} (hrunning : t.status = .running)
    (hst : t.st = .connecting) (hlate : deadlineTicks < (now - t.connectTick).toNat) :
    (checkDeadlines now t).status = .failed ∧ (checkDeadlines now t).error = .timeout := by
  rw [checkDeadlines, if_pos hrunning, if_pos ⟨hst, hlate⟩]
  exact fail_running _ _

/-- What connects is running. -/
theorem Inv.running_of_connecting {t : CqTransport} (h : Inv t) (hst : t.st = .connecting) :
    t.status = .running := by
  cases h.stage with
  | fresh hfresh _ _ => exact hfresh.status_eq
  | live st hlive _ _ _ => exact hlive.status_eq
  | done hdone _ => cases hdone.st_eq.symm.trans hst
  | failed e hfailed _ => cases hfailed.st_eq.symm.trans hst
  | halted hhalted _ => exact hhalted.status_eq

/-! ## Streams -/

/-- A stream that has been received from: it is received from, or it is over, and not for a deadline. -/
structure Heard (t : CqTransport) : Prop where
  inv : Inv t
  streaming_eq : t.streaming = true
  in_time : t.error ≠ .timeout
  st_or_over : t.st = .receiving ∨ t.status ≠ .running

theorem heard_of_receiving {t : CqTransport} (h : Inv t) (hstreaming : t.streaming = true)
    (hst : t.st = .receiving) : Heard t := by
  refine ⟨h, hstreaming, ?_, Or.inl hst⟩
  intro htimeout
  cases h.stage with
  | fresh hfresh _ _ => cases hfresh.error_eq.symm.trans htimeout
  | live st hlive _ _ _ => cases hlive.error_eq.symm.trans htimeout
  | done hdone _ => cases hdone.error_eq.symm.trans htimeout
  | failed e hfailed _ => cases hfailed.st_eq.symm.trans hst
  | halted hhalted _ => cases hhalted.error_eq.symm.trans htimeout

/-- No deadline is left for a stream that is being received. -/
theorem checkDeadlines_of_receiving {now : BitVec 32} {t : CqTransport}
    (hstreaming : t.streaming = true) (hst : t.st = .receiving) : checkDeadlines now t = t := by
  rw [checkDeadlines]
  split
  · rw [if_neg (fun h => OtState.noConfusion (hst.symm.trans h.1)),
      if_neg (fun h => h.1 ⟨hstreaming, hst⟩)]
  · rfl

/-- Behind a slice that reads, the transaction is still read from, or it is over and not for a deadline. -/
theorem Reads.live_or_over {t u : CqTransport} (h : Reads t u) :
    Live .receiving u ∨ (u.status ≠ .running ∧ u.error ≠ .timeout) := by
  rcases h.leaves with ⟨hlive, -⟩ | ⟨hdone, -⟩ | ⟨hfailed, -⟩
  · exact Or.inl hlive
  · right
    rw [hdone.status_eq, hdone.error_eq]
    exact ⟨CqTxStatus.noConfusion, CqTxError.noConfusion⟩
  · right
    rw [hfailed.status_eq, hfailed.error_eq]
    exact ⟨CqTxStatus.noConfusion, CqTxError.noConfusion⟩

theorem heard_cqTxPoll (env : OtEnv) {t : CqTransport} (h : Heard t) : Heard (cqTxPoll env t) := by
  have hinv := inv_cqTxPoll env h.inv
  have hstreaming := (congrArg Setup.streaming (setup_cqTxPoll env h.inv)).trans h.streaming_eq
  rcases cqTxPoll_cases env t with hidle | ⟨hlive, hrunning, hpoll⟩
  · rw [hidle]
    exact h
  · have hst : t.st = .receiving := h.st_or_over.resolve_right fun hover => hover hrunning
    -- a transaction that is running, not cancelled and in `receiving` is live
    have hreceiving : Live .receiving t ∧ Kept t := by
      cases h.inv.stage with
      | fresh hfresh _ _ => cases hfresh.st_eq.symm.trans hst
      | live st hst' _ _ kept =>
          cases hst'.st_eq.symm.trans hst
          exact ⟨hst', kept⟩
      | done hdone _ => cases hdone.st_eq.symm.trans hst
      | failed e hfailed _ => cases hfailed.st_eq.symm.trans hst
      | halted hhalted _ => cases hhalted.cancelled_eq.symm.trans hlive
    have hslice : slice env t = recvLoop env.rcv t := by
      rw [slice, hst]
      rfl
    have hreads := recvLoop_spec env.rcv hreceiving.1 hreceiving.2
    have hsliceStreaming := (congrArg Setup.streaming hreads.setup_eq).trans h.streaming_eq
    rw [hslice] at hpoll
    rcases hreads.live_or_over with hlive' | ⟨hover, hintime⟩
    · -- it is still received from: the stream is exempt from both deadlines
      rw [checkDeadlines_of_receiving hsliceStreaming hlive'.st_eq] at hpoll
      refine ⟨hinv, hstreaming, ?_, Or.inl ?_⟩
      · rw [hpoll, hlive'.error_eq]
        exact CqTxError.noConfusion
      · rw [hpoll, hlive'.st_eq]
    · -- it is over: the clock is not looked at
      rw [checkDeadlines, if_neg hover] at hpoll
      refine ⟨hinv, hstreaming, ?_, Or.inr ?_⟩
      · rw [hpoll]
        exact hintime
      · rw [hpoll]
        exact hover

/-- **A stream that has been received from never times out.** -/
theorem heard_txPerform {t : CqTransport} (h : Heard t) (op : TxOp) : Heard (txPerform t op) := by
  have hinv := inv_txPerform h.inv op
  cases op with
  | start now => exact ⟨hinv, h.streaming_eq, h.in_time, h.st_or_over⟩
  | poll env => exact heard_cqTxPoll env h
  | drain cap => exact ⟨hinv, h.streaming_eq, h.in_time, h.st_or_over⟩
  | cancel =>
      -- a cancel is a mark, and at most the end of the endpoint
      have hkeeps : (cqTxCancel t).streaming = t.streaming ∧ (cqTxCancel t).error = t.error ∧
          (cqTxCancel t).st = t.st ∧ (cqTxCancel t).status = t.status := by
        rw [cqTxCancel]
        dsimp only
        split <;> exact ⟨rfl, rfl, rfl, rfl⟩
      obtain ⟨hstreaming, herror, hst, hstatus⟩ := hkeeps
      refine ⟨hinv, hstreaming.trans h.streaming_eq, ?_, ?_⟩
      · show (cqTxCancel t).error ≠ .timeout
        rw [herror]
        exact h.in_time
      · show (cqTxCancel t).st = .receiving ∨ (cqTxCancel t).status ≠ .running
        rw [hst, hstatus]
        exact h.st_or_over
  | notify code => cases code <;> exact ⟨hinv, h.streaming_eq, h.in_time, h.st_or_over⟩

/-! ## Time -/

/-- The reading of `TickCount()` at a time. -/
def tickAt (time : Nat) : BitVec 32 := BitVec.ofNat 32 time

/-- The difference of two readings is the time between them, whether or not the counter wrapped. -/
theorem tickAt_sub {started time : Nat} (hle : started ≤ time) (hlt : time - started < 2 ^ 31) :
    (tickAt time - tickAt started).toNat = time - started := by
  rw [tickAt, tickAt, ofNat_sub_ofNat hle, BitVec.toNat_ofNat]
  apply Nat.mod_eq_of_lt
  omega

/-- The operation as it is done at a time. -/
def TxOp.at (time : Nat) : TxOp → TxOp
  | .start _ => .start (tickAt time)
  | .poll env => .poll { env with tick := tickAt time }
  | op => op

/-- The operation is a poll. -/
def TxOp.isPoll : TxOp → Bool
  | .poll _ => true
  | _ => false

/-- A transaction, the time of its last operation and the time it was last started at. -/
structure Timed where
  tx : CqTransport
  now : Nat
  startedAt : Option Nat

/-- A transaction that was just made. -/
def Timed.new (host : CStr) (port : Int) (selector : Option CStr) (streaming : Bool) : Timed where
  tx := cqTxNew host port selector streaming
  now := 0
  startedAt := none

/-- An operation at a time. -/
def timedStep (s : Timed) (op : Nat × TxOp) : Option Timed :=
  some
    { tx := txPerform s.tx (op.2.at op.1)
      now := op.1
      startedAt :=
        match op.2 with
        | .start _ => some op.1
        | _ => s.startedAt }

/-- Time does not run backwards, and a poll is less than `2^31` ticks behind the start. -/
def InTime (s : Timed) (op : Nat × TxOp) : Prop :=
  s.now ≤ op.1 ∧ (op.2.isPoll = true → ∀ started ∈ s.startedAt, op.1 - started < 2 ^ 31)

instance (s : Timed) (op : Nat × TxOp) : Decidable (InTime s op) :=
  inferInstanceAs (Decidable (_ ∧ _))

/-- The transaction knows when it was started. -/
structure OnTime (s : Timed) : Prop where
  inv : Inv s.tx
  started : ∀ started, s.startedAt = some started → started ≤ s.now ∧
    s.tx.startTick = tickAt started ∧ s.tx.connectTick = tickAt started

/-- No operation but a start moves the clock of a transaction. -/
theorem ticks_txPerform {t : CqTransport} (h : Inv t) {op : TxOp} (hop : ∀ now, op ≠ .start now) :
    (txPerform t op).startTick = t.startTick ∧ (txPerform t op).connectTick = t.connectTick := by
  cases op with
  | start now => exact absurd rfl (hop now)
  | poll env =>
      have hsetup := setup_cqTxPoll env h
      exact ⟨congrArg Setup.startTick hsetup, congrArg Setup.connectTick hsetup⟩
  | drain cap => exact ⟨rfl, rfl⟩
  | cancel =>
      show (cqTxCancel t).startTick = _ ∧ (cqTxCancel t).connectTick = _
      rw [cqTxCancel]
      dsimp only
      split <;> exact ⟨rfl, rfl⟩
  | notify code => cases code <;> exact ⟨rfl, rfl⟩

theorem onTime_new (host : CStr) (port : Int) (selector : Option CStr) (streaming : Bool) :
    OnTime (Timed.new host port selector streaming) := by
  refine ⟨inv_cqTxNew host port selector streaming, ?_⟩
  intro started h
  cases h

theorem onTime_timedStep {s s' : Timed} {op : Nat × TxOp} (h : OnTime s) (hmono : s.now ≤ op.1)
    (hstep : timedStep s op = some s') : OnTime s' := by
  obtain ⟨time, op⟩ := op
  cases hstep
  refine ⟨inv_txPerform h.inv _, ?_⟩
  intro started hstarted
  -- every other operation leaves both clocks alone
  have hkeeps : ∀ hop : ∀ now, op.at time ≠ .start now, s.startedAt = some started →
      started ≤ time ∧ (txPerform s.tx (op.at time)).startTick = tickAt started ∧
        (txPerform s.tx (op.at time)).connectTick = tickAt started := by
    intro hop hs
    obtain ⟨hle, hstart, hconnect⟩ := h.started started hs
    obtain ⟨hstart', hconnect'⟩ := ticks_txPerform h.inv hop
    exact ⟨hle.trans hmono, hstart'.trans hstart, hconnect'.trans hconnect⟩
  cases op with
  | start now =>
      cases hstarted
      exact ⟨le_refl _, rfl, rfl⟩
  | poll env => exact hkeeps (fun _ => TxOp.noConfusion) hstarted
  | drain cap => exact hkeeps (fun _ => TxOp.noConfusion) hstarted
  | cancel => exact hkeeps (fun _ => TxOp.noConfusion) hstarted
  | notify code => exact hkeeps (fun _ => TxOp.noConfusion) hstarted

theorem onTime_run {s s' : Timed} {ops : List (Nat × TxOp)} (h : OnTime s)
    (hmeets : Meets timedStep InTime s ops) (hrun : run timedStep s ops = some s') : OnTime s' :=
  run_invariant_of_meets OnTime (fun _ _ _ hs hok hstep => onTime_timedStep hs hok.1 hstep) h
    hmeets hrun

/-- A poll in time checks the deadlines against the time since the start. -/
theorem OnTime.poll {s : Timed} (h : OnTime s) {time started : Nat} {env : OtEnv}
    (hintime : InTime s (time, .poll env)) (hstarted : s.startedAt = some started)
    (hlive : s.tx.cancelled = false) :
    let now := { env with tick := tickAt time }
    let u := cqTxPoll now s.tx
    (300 < time - started → u.status ≠ .running ∨ (u.streaming = true ∧ u.st = .receiving)) ∧
      (120 < time - started → (slice now s.tx).st = .connecting →
        u.status = .failed ∧ u.error = .timeout) := by
  intro now u
  obtain ⟨hle, hstart, hconnect⟩ := h.started started hstarted
  have helapsed := tickAt_sub (hle.trans hintime.1) (hintime.2 rfl started hstarted)
  -- the slice does not touch the clocks of the transaction
  have hclock : ∀ {t : CqTransport}, setup t = setup s.tx →
      t.startTick = tickAt started ∧ t.connectTick = tickAt started := fun hsetup =>
    ⟨(congrArg Setup.startTick hsetup).trans hstart, (congrArg Setup.connectTick hsetup).trans hconnect⟩
  by_cases hrunning : s.tx.status = .running
  · obtain ⟨hsetup, hinv⟩ := inv_slice now h.inv hlive hrunning
    have hpoll : u = checkDeadlines (tickAt time) (slice now s.tx) :=
      cqTxPoll_of_running now hlive hrunning
    rw [hpoll]
    refine ⟨fun hlate => checkDeadlines_watchdog ?_, fun hlate hst => ?_⟩
    · rw [(hclock hsetup).1, helapsed]
      exact hlate
    · refine checkDeadlines_connect (hinv.running_of_connecting hst) hst ?_
      rw [(hclock hsetup).2, helapsed]
      exact hlate
  · -- the poll does nothing, and its slice would not connect
    have hidle : u = s.tx := if_pos (Or.inr hrunning)
    rw [hidle]
    refine ⟨fun _ => Or.inl hrunning, ?_⟩
    intro _ hst
    have hslice : slice now s.tx = s.tx := by
      cases h.inv.stage with
      | fresh hfresh _ _ => exact absurd hfresh.status_eq hrunning
      | live st hst _ _ _ => exact absurd hst.status_eq hrunning
      | done hdone _ => simp only [slice, hdone.st_eq]
      | failed e hfailed _ => simp only [slice, hfailed.st_eq]
      | halted hhalted _ => exact absurd hhalted.status_eq hrunning
    rw [hslice] at hst
    exact absurd (h.inv.running_of_connecting hst) hrunning

theorem heard_run {s s' : Timed} {ops : List (Nat × TxOp)} (h : Heard s.tx)
    (hrun : run timedStep s ops = some s') : Heard s'.tx := by
  refine run_invariant (fun s => Heard s.tx) ?_ h hrun
  intro s op s' hs hstep
  cases hstep
  exact heard_txPerform hs _

/-- **Deadlines.** In every run in time, a poll of a transaction that was started and not cancelled
leaves it over when more than 300 ticks have passed since the start, unless it is a stream that is
being received; a poll that leaves it connecting after more than 120 ticks fails with a timeout; and a
stream that has been received from never times out. -/
theorem deadlines_hold (host : CStr) (port : Int) (selector : Option CStr) (streaming : Bool)
    (ops : List (Nat × TxOp)) (s : Timed)
    (hmeets : Meets timedStep InTime (Timed.new host port selector streaming) ops)
    (hrun : run timedStep (Timed.new host port selector streaming) ops = some s) :
    (∀ time env started, InTime s (time, .poll env) → s.startedAt = some started →
      s.tx.cancelled = false →
        let now := { env with tick := tickAt time }
        let u := cqTxPoll now s.tx
        (300 < time - started →
          u.status ≠ .running ∨ (u.streaming = true ∧ u.st = .receiving)) ∧
        (120 < time - started → (slice now s.tx).st = .connecting →
          u.status = .failed ∧ u.error = .timeout)) ∧
      (s.tx.streaming = true → s.tx.st = .receiving → ∀ more s',
        run timedStep s more = some s' → s'.tx.error ≠ .timeout) := by
  have hontime := onTime_run (onTime_new host port selector streaming) hmeets hrun
  refine ⟨fun time env started hintime hstarted hlive => hontime.poll hintime hstarted hlive, ?_⟩
  intro hstreaming hst more s' hmore
  exact (heard_run (heard_of_receiving hontime.inv hstreaming hst) hmore).in_time

/-- A connect that the provider does not complete: at tick 121 a poll fails. -/
theorem deadlines_hold_connecting :
    let env := { promptEnv with connect := .noData }
    let s := (run timedStep (Timed.new (.lit "spot") 70 none false)
      [(0, .start 0), (0, .poll env)]).get rfl
    (cqTxPoll { env with tick := tickAt 121 } s.tx).error = .timeout := by
  intro env s
  have hstep := deadlines_hold (.lit "spot") 70 none false [(0, .start 0), (0, .poll env)] s
    (by decide) rfl
  exact ((hstep.1 121 env 0 (by decide) rfl (by decide)).2 (by decide) (by decide)).2

end Casquinha.Transport
