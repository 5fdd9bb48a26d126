import Casquinha.Lib.Run

/-!
# Parking the decode task

The event loop and the decode task talk through two mailboxes with one writer each: `gDecCmd` and
`gDecAck`. Each read and each write is one step, and the two parties interleave freely.

`ParkDecTask` takes an acknowledgement it sees for an answer to the `PARK` it has just written. One
left over from the previous park reads the same. If the task has taken `RUN` in between and has not
finished its first pass, `ParkDecTask` returns while the task is pumping (`parkDecTask_returns_early`).
When no `PARK` is written in that situation, a return on the acknowledgement means what its callers
take it to mean (`parkDecTask_safe`).
-/

set_option autoImplicit false

namespace Casquinha.Decode

open Lib

/-- `CQ_DEC_PARK`, `CQ_DEC_RUN`, `CQ_DEC_QUIT`. -/
inductive DecCmd where
  | park
  | run
  | quit
deriving DecidableEq

/-- Where `DecodeTaskProc` stands. The argument is its local `cmd`, which is `run` in the pump. -/
inductive TaskPc where
  | top
  | got (cmd : DecCmd)
  | inPump
  | acking (cmd : DecCmd)
  | napping
  | exiting
  | gone
deriving DecidableEq

/-- Who has called `ParkDecTask`. -/
inductive ParkCaller where
  | stopAudio
  | openAudioOutput
  | quitDecTask
deriving DecidableEq

/-- Where the event loop stands with respect to the task. `parked` and `timedOut` are the two returns
of `ParkDecTask`; the resets of the caller are still to come there. -/
inductive MainPc where
  | loop
  | parking (caller : ParkCaller) (t0 : BitVec 32)
  | parked (caller : ParkCaller)
  | timedOut (caller : ParkCaller)
  /-- `OpenAudioOutput` has returned to `ServiceAudio`. -/
  | armed
  /-- `QuitDecTask` waits for the exit, first of the task on its own and then of the terminated task. -/
  | joining
  | terminating
  | down
deriving DecidableEq

/-- The mailboxes and the two parties. `playing` is `gAuSt == AU_PLAY`, `tick` is `TickCount()`, and `doomed` is set
once `MPTerminateTask` has been called: the task ends some time after that, wherever it is. -/
structure DecTask where
  gDecCmd : DecCmd
  gDecAck : DecCmd
  gMPDecode : Bool
  task : TaskPc
  main : MainPc
  playing : Bool
  doomed : Bool
  tick : BitVec 32
deriving DecidableEq

/-- A step of one party, or of the clock. -/
inductive DecTaskStep where
  /-- The next step of `DecodeTaskProc`. -/
  | task
  | tick
  /-- A caller enters `ParkDecTask`: `PARK` is written. -/
  | park (caller : ParkCaller)
  /-- `ParkDecTask` looks at `gDecAck`. -/
  | poll
  /-- The caller goes on: the cursor and decoder resets, or the `QUIT`. -/
  | reset
  /-- `ServiceAudio` writes `RUN`. -/
  | wake
  /-- A wait of `QuitDecTask` is answered by the exit of the task. -/
  | join
  /-- The first wait times out, and the task is terminated. -/
  | terminate
  /-- The second wait times out. -/
  | giveUp
  /-- A task that `MPTerminateTask` has been called for ends. -/
  | kill
deriving DecidableEq

namespace DecTask

/-- `DecodeTaskProc`, one read, write, entry or exit at a time. -/
def stepTask (s : DecTask) : Option DecTask :=
  match s.task with
  | .top => some { s with task := .got s.gDecCmd }
  | .got .quit => some { s with task := .exiting }
  | .got .run => some { s with task := .inPump }
  | .got .park => some { s with task := .acking .park }
  -- it acknowledges what it read before the pass, not what the mailbox says by now
  | .inPump => some { s with task := .acking .run }
  | .acking cmd =>
      some
        { s with
          gDecAck := cmd
          task := .napping }
  | .napping => some { s with task := .top }
  | .exiting =>
      some
        { s with
          gDecAck := .quit
          task := .gone }
  | .gone => none

/-- The entry of `ParkDecTask`. `StopAudio` has left `AU_PLAY` by then, and `OpenAudioOutput` is
called outside it. -/
def stepPark (s : DecTask) (caller : ParkCaller) : Option DecTask :=
  if s.main = .loop ∧ (caller = .openAudioOutput → s.playing = false) then
    some
      { s with
        gDecCmd := .park
        main := .parking caller s.tick
        playing := s.playing && caller != .stopAudio }
  else none

/-- One turn of the loop in `ParkDecTask`. -/
def stepPoll (s : DecTask) : Option DecTask :=
  match s.main with
  | .parking caller t0 =>
      -- nothing tells this PARK from one that answered an earlier request
      if s.gDecAck = .park then some { s with main := .parked caller }
      else if 30 < (s.tick - t0).toNat then
        some
          { s with
            gMPDecode := false
            main := .timedOut caller }
      else some s
  | _ => none

/-- What a caller does once `ParkDecTask` has returned. -/
def afterPark (s : DecTask) : ParkCaller → DecTask
  | .stopAudio => { s with main := .loop }
  | .openAudioOutput =>
      { s with
        gMPDecode := true
        main := .armed }
  | .quitDecTask =>
      { s with
        gDecCmd := .quit
        main := .joining }

/-- Both returns of `ParkDecTask` go on in the same way. -/
def stepReset (s : DecTask) : Option DecTask :=
  match s.main with
  | .parked caller | .timedOut caller => some (afterPark s caller)
  | _ => none

/-- `gAuSt = AU_PLAY`, and `RUN` when the task is to pump. -/
def stepWake (s : DecTask) : Option DecTask :=
  if s.main = .armed then
    some
      { s with
        gDecCmd := if s.gMPDecode then .run else s.gDecCmd
        main := .loop
        playing := true }
  else none

/-- One step. -/
def step (s : DecTask) : DecTaskStep → Option DecTask
  | .task => s.stepTask
  | .tick => some { s with tick := s.tick + 1 }
  | .park caller => s.stepPark caller
  | .poll => s.stepPoll
  | .reset => s.stepReset
  | .wake => s.stepWake
  | .join =>
      if (s.main = .joining ∨ s.main = .terminating) ∧ s.task = .gone then some { s with main := .down } else none
  | .terminate =>
      if s.main = .joining then
        some
          { s with
            doomed := true
            main := .terminating }
      else none
  -- the result of the second `MPWaitOnQueue` is not looked at
  | .giveUp => if s.main = .terminating then some { s with main := .down } else none
  | .kill => if s.doomed then some { s with task := .gone } else none

/-- `StartDecTask`: created and parked. -/
def created (tick : BitVec 32) : DecTask :=
  { gDecCmd := .park
    gDecAck := .park
    gMPDecode := false
    task := .top
    main := .loop
    playing := false
    doomed := false
    tick := tick }

end DecTask

/-! ## The invariant -/

/-- The task is in the pump, or enters it next whatever the mailbox says by now. -/
def TaskPc.MayPump : TaskPc → Prop
  | .got .run | .inPump => True
  | _ => False

instance (pc : TaskPc) : Decidable pc.MayPump :=
  match pc with
  | .got .run | .inPump => isTrue trivial
  | .got .park | .got .quit | .top | .acking _ | .napping | .exiting | .gone => isFalse id

/-- In `ParkDecTask`, or between its return and what its caller does next. -/
def MainPc.Waiting : MainPc → Prop
  | .parking _ _ | .parked _ | .timedOut _ => True
  | _ => False

namespace DecTask

/-- `PARK` is not written over a leftover acknowledgement while the task has a `RUN` in hand. -/
def FreshAck (s : DecTask) : DecTaskStep → Prop
  | .park _ => s.gDecAck = .park → ¬ s.task.MayPump
  | _ => True

instance (s : DecTask) (a : DecTaskStep) : Decidable (FreshAck s a) :=
  match a with
  | .park _ => inferInstanceAs (Decidable (_ → _))
  | .task | .tick | .poll | .reset | .wake | .join | .terminate | .giveUp | .kill => isTrue trivial

/-- As long as the command is not `RUN`, an acknowledged `PARK` keeps the task out of the pump. -/
structure Inv (s : DecTask) : Prop where
  quiet : s.gDecCmd ≠ .run → s.gDecAck = .park → ¬ s.task.MayPump
  waiting : s.main.Waiting → s.gDecCmd ≠ .run
  parked : ∀ caller, s.main = .parked caller → ¬ s.task.MayPump

/-- Out of the pump and not about to enter it, with no `RUN` in the mailbox. -/
def Out (s : DecTask) : Prop := s.gDecCmd ≠ .run ∧ ¬ s.task.MayPump

theorem inv_created (tick : BitVec 32) : (created tick).Inv where
  quiet := fun _ _ => id
  waiting := False.elim
  parked := fun _ h => by cases h

/-- What a step of the task does: it writes no command, and it comes to hold a `RUN` only by reading
one. An acknowledgement of `PARK` that it writes is not written with a `RUN` in hand. -/
theorem stepTask_spec {s t : DecTask} (h : s.stepTask = some t) :
    t.gDecCmd = s.gDecCmd ∧ t.main = s.main ∧
      (t.task.MayPump → s.gDecCmd = .run ∨ s.task.MayPump ∧ t.gDecAck = s.gDecAck) := by
  rw [stepTask] at h
  cases htask : s.task with
  | top =>
      -- the task reads the command here, and nowhere else
      rw [htask] at h
      cases h
      refine ⟨rfl, rfl, fun hmay => Or.inl ?_⟩
      cases hcmd : s.gDecCmd with
      | run => rfl
      | park | quit =>
          rw [hcmd] at hmay
          exact hmay.elim
  | got cmd =>
      -- a `RUN` in hand takes it to the pump, and another command leaves it out
      rw [htask] at h
      cases cmd with
      | run =>
          cases h
          exact ⟨rfl, rfl, fun _ => Or.inr ⟨trivial, rfl⟩⟩
      | park | quit =>
          cases h
          exact ⟨rfl, rfl, False.elim⟩
  | inPump | acking _ | napping | exiting =>
      -- on the way back to the top, or out, it holds no `RUN`
      rw [htask] at h
      cases h
      exact ⟨rfl, rfl, False.elim⟩
  | gone =>
      rw [htask] at h
      cases h

/-- Every step but `RUN` leaves the task out. -/
theorem Out.step {s t : DecTask} {a : DecTaskStep} (hs : s.Out) (ha : a ≠ .wake)
    (h : s.step a = some t) : t.Out := by
  obtain ⟨hcmd, hout⟩ := hs
  cases a with
  | task =>
      obtain ⟨hcmd', -, hmay⟩ := stepTask_spec h
      exact ⟨by rwa [hcmd'], fun ht => (hmay ht).elim hcmd fun hm => hout hm.1⟩
  | tick =>
      cases h
      exact ⟨hcmd, hout⟩
  | park caller =>
      rw [DecTask.step, stepPark] at h
      split at h
      · cases h
        exact ⟨DecCmd.noConfusion, hout⟩
      · cases h
  | poll =>
      rw [DecTask.step, stepPoll] at h
      split at h
      · split at h
        · cases h
          exact ⟨hcmd, hout⟩
        · split at h <;> cases h <;> exact ⟨hcmd, hout⟩
      · cases h
  | reset =>
      -- no caller writes `RUN` here
      have hafter : ∀ caller, (afterPark s caller).Out := by
        intro caller
        cases caller with
        | stopAudio | openAudioOutput => exact ⟨hcmd, hout⟩
        | quitDecTask => exact ⟨DecCmd.noConfusion, hout⟩
      rw [DecTask.step, stepReset] at h
      split at h
      · cases h
        exact hafter _
      · cases h
        exact hafter _
      · cases h
  | wake => exact absurd rfl ha
  | join =>
      rw [DecTask.step] at h
      split at h
      · cases h
        exact ⟨hcmd, hout⟩
      · cases h
  | terminate | giveUp =>
      rw [DecTask.step] at h
      split at h
      · cases h
        exact ⟨hcmd, hout⟩
      · cases h
  | kill =>
      rw [DecTask.step] at h
      split at h
      · cases h
        exact ⟨hcmd, id⟩
      · cases h

theorem Inv.task {s t : DecTask} (hs : s.Inv) (h : s.stepTask = some t) : t.Inv := by
  obtain ⟨hcmd, hmain, hmay⟩ := stepTask_spec h
  refine ⟨?_, ?_, ?_⟩
  · intro hrun hack ht
    rw [hcmd] at hrun
    rcases hmay ht with h | ⟨h, hack'⟩
    · exact hrun h
    · exact hs.quiet hrun (hack' ▸ hack) h
  · intro hw
    rw [hcmd]
    exact hs.waiting (hmain ▸ hw)
  · intro caller hp ht
    rw [hmain] at hp
    rcases hmay ht with h | ⟨h, -⟩
    · exact hs.waiting (by rw [hp]; trivial) h
    · exact hs.parked caller hp h

theorem Inv.park {s t : DecTask} {caller : ParkCaller} (hfresh : FreshAck s (.park caller))
    (h : s.stepPark caller = some t) : t.Inv := by
  rw [stepPark] at h
  split at h
  · cases h
    exact ⟨fun _ => hfresh, fun _ => DecCmd.noConfusion, fun _ hp => by cases hp⟩
  · cases h

/-- The acknowledgement that `ParkDecTask` returns on. -/
theorem Inv.poll {s t : DecTask} (hs : s.Inv) (h : s.stepPoll = some t) : t.Inv := by
  rw [stepPoll] at h
  split at h
  · next caller t0 hmain =>
    have hcmd : s.gDecCmd ≠ .run := hs.waiting (by rw [hmain]; trivial)
    split at h
    · next hack =>
      cases h
      exact ⟨hs.quiet, fun _ => hcmd, fun _ _ => hs.quiet hcmd hack⟩
    · split at h
      · cases h
        exact ⟨hs.quiet, fun _ => hcmd, fun _ hp => by cases hp⟩
      · cases h
        exact hs
  · cases h

theorem stepPoll_of_ack {s : DecTask} {caller : ParkCaller} {t0 : BitVec 32}
    (hmain : s.main = .parking caller t0) (hack : s.gDecAck = .park) :
    s.stepPoll = some { s with main := .parked caller } := by
  simp only [stepPoll, hmain, hack, if_true]

theorem Inv.afterPark {s : DecTask} (hs : s.Inv) (hw : s.main.Waiting) (caller : ParkCaller) :
    (s.afterPark caller).Inv := by
  cases caller with
  | stopAudio | openAudioOutput => exact ⟨hs.quiet, False.elim, fun _ hp => by cases hp⟩
  | quitDecTask =>
      exact ⟨fun _ => hs.quiet (hs.waiting hw), False.elim, fun _ hp => by cases hp⟩

/-- **The invariant is kept** by every step that meets `FreshAck`. -/
theorem Inv.step {s t : DecTask} {a : DecTaskStep} (hs : s.Inv) (hfresh : FreshAck s a)
    (h : s.step a = some t) : t.Inv := by
  cases a with
  | task => exact hs.task h
  | tick =>
      cases h
      exact ⟨hs.quiet, hs.waiting, hs.parked⟩
  | park caller => exact Inv.park hfresh h
  | poll => exact hs.poll h
  | reset =>
      -- the reset is made by a main task that has parked
      rw [DecTask.step, stepReset] at h
      split at h
      · next hmain =>
        cases h
        exact hs.afterPark (by rw [hmain]; trivial) _
      · next hmain =>
        cases h
        exact hs.afterPark (by rw [hmain]; trivial) _
      · cases h
  | wake =>
      rw [DecTask.step, stepWake] at h
      split at h
      · cases h
        -- `RUN` is written where a task decodes, else the mailbox stays as it is
        refine ⟨?_, False.elim, fun _ hp => by cases hp⟩
        intro hrun
        simp only at hrun ⊢
        split at hrun
        · exact absurd rfl hrun
        · exact hs.quiet hrun
      · cases h
  | join | terminate | giveUp =>
      rw [DecTask.step] at h
      split at h
      · cases h
        exact ⟨hs.quiet, False.elim, fun _ hp => by cases hp⟩
      · cases h
  | kill =>
      rw [DecTask.step] at h
      split at h
      · cases h
        exact ⟨fun _ _ => id, hs.waiting, fun _ _ => id⟩
      · cases h

/-! ## Parking -/

theorem Out.run {s t : DecTask} {steps : List DecTaskStep} (hs : s.Out)
    (hwake : DecTaskStep.wake ∉ steps) (h : run DecTask.step s steps = some t) : t.Out := by
  have hok : Meets DecTask.step (fun _ a => a ≠ DecTaskStep.wake) s steps := by
    refine meets_of_forall (fun a ha _ => ?_) s
    rintro rfl
    exact hwake ha
  exact run_invariant_of_meets Out (fun _ _ _ hu ha hstep => Out.step hu ha hstep) hs hok h

end DecTask

/-- **A return on the acknowledgement parks the task.** In every run in which no `PARK` is written
over a leftover acknowledgement while the task has a `RUN` in hand: once `ParkDecTask` has returned
because it saw `PARK`, and until `RUN` is written again, the task is not in the pump. The resets of
the caller fall into that time. -/
theorem parkDecTask_safe (tick : BitVec 32) (steps : List DecTaskStep) {s : DecTask}
    (hrun : run DecTask.step (DecTask.created tick) steps = some s)
    (hfresh : Meets DecTask.step DecTask.FreshAck (DecTask.created tick) steps)
    (caller : ParkCaller) (hparked : s.main = .parked caller) :
    ∀ later t, run DecTask.step s later = some t → DecTaskStep.wake ∉ later → t.task ≠ .inPump := by
  intro later t ht hwake hpump
  have hs : s.Inv := run_invariant_of_meets DecTask.Inv
    (fun _ _ _ hu hok hstep => DecTask.Inv.step hu hok hstep) (DecTask.inv_created tick) hfresh hrun
  have hout : s.Out := ⟨hs.waiting (by rw [hparked]; trivial), hs.parked caller hparked⟩
  exact (hout.run hwake ht).2 (by rw [hpump]; trivial)

/-- A listen: the output is opened, the task is woken and starts its first pass. -/
def listenSteps : List DecTaskStep :=
  [.park .openAudioOutput, .poll, .reset, .wake, .task, .task]

theorem parkDecTask_safe_sample :
    ((run DecTask.step (DecTask.created 0)
      (listenSteps ++ [.task, .task, .park .stopAudio, .poll, .task, .task, .task, .task, .poll,
        .task])).get (by decide)).task ≠ .inPump :=
  parkDecTask_safe 0
    (listenSteps ++ [.task, .task, .park .stopAudio, .poll, .task, .task, .task, .task, .poll])
    (s := (run DecTask.step (DecTask.created 0)
      (listenSteps ++ [.task, .task, .park .stopAudio, .poll, .task, .task, .task, .task, .poll])).get
        (by decide))
    (Option.some_get _).symm (by decide) .stopAudio (by decide) [.task] _ (by decide) (by decide)

/-- **A leftover acknowledgement.** The task is in its first pass when the listen is stopped:
`ParkDecTask` sees the `PARK` of the previous park and returns at once. -/
theorem parkDecTask_returns_early :
    (run DecTask.step (DecTask.created 0) (listenSteps ++ [.park .stopAudio, .poll])).map
        (fun s => (s.main, s.task)) =
      some (.parked .stopAudio, .inPump) := by
  decide

/-- From a poll that sees the leftover acknowledgement, the task goes on pumping. -/
theorem returns_early_of_mayPump {s : DecTask} {caller : ParkCaller} {t0 : BitVec 32}
    (hmain : s.main = .parking caller t0) (hack : s.gDecAck = .park) (hmay : s.task.MayPump) :
    ∃ later t, run DecTask.step s later = some t ∧ DecTaskStep.wake ∉ later ∧
      t.main = .parked caller ∧ t.task = .inPump := by
  have hpoll := DecTask.stepPoll_of_ack hmain hack
  cases htask : s.task with
  | got cmd =>
      cases cmd with
      | run =>
          -- the task has the `RUN` in hand, and takes it behind the poll
          refine ⟨[.poll, .task], { s with
            main := .parked caller
            task := .inPump }, ?_, by decide, rfl, rfl⟩
          rw [run_cons, DecTask.step, hpoll, Option.bind_some, run_cons, DecTask.step,
            DecTask.stepTask]
          simp only [htask]
          rfl
      | park | quit => simp [htask, TaskPc.MayPump] at hmay
  | inPump =>
      -- it is in the pump already
      refine ⟨[.poll], { s with main := .parked caller }, ?_, by decide, rfl, htask⟩
      rw [run_cons, DecTask.step, hpoll, Option.bind_some, run_nil]
  | top | acking _ | napping | exiting | gone => simp [htask, TaskPc.MayPump] at hmay

/-- The condition is exact: where it fails, `ParkDecTask` can return with the task in the pump. -/
theorem returns_early_of_not_freshAck {s t : DecTask} {caller : ParkCaller}
    (h : s.step (.park caller) = some t) (hstale : ¬ DecTask.FreshAck s (.park caller)) :
    ∃ later u, run DecTask.step t later = some u ∧ DecTaskStep.wake ∉ later ∧
      u.main = .parked caller ∧ u.task = .inPump := by
  simp only [DecTask.FreshAck, Classical.not_imp, Classical.not_not] at hstale
  obtain ⟨hack, hmay⟩ := hstale
  rw [DecTask.step, DecTask.stepPark] at h
  split at h
  · cases h
    exact returns_early_of_mayPump rfl hack hmay
  · cases h

end Casquinha.Decode
