import Casquinha.Decode.DecTask

/-!
# The end of the decode task

`QuitDecTask` parks the task, writes `QUIT` and waits for the task to exit; when it has waited too long it terminates
the task and waits once more, as long at most. From `QUIT` on nothing else is written to the mailbox, and each step
takes the task one step nearer to its exit, wherever `ParkDecTask` has left it (`TaskPc.quitSteps`): also when it was
parked on a leftover acknowledgement, or not at all, and is still in the pump. So the task makes at most seven more
steps and one pass at most, and unless both waits time out it is gone when `QuitDecTask` returns
(`quitDecTask_joins`).
-/

set_option autoImplicit false

namespace Casquinha.Decode

open Lib

/-- The steps that the task is away from its end, with `QUIT` in the mailbox. -/
def TaskPc.quitSteps : TaskPc → Nat
  | .gone => 0
  | .exiting => 1
  | .got .quit => 2
  | .top => 3
  | .napping => 4
  | .acking _ => 5
  | .got .park | .inPump => 6
  | .got .run => 7

theorem TaskPc.quitSteps_le (pc : TaskPc) : pc.quitSteps ≤ 7 := by
  cases pc with
  | got cmd => cases cmd <;> decide
  | top | inPump | acking _ | napping | exiting | gone => simp [quitSteps]

theorem TaskPc.quitSteps_eq_zero {pc : TaskPc} (h : pc.quitSteps = 0) : pc = .gone := by
  cases pc with
  | got cmd => cases cmd <;> cases h
  | gone => rfl
  | top | inPump | acking _ | napping | exiting => cases h

namespace DecTask

/-- `QUIT` is written. -/
def Quitting (s : DecTask) : Prop := s.main = .joining ∨ s.main = .terminating ∨ s.main = .down

/-- Who has written `QUIT`: nobody but `QuitDecTask`, which leaves the loop for good and terminates the task behind it
only. A task that is gone without that has acknowledged `QUIT`. -/
structure QuitInv (s : DecTask) : Prop where
  cmd : s.Quitting → s.gDecCmd = .quit
  doomed : s.doomed = true → s.main = .terminating ∨ s.main = .down
  acked : s.task = .gone → s.doomed = true ∨ s.gDecAck = .quit

/-- Before `QUIT` is written. -/
theorem QuitInv.of_before {s : DecTask} (hbefore : ¬ s.Quitting) (hdoomed : s.doomed = false)
    (hacked : s.task = .gone → s.doomed = true ∨ s.gDecAck = .quit) : s.QuitInv where
  cmd := fun h => (hbefore h).elim
  doomed := fun h => Bool.noConfusion (hdoomed.symm.trans h)
  acked := hacked

theorem quitInv_created (tick : BitVec 32) : (created tick).QuitInv :=
  QuitInv.of_before (by simp [Quitting, created]) rfl TaskPc.noConfusion

theorem QuitInv.not_doomed {s : DecTask} (hs : s.QuitInv) (hterminating : s.main ≠ .terminating)
    (hdown : s.main ≠ .down) : s.doomed = false :=
  Bool.eq_false_iff.2 fun h => (hs.doomed h).elim hterminating hdown

/-- With `QUIT` in the mailbox a step of the task leads one step nearer to its end. -/
theorem stepTask_quit {s t : DecTask} (hcmd : s.gDecCmd = .quit) (h : s.stepTask = some t) :
    t.task.quitSteps + 1 = s.task.quitSteps := by
  rw [stepTask, hcmd] at h
  cases htask : s.task with
  | got cmd =>
      rw [htask] at h
      cases cmd with
      | park | run | quit =>
          cases h
          rfl
  | top | inPump | acking _ | napping | exiting =>
      rw [htask] at h
      cases h
      rfl
  | gone =>
      rw [htask] at h
      cases h

/-- A task that comes to its end has read `QUIT`, and has acknowledged it. -/
theorem stepTask_gone {s t : DecTask} (h : s.stepTask = some t) (hgone : t.task = .gone) : t.gDecAck = .quit := by
  rw [stepTask] at h
  cases htask : s.task with
  | got cmd =>
      rw [htask] at h
      cases cmd with
      | park | run | quit =>
          cases h
          cases hgone
  | top | inPump | acking _ | napping =>
      rw [htask] at h
      cases h
      cases hgone
  | exiting =>
      rw [htask] at h
      cases h
      rfl
  | gone =>
      rw [htask] at h
      cases h

theorem stepTask_doomed {s t : DecTask} (h : s.stepTask = some t) : t.doomed = s.doomed := by
  rw [stepTask] at h
  split at h <;> cases h <;> rfl

theorem QuitInv.step {s t : DecTask} {a : DecTaskStep} (hs : s.QuitInv) (h : s.step a = some t) : t.QuitInv := by
  cases a with
  | task =>
      obtain ⟨hcmd, hmain, -⟩ := stepTask_spec h
      have hdoomed := stepTask_doomed h
      refine ⟨fun hq => ?_, fun hd => ?_, fun hgone => Or.inr (stepTask_gone h hgone)⟩
      · rw [Quitting, hmain] at hq
        rw [hcmd]
        exact hs.cmd hq
      · rw [hmain]
        exact hs.doomed (hdoomed ▸ hd)
  | tick =>
      cases h
      exact ⟨hs.cmd, hs.doomed, hs.acked⟩
  | park caller =>
      rw [DecTask.step, stepPark] at h
      split at h
      · next hloop =>
        cases h
        have hdoomed : s.doomed = false := hs.not_doomed (by simp [hloop.1]) (by simp [hloop.1])
        exact .of_before (by simp [Quitting]) hdoomed hs.acked
      · cases h
  | poll =>
      rw [DecTask.step, stepPoll] at h
      split at h
      · next caller t0 hmain =>
        have hdoomed : s.doomed = false := hs.not_doomed (by simp [hmain]) (by simp [hmain])
        split at h
        · cases h
          exact .of_before (by simp [Quitting]) hdoomed hs.acked
        · split at h
          · cases h
            exact .of_before (by simp [Quitting]) hdoomed hs.acked
          · cases h
            exact hs
      · cases h
  | reset =>
      have hafter : ∀ caller, s.doomed = false → (afterPark s caller).QuitInv := by
        intro caller hdoomed
        cases caller with
        | stopAudio | openAudioOutput => exact .of_before (by simp [Quitting, afterPark]) hdoomed hs.acked
        | quitDecTask => exact ⟨fun _ => rfl, fun hd => Bool.noConfusion (hdoomed.symm.trans hd), hs.acked⟩
      rw [DecTask.step, stepReset] at h
      split at h
      · next hmain =>
        cases h
        exact hafter _ (hs.not_doomed (by simp [hmain]) (by simp [hmain]))
      · next hmain =>
        cases h
        exact hafter _ (hs.not_doomed (by simp [hmain]) (by simp [hmain]))
      · cases h
  | wake =>
      rw [DecTask.step, stepWake] at h
      split at h
      · next harmed =>
        cases h
        have hdoomed : s.doomed = false := hs.not_doomed (by simp [harmed]) (by simp [harmed])
        exact .of_before (by simp [Quitting]) hdoomed hs.acked
      · cases h
  | join =>
      rw [DecTask.step] at h
      split at h
      · next hjoin =>
        cases h
        exact ⟨fun _ => hs.cmd (hjoin.1.imp id Or.inl), fun _ => Or.inr rfl, hs.acked⟩
      · cases h
  | terminate =>
      rw [DecTask.step] at h
      split at h
      · next hjoining =>
        cases h
        exact ⟨fun _ => hs.cmd (Or.inl hjoining), fun _ => Or.inl rfl, fun _ => Or.inl rfl⟩
      · cases h
  | giveUp =>
      rw [DecTask.step] at h
      split at h
      · next hterminating =>
        cases h
        exact ⟨fun _ => hs.cmd (Or.inr (Or.inl hterminating)), fun _ => Or.inr rfl, hs.acked⟩
      · cases h
  | kill =>
      rw [DecTask.step] at h
      split at h
      · next hdoomed =>
        cases h
        exact ⟨hs.cmd, hs.doomed, fun _ => Or.inl hdoomed⟩
      · cases h

/-! ## Behind `QUIT` -/

/-- Every step behind `QUIT`: of the task, of the clock, of `QuitDecTask`, and the end of a terminated task. -/
theorem QuitInv.step_quitting {s t : DecTask} {a : DecTaskStep} (hs : s.QuitInv) (hquit : s.Quitting)
    (h : s.step a = some t) :
    t.Quitting ∧ a ≠ .wake ∧ t.task.quitSteps + [a].count .task ≤ s.task.quitSteps ∧
      (a ≠ .kill → t.task.quitSteps + [a].count .task = s.task.quitSteps) := by
  cases a with
  | task =>
      obtain ⟨-, hmain, -⟩ := stepTask_spec h
      have hnearer := stepTask_quit (hs.cmd hquit) h
      exact ⟨by rwa [Quitting, hmain], DecTaskStep.noConfusion, Nat.le_of_eq hnearer, fun _ => hnearer⟩
  | tick =>
      cases h
      exact ⟨hquit, DecTaskStep.noConfusion, Nat.le_refl _, fun _ => rfl⟩
  | park | poll | reset | wake =>
      rcases hquit with hmain | hmain | hmain <;>
        simp [DecTask.step, stepPark, stepPoll, stepReset, stepWake, hmain] at h
  | join =>
      rw [DecTask.step] at h
      split at h
      · cases h
        exact ⟨Or.inr (Or.inr rfl), DecTaskStep.noConfusion, Nat.le_refl _, fun _ => rfl⟩
      · cases h
  | terminate =>
      rw [DecTask.step] at h
      split at h
      · cases h
        exact ⟨Or.inr (Or.inl rfl), DecTaskStep.noConfusion, Nat.le_refl _, fun _ => rfl⟩
      · cases h
  | giveUp =>
      rw [DecTask.step] at h
      split at h
      · cases h
        exact ⟨Or.inr (Or.inr rfl), DecTaskStep.noConfusion, Nat.le_refl _, fun _ => rfl⟩
      · cases h
  | kill =>
      rw [DecTask.step] at h
      split at h
      · cases h
        exact ⟨hquit, DecTaskStep.noConfusion, Nat.zero_le _, fun hno => absurd rfl hno⟩
      · cases h

/-- **Behind `QUIT`** the steps of the task are counted down. -/
theorem QuitInv.run_quitting {s t : DecTask} {later : List DecTaskStep} (hs : s.QuitInv) (hquit : s.Quitting)
    (h : Lib.run DecTask.step s later = some t) :
    t.QuitInv ∧ t.Quitting ∧ DecTaskStep.wake ∉ later ∧
      t.task.quitSteps + later.count .task ≤ s.task.quitSteps ∧
      (DecTaskStep.kill ∉ later → t.task.quitSteps + later.count .task = s.task.quitSteps) := by
  induction later generalizing s with
  | nil =>
      cases h
      exact ⟨hs, hquit, List.not_mem_nil, Nat.le_refl _, fun _ => rfl⟩
  | cons a later ih =>
      obtain ⟨u, hu, hrun⟩ := Option.bind_eq_some_iff.1 h
      obtain ⟨hquit', hwake, hle, heq⟩ := hs.step_quitting hquit hu
      obtain ⟨ht, htquit, hwakes, hle', heq'⟩ := ih (hs.step hu) hquit' hrun
      have hcount : ([a] ++ later).count .task = [a].count .task + later.count .task := List.count_append
      rw [List.singleton_append] at hcount
      refine ⟨ht, htquit, ?_, by omega, fun hkill => ?_⟩
      · rw [List.mem_cons, not_or]
        exact ⟨Ne.symm hwake, hwakes⟩
      · rw [List.mem_cons, not_or] at hkill
        have hfirst := heq (Ne.symm hkill.1)
        have hrest := heq' hkill.2
        omega

/-- What a step can do about the end of `QuitDecTask` and of the task. -/
structure EndSpec (s t : DecTask) (a : DecTaskStep) : Prop where
  down : t.main = .down → s.main = .down ∨ a = .giveUp ∨ a = .join ∧ s.task = .gone
  terminating : t.main = .terminating → s.main = .terminating ∨ a = .terminate
  doomed : t.doomed = true → s.doomed = true ∨ a = .terminate
  kill : a = .kill → s.doomed = true
  giveUp : a = .giveUp → s.main = .terminating
  gone : s.task = .gone → t.task = .gone

theorem step_endSpec {s t : DecTask} {a : DecTaskStep} (h : s.step a = some t) : s.EndSpec t a := by
  cases a with
  | task =>
      obtain ⟨-, hmain, -⟩ := stepTask_spec h
      have hdoomed := stepTask_doomed h
      refine ⟨fun hd => Or.inl (hmain ▸ hd), fun ht => Or.inl (hmain ▸ ht), fun hd => Or.inl (hdoomed ▸ hd),
        DecTaskStep.noConfusion, DecTaskStep.noConfusion, fun hgone => ?_⟩
      -- a task that is gone makes no step
      rw [DecTask.step, stepTask, hgone] at h
      cases h
  | tick =>
      cases h
      exact ⟨Or.inl, Or.inl, Or.inl, DecTaskStep.noConfusion, DecTaskStep.noConfusion, id⟩
  | park caller =>
      rw [DecTask.step, stepPark] at h
      split at h
      · cases h
        exact ⟨MainPc.noConfusion, MainPc.noConfusion, Or.inl, DecTaskStep.noConfusion, DecTaskStep.noConfusion, id⟩
      · cases h
  | poll =>
      rw [DecTask.step, stepPoll] at h
      split at h
      · split at h
        · cases h
          exact ⟨MainPc.noConfusion, MainPc.noConfusion, Or.inl, DecTaskStep.noConfusion, DecTaskStep.noConfusion, id⟩
        · split at h
          · cases h
            exact ⟨MainPc.noConfusion, MainPc.noConfusion, Or.inl, DecTaskStep.noConfusion, DecTaskStep.noConfusion,
              id⟩
          · cases h
            exact ⟨Or.inl, Or.inl, Or.inl, DecTaskStep.noConfusion, DecTaskStep.noConfusion, id⟩
      · cases h
  | reset =>
      have hafter : ∀ caller, s.EndSpec (afterPark s caller) .reset := by
        intro caller
        cases caller with
        | stopAudio | openAudioOutput | quitDecTask =>
            exact ⟨MainPc.noConfusion, MainPc.noConfusion, Or.inl, DecTaskStep.noConfusion, DecTaskStep.noConfusion,
              id⟩
      rw [DecTask.step, stepReset] at h
      split at h
      · cases h
        exact hafter _
      · cases h
        exact hafter _
      · cases h
  | wake =>
      rw [DecTask.step, stepWake] at h
      split at h
      · cases h
        exact ⟨MainPc.noConfusion, MainPc.noConfusion, Or.inl, DecTaskStep.noConfusion, DecTaskStep.noConfusion, id⟩
      · cases h
  | join =>
      rw [DecTask.step] at h
      split at h
      · next hjoin =>
        cases h
        exact ⟨fun _ => Or.inr (Or.inr ⟨rfl, hjoin.2⟩), MainPc.noConfusion, Or.inl, DecTaskStep.noConfusion,
          DecTaskStep.noConfusion, id⟩
      · cases h
  | terminate =>
      rw [DecTask.step] at h
      split at h
      · cases h
        exact ⟨MainPc.noConfusion, fun _ => Or.inr rfl, fun _ => Or.inr rfl, DecTaskStep.noConfusion,
          DecTaskStep.noConfusion, id⟩
      · cases h
  | giveUp =>
      rw [DecTask.step] at h
      split at h
      · next hterminating =>
        cases h
        exact ⟨fun _ => Or.inr (Or.inl rfl), MainPc.noConfusion, Or.inl, DecTaskStep.noConfusion,
          fun _ => hterminating, id⟩
      · cases h
  | kill =>
      rw [DecTask.step] at h
      split at h
      · next hdoomed =>
        cases h
        exact ⟨Or.inl, Or.inl, Or.inl, fun _ => hdoomed, DecTaskStep.noConfusion, fun _ => rfl⟩
      · cases h

/-- A task that nobody terminates is not killed, and `QuitDecTask` does not give up on it. -/
theorem spared_of_run {s t : DecTask} {later : List DecTaskStep} (hmain : s.main ≠ .terminating)
    (hdoomed : s.doomed ≠ true) (hspared : DecTaskStep.terminate ∉ later)
    (h : Lib.run DecTask.step s later = some t) : DecTaskStep.kill ∉ later ∧ DecTaskStep.giveUp ∉ later := by
  induction later generalizing s with
  | nil => exact ⟨List.not_mem_nil, List.not_mem_nil⟩
  | cons a later ih =>
      obtain ⟨u, hu, hrun⟩ := Option.bind_eq_some_iff.1 h
      rw [List.mem_cons, not_or] at hspared
      have hend := step_endSpec hu
      obtain ⟨hkill, hgiveUp⟩ := ih (fun hterm => (hend.terminating hterm).elim hmain (Ne.symm hspared.1))
        (fun hd => (hend.doomed hd).elim hdoomed (Ne.symm hspared.1)) hspared.2 hrun
      rw [List.mem_cons, not_or, List.mem_cons, not_or]
      exact ⟨⟨fun hk => hdoomed (hend.kill hk.symm), hkill⟩, fun hg => hmain (hend.giveUp hg.symm), hgiveUp⟩

/-- Unless `QuitDecTask` gives up, the task is gone when it returns. -/
theorem gone_of_run {s t : DecTask} {later : List DecTaskStep} (hs : s.main = .down → s.task = .gone)
    (hwaits : DecTaskStep.giveUp ∉ later) (h : Lib.run DecTask.step s later = some t) :
    t.main = .down → t.task = .gone := by
  have hok : Meets DecTask.step (fun _ a => a ≠ DecTaskStep.giveUp) s later := by
    refine meets_of_forall (fun a ha _ => ?_) s
    rintro rfl
    exact hwaits ha
  refine run_invariant_of_meets (fun u => u.main = .down → u.task = .gone) ?_ hs hok h
  intro u a v hu ha hstep hdown
  have hend := step_endSpec hstep
  rcases hend.down hdown with hdown | rfl | ⟨-, hgone⟩
  · exact hend.gone (hu hdown)
  · exact absurd rfl ha
  · exact hend.gone hgone

/-- The task alone comes to its end, and is joined. -/
theorem QuitInv.joins {s : DecTask} (hs : s.QuitInv) (hmain : s.main = .joining ∨ s.main = .terminating) :
    ∃ t, Lib.run DecTask.step s (List.replicate s.task.quitSteps .task ++ [.join]) = some t ∧ t.main = .down ∧
      t.task = .gone ∧ (s.main = .joining → t.gDecAck = .quit) := by
  generalize hk : s.task.quitSteps = k
  induction k generalizing s with
  | zero =>
      have hgone := TaskPc.quitSteps_eq_zero hk
      refine ⟨{ s with main := .down }, ?_, rfl, hgone, fun hjoining => ?_⟩
      · rw [List.replicate_zero, List.nil_append, run_cons, DecTask.step, if_pos ⟨hmain, hgone⟩]
        rfl
      · have hdoomed := hs.not_doomed (by simp [hjoining]) (by simp [hjoining])
        exact (hs.acked hgone).resolve_left (by simp [hdoomed])
  | succ k ih =>
      -- a task that is not gone can make its next step
      have hnext : ∃ u, s.stepTask = some u := by
        rw [stepTask]
        cases htask : s.task with
        | got cmd => cases cmd <;> exact ⟨_, rfl⟩
        | top | inPump | acking _ | napping | exiting => exact ⟨_, rfl⟩
        | gone =>
            rw [htask] at hk
            cases hk
      obtain ⟨u, hu⟩ := hnext
      obtain ⟨-, hsame, -⟩ := stepTask_spec hu
      have hnearer := stepTask_quit (hs.cmd (hmain.imp id Or.inl)) hu
      obtain ⟨t, ht, hdown, hgone, hack⟩ := ih (hs.step (a := .task) hu) (hsame ▸ hmain) (by omega)
      refine ⟨t, ?_, hdown, hgone, fun hjoining => hack (hsame.trans hjoining)⟩
      rw [List.replicate_succ, List.cons_append, run_cons, DecTask.step, hu]
      exact ht

end DecTask

/-- **`QuitDecTask` joins the task.** Wherever the task is when `QUIT` is written, and whatever comes then: it makes at
most seven more steps, and is in the pump only with the pass it has in hand; when `QuitDecTask` returns it is gone,
unless both waits have timed out. Unless it is killed, which takes a first wait that has timed out, each of its steps
counts. As long as `QuitDecTask` waits, the steps of the task lead to the join, and it has acknowledged `QUIT` then
unless it was terminated. -/
theorem quitDecTask_joins (tick : BitVec 32) {steps : List DecTaskStep} {s : DecTask}
    (hrun : run DecTask.step (DecTask.created tick) steps = some s) (hmain : s.main = .joining)
    {later : List DecTaskStep} {t : DecTask} (hlater : run DecTask.step s later = some t) :
    t.Quitting ∧ later.count .task ≤ 7 ∧ (t.task = .inPump → s.task.MayPump) ∧
      (t.main = .down → DecTaskStep.giveUp ∉ later → t.task = .gone) ∧
      (DecTaskStep.kill ∉ later → t.task.quitSteps + later.count .task = s.task.quitSteps) ∧
      (DecTaskStep.terminate ∉ later → DecTaskStep.kill ∉ later ∧ DecTaskStep.giveUp ∉ later) ∧
      (t.main = .joining ∨ t.main = .terminating →
        ∃ u, run DecTask.step t (List.replicate t.task.quitSteps .task ++ [.join]) = some u ∧ u.main = .down ∧
          u.task = .gone ∧ (t.main = .joining → u.gDecAck = .quit)) := by
  have hs : s.QuitInv := run_invariant DecTask.QuitInv (fun _ _ _ hu hstep => DecTask.QuitInv.step hu hstep)
    (DecTask.quitInv_created tick) hrun
  have hquit : s.Quitting := Or.inl hmain
  obtain ⟨ht, htquit, hwake, hle, heq⟩ := hs.run_quitting hquit hlater
  have hmost := s.task.quitSteps_le
  have hdoomed := hs.not_doomed (by simp [hmain]) (by simp [hmain])
  refine ⟨htquit, by omega, fun hpump => ?_, fun hdown hwaits => ?_, heq, fun hspared => ?_, ht.joins⟩
  · -- a task that is out of the pump stays out
    by_contra hout
    have hquiet : s.Out := ⟨by rw [hs.cmd hquit]; exact DecCmd.noConfusion, hout⟩
    exact (hquiet.run hwake hlater).2 (by rw [hpump]; trivial)
  · exact DecTask.gone_of_run (by simp [hmain]) hwaits hlater hdown
  · exact DecTask.spared_of_run (by simp [hmain]) (by simp [hdoomed]) hspared hlater

/-- Parked on a leftover acknowledgement, the task is told to quit in the pump. -/
def quitInPump : List DecTaskStep :=
  listenSteps ++ [.park .stopAudio, .poll, .reset, .park .quitDecTask, .poll, .reset]

/-- Both waits time out on a long pass: `QuitDecTask` returns with the task in the pump. -/
example : (run DecTask.step (DecTask.created 0) (quitInPump ++ [.terminate, .giveUp])).map
    (fun s => (s.main, s.task)) = some (.down, .inPump) := by
  decide

/-- The state in which it is told. -/
def toldInPump : DecTask := (run DecTask.step (DecTask.created 0) quitInPump).get (by decide)

/-- It makes a step, is terminated and comes to its end before it is killed. -/
theorem quitDecTask_joins_inPump :
    ∃ t u, run DecTask.step toldInPump [.task, .terminate] = some t ∧
      run DecTask.step t (List.replicate 5 .task ++ [.join]) = some u ∧ u.main = .down ∧ u.task = .gone := by
  have hrun : run DecTask.step (DecTask.created 0) quitInPump = some toldInPump := (Option.some_get _).symm
  have hlater : run DecTask.step toldInPump [.task, .terminate] = some _ := (Option.some_get (by decide)).symm
  obtain ⟨u, hu, hdown, hgone, -⟩ := (quitDecTask_joins 0 hrun (by decide) hlater).2.2.2.2.2.2 (by decide)
  exact ⟨_, u, hlater, hu, hdown, hgone⟩

end Casquinha.Decode
