import Casquinha.App.Cadence
import Casquinha.App.Marks
import Casquinha.Lib.Slot

/-!
# Coalescing before the wire (`src/cq_debounce.c`, `PollNetwork`)

The debouncer is a slot for one tap. A tap on Prev or Next replaces the one that waits and moves the
deadline; `PollNetwork` takes what waits once the deadline is over and the command is free. The history of
the taps and of what was taken is that of a slot (`Lib.SlotRun`) in every run, so that what is taken is
the most recent tap and no tap is lost but to a later one (`taps_coalesce`). The deadline is a signed
difference of ticks, which is never over too early.
-/

set_option autoImplicit false

namespace Casquinha.App

open Lib Wire

/-! ## History -/

/-- The time of the last step, and the taps put into the debouncer and taken from it, the newest first. -/
structure TapLog where
  now : Nat
  history : List (SlotMark CStr)

/-- The selector that a step takes from the debouncer. -/
def takenTap (s : Globals) (e : Event) : Option CStr :=
  match (perform e.env s e.act).gDeb.pending with
  | some _ => none
  | none => s.gDeb.pending

/-- The log after a step. -/
def noteTap (log : TapLog) (s : Globals) (x : TimedEvent) : TapLog where
  now := x.time
  history :=
    match tapOf s x.seen, takenTap s x.seen with
    | some sel, _ => .put sel x.time :: log.history
    | none, some sel => .take sel x.time :: log.history
    | none, none => log.history

/-- The launch. -/
def untapped (host : CStr) (port : Nat) (autoStart qtOk : Bool) : Traced Globals TapLog :=
  ⟨launch host port autoStart qtOk, ⟨0, []⟩⟩

/-! ## What is asked of a run -/

/-- Time does not go back, and a transaction can be allocated. -/
def Timely (y : Traced Globals TapLog) (x : TimedEvent) : Prop :=
  y.log.now ≤ x.time ∧ x.seen.env.alloc y.state.nextTx = true

instance (y : Traced Globals TapLog) (x : TimedEvent) : Decidable (Timely y x) :=
  inferInstanceAs (Decidable (_ ∧ _))

/-- What is taken is started at once, with no command in flight. -/
def StartsTaken (y : Traced Globals TapLog) (x : TimedEvent) : Prop :=
  ∀ sel, takenTap y.state x.seen = some sel →
    y.state.probe.gCmd = none ∧
      ∃ tx, (perform x.seen.env y.state x.seen.act).probe.gCmd = some tx ∧ tx.selector = sel

/-- The taps and the commands of a history, the newest first, with what still waits. -/
structure Coalesces (delay : Nat) (history : List (SlotMark CStr)) (pending : Option CStr) : Prop where
  /-- What is taken is the most recent tap, which has waited. -/
  latest : ∀ after before sel now, history = after ++ .take sel now :: before →
    ∃ tapped earlier, before = .put sel tapped :: earlier ∧ tapped + delay ≤ now
  /-- A tap causes one command at most: what follows it up to the next tap. -/
  once : ∀ after mid before sel tapped, history = after ++ (mid ++ .put sel tapped :: before) →
    (∀ m ∈ mid, m.isPut = false) → mid.length ≤ 1
  /-- There is a tap between two commands. -/
  between : ∀ after mid before sel sel' now later,
    history = after ++ .take sel' later :: (mid ++ .take sel now :: before) →
      ∃ m ∈ mid, m.isPut = true
  /-- A tap that has caused no command waits, or was replaced by a later one. -/
  kept : ∀ after before sel tapped, history = after ++ .put sel tapped :: before →
    (after = [] ∧ pending = some sel) ∨ (∃ later sel' t, after = later ++ [.put sel' t]) ∨
      ∃ later now, after = later ++ [.take sel now] ∧ tapped + delay ≤ now

theorem Coalesces.of_slotRun {delay : Nat} {history : List (SlotMark CStr)} {pending : Option CStr}
    (h : SlotRun delay history pending) : Coalesces delay history pending where
  latest := fun _ _ _ _ hsplit => h.take_follows_put hsplit
  once := fun _ _ _ _ _ hsplit htakes => h.taken_once hsplit htakes
  between := fun _ _ _ _ _ _ _ hsplit => h.put_between hsplit
  kept := fun _ _ _ _ hsplit => h.put_fate hsplit

/-! ## One step -/

/-- A deadline that is over as the ticks see it is over. -/
theorem deadline_over {time now : Nat} (hle : time ≤ now)
    (hover : 0 ≤ (BitVec.ofNat 32 now - BitVec.ofNat 32 (time + 18)).toInt) : time + 18 ≤ now := by
  by_contra hearly
  obtain ⟨d, hd⟩ : ∃ d, time + 18 = now + d := ⟨time + 18 - now, by omega⟩
  have hneg : BitVec.ofNat 32 now - BitVec.ofNat 32 (now + d) = -BitVec.ofNat 32 d := by
    rw [BitVec.ofNat_add, ← BitVec.sub_sub, BitVec.sub_self, BitVec.zero_sub]
  -- the sign bit is set up to the deadline
  rw [hd, hneg, BitVec.toInt_eq_toNat_cond, BitVec.toNat_neg, BitVec.toNat_ofNat] at hover
  split at hover <;> omega

/-- The debouncer is due. -/
def Due (env : Env) (s : Globals) : Prop :=
  cqDebounceHas s.gDeb ∧ 0 ≤ (env.tick - s.gCmdFire).toInt ∧ s.probe.gCmd = none

/-- What a debouncer that is due gives is started. -/
theorem flushDebounce_eq_of_due {env : Env} {s : Globals} {sel : CStr} (hdue : Due env s)
    (hpending : s.gDeb.pending = some sel) :
    flushDebounce env s = startCommand env { s with gDeb := ⟨none⟩ } sel := by
  have hdue' : cqDebounceHas s.gDeb ∧ 0 ≤ (env.tick - s.gCmdFire).toInt ∧ s.probe.gCmd = none := hdue
  simp only [flushDebounce, if_pos hdue', cqDebounceTake, hpending]

theorem flushDebounce_of_due {env : Env} {s : Globals} {sel : CStr} (hdue : Due env s)
    (hpending : s.gDeb.pending = some sel) (halloc : env.alloc s.nextTx = true) :
    (flushDebounce env s).gDeb.pending = none ∧
      ∃ tx, (flushDebounce env s).probe.gCmd = some tx ∧ tx.selector = sel := by
  rw [flushDebounce_eq_of_due hdue hpending, startCommand]
  simp only [hdue.2.2]
  exact ⟨trivial, ⟨s.nextTx, s.gHost, s.gPort, sel⟩, cqTxNew_of_alloc sel halloc, rfl⟩

/-- The slot of the taps, with the deadline of the one that waits. -/
structure TapKept (y : Traced Globals TapLog) : Prop where
  slot : SlotRun 18 y.log.history y.state.gDeb.pending
  deadline : ∀ sel time earlier, y.log.history = .put sel time :: earlier →
    time ≤ y.log.now ∧ y.state.gCmdFire = BitVec.ofNat 32 (time + 18)

theorem tapKept_untapped (host : CStr) (port : Nat) (autoStart qtOk : Bool) :
    TapKept (untapped host port autoStart qtOk) where
  slot := .empty
  deadline := by
    intro sel time earlier h
    cases h

/-- A tap is put into the debouncer, with its deadline. -/
theorem perform_of_tap {s : Globals} {e : Event} {sel : CStr} (h : tapOf s e = some sel) :
    (perform e.env s e.act).gDeb.pending = some sel ∧
      (perform e.env s e.act).gCmdFire = e.env.tick + cqDebounceTicks := by
  obtain ⟨env, act⟩ := e
  cases act with
  | clickPrev =>
      cases h
      exact ⟨rfl, rfl⟩
  | clickNext =>
      have hrow : nextRow (setIntent env s .skip) = nextRow s := rfl
      simp only [tapOf] at h
      split at h
      · next hnext =>
        cases h
        simp only [perform, nextCommand, hrow, hnext]
        exact ⟨rfl, rfl⟩
      · cases h
  | _ => cases h

/-- A step that neither taps nor flushes leaves the debouncer alone. -/
theorem debouncer_kept {s : Globals} {e : Event} (htap : tapOf s e = none)
    (hflush : e.act ≠ .flushDebounce) :
    (perform e.env s e.act).gDeb = s.gDeb ∧ (perform e.env s e.act).gCmdFire = s.gCmdFire := by
  cases hadopts : adopts s e with
  | none =>
      have hkept := marks_kept hadopts htap hflush
      exact ⟨congrArg (fun m => m.2.2.1) hkept, congrArg (fun m => m.2.2.2) hkept⟩
  | some n =>
      have hkept := marks_of_adopts hadopts
      exact ⟨congrArg (fun m => m.2.2.1) hkept, congrArg (fun m => m.2.2.2) hkept⟩

theorem due_of_pending {env : Env} {s : Globals}
    (h : (flushDebounce env s).gDeb.pending ≠ s.gDeb.pending) : Due env s := by
  by_contra hdue
  have hdue' : ¬ (cqDebounceHas s.gDeb ∧ 0 ≤ (env.tick - s.gCmdFire).toInt ∧
      s.probe.gCmd = none) := hdue
  rw [flushDebounce, if_neg hdue'] at h
  exact h rfl

/-- Only `PollNetwork` takes from the debouncer, when it is due. -/
theorem due_of_takenTap {s : Globals} {e : Event} {sel : CStr} (h : takenTap s e = some sel) :
    e.act = .flushDebounce ∧ Due e.env s ∧ s.gDeb.pending = some sel := by
  rw [takenTap] at h
  split at h
  · cases h
  · next hempty =>
    have hmoved : (perform e.env s e.act).gDeb.pending ≠ s.gDeb.pending := by
      rw [hempty, h]
      intro hsame
      cases hsame
    have hflush : e.act = .flushDebounce := by
      by_contra hother
      cases htap : tapOf s e with
      | some tapped =>
          rw [(perform_of_tap htap).1] at hempty
          cases hempty
      | none => exact hmoved (congrArg CqDebounce.pending (debouncer_kept htap hother).1)
    rw [hflush] at hmoved
    exact ⟨hflush, due_of_pending hmoved, h⟩

/-- A step that neither taps nor takes leaves what waits and its deadline. -/
theorem waits_of_no_mark {s : Globals} {e : Event} (htap : tapOf s e = none)
    (htaken : takenTap s e = none) :
    (perform e.env s e.act).gDeb.pending = s.gDeb.pending ∧
      (perform e.env s e.act).gCmdFire = s.gCmdFire := by
  by_cases hflush : e.act = .flushDebounce
  · rw [takenTap, hflush] at htaken
    rw [hflush]
    by_cases hdue : Due e.env s
    · -- a debouncer that is due has something to give
      have hhas : cqDebounceHas s.gDeb = true := hdue.1
      obtain ⟨sel, hpending⟩ := Option.isSome_iff_exists.1 hhas
      have hflushed : flushDebounce e.env s = startCommand e.env { s with gDeb := ⟨none⟩ } sel :=
        flushDebounce_eq_of_due hdue hpending
      have hempty : (perform e.env s .flushDebounce).gDeb.pending = none := by
        rw [perform, hflushed]
        exact (starts_startCommand e.env _ sel).frame (fun t => t.gDeb.pending) rfl
      rw [hempty, hpending] at htaken
      cases htaken
    · have hdue' : ¬ (cqDebounceHas s.gDeb ∧ 0 ≤ (e.env.tick - s.gCmdFire).toInt ∧
          s.probe.gCmd = none) := hdue
      rw [perform, flushDebounce, if_neg hdue']
      exact ⟨rfl, rfl⟩
  · obtain ⟨hdeb, hfire⟩ := debouncer_kept htap hflush
    exact ⟨congrArg CqDebounce.pending hdeb, hfire⟩

/-- **What is taken is started.** -/
theorem startsTaken_of_timely {y : Traced Globals TapLog} {x : TimedEvent} (htimely : Timely y x) :
    StartsTaken y x := by
  intro sel htaken
  obtain ⟨hflush, hdue, hpending⟩ := due_of_takenTap htaken
  refine ⟨hdue.2.2, ?_⟩
  rw [hflush]
  exact (flushDebounce_of_due hdue hpending htimely.2).2

/-- A tap is put into the slot, and its deadline is set. -/
theorem TapKept.put {y : Traced Globals TapLog} {x : TimedEvent} {sel : CStr} (h : TapKept y)
    (htap : tapOf y.state x.seen = some sel) :
    TapKept ⟨perform x.seen.env y.state x.seen.act, noteTap y.log y.state x⟩ := by
  obtain ⟨hpending, hfire⟩ := perform_of_tap htap
  have hhistory : (noteTap y.log y.state x).history = .put sel x.time :: y.log.history := by
    simp only [noteTap, htap]
  constructor
  · dsimp only
    rw [hhistory, hpending]
    exact h.slot.put sel x.time
  · intro sel' time earlier hput
    dsimp only at hput ⊢
    rw [hhistory] at hput
    cases hput
    refine ⟨Nat.le_refl _, hfire.trans ?_⟩
    rw [BitVec.ofNat_add]
    rfl

/-- What is taken was put last, and its deadline is over. -/
theorem TapKept.take {y : Traced Globals TapLog} {x : TimedEvent} {sel : CStr} (h : TapKept y)
    (htimely : Timely y x) (htap : tapOf y.state x.seen = none)
    (htaken : takenTap y.state x.seen = some sel) :
    TapKept ⟨perform x.seen.env y.state x.seen.act, noteTap y.log y.state x⟩ := by
  obtain ⟨hflush, hdue, hpending⟩ := due_of_takenTap htaken
  have hhistory : (noteTap y.log y.state x).history = .take sel x.time :: y.log.history := by
    simp only [noteTap, htap, htaken]
  have hslot := h.slot
  rw [hpending] at hslot
  obtain ⟨time, earlier, hnewest⟩ := hslot.newest_of_some
  obtain ⟨hle, hfire⟩ := h.deadline sel time earlier hnewest
  have hover : time + 18 ≤ x.time := by
    apply deadline_over (hle.trans htimely.1)
    rw [← hfire]
    exact hdue.2.1
  constructor
  · dsimp only
    rw [hhistory, hflush, perform]
    rw [hnewest] at hslot ⊢
    rw [(flushDebounce_of_due hdue hpending htimely.2).1]
    exact hslot.take hover
  · intro sel' time' earlier' hput
    dsimp only at hput
    rw [hhistory] at hput
    cases hput

/-- What neither taps nor takes leaves the slot and the deadline. -/
theorem TapKept.wait {y : Traced Globals TapLog} {x : TimedEvent} (h : TapKept y)
    (htimely : Timely y x) (htap : tapOf y.state x.seen = none)
    (htaken : takenTap y.state x.seen = none) :
    TapKept ⟨perform x.seen.env y.state x.seen.act, noteTap y.log y.state x⟩ := by
  obtain ⟨hpending, hfire⟩ := waits_of_no_mark htap htaken
  have hhistory : (noteTap y.log y.state x).history = y.log.history := by
    simp only [noteTap, htap, htaken]
  constructor
  · dsimp only
    rw [hhistory, hpending]
    exact h.slot
  · intro sel time earlier hput
    dsimp only at hput ⊢
    rw [hhistory] at hput
    obtain ⟨hle, hdeadline⟩ := h.deadline sel time earlier hput
    exact ⟨hle.trans htimely.1, hfire.trans hdeadline⟩

/-- **Every step** keeps the history that of a slot. -/
theorem TapKept.step {y z : Traced Globals TapLog} {x : TimedEvent} (h : TapKept y)
    (htimely : Timely y x) (hz : traced timedStep noteTap y x = some z) : TapKept z := by
  obtain ⟨t, ht, rfl⟩ := Option.map_eq_some_iff.1 hz
  cases ht
  cases htap : tapOf y.state x.seen with
  | some sel => exact h.put htap
  | none =>
      cases htaken : takenTap y.state x.seen with
      | some sel => exact h.take htimely htap htaken
      | none => exact h.wait htimely htap htaken

/-! ## Runs -/

/-- **Taps are coalesced before the wire.** In a run whose transactions can be allocated, what is taken
from the debouncer is the most recent tap, at least 18 ticks old, and is started at once with no command
in flight; a tap causes one command at most, there is a tap between two commands, and a tap is lost only
to a later one. -/
theorem taps_coalesce (host : CStr) (port : Nat) (autoStart qtOk : Bool) {events : List TimedEvent}
    (htimely : Meets (traced timedStep noteTap) Timely (untapped host port autoStart qtOk) events)
    {y : Traced Globals TapLog}
    (hrun : run (traced timedStep noteTap) (untapped host port autoStart qtOk) events = some y) :
    Meets (traced timedStep noteTap) StartsTaken (untapped host port autoStart qtOk) events ∧
      Coalesces cqDebounceTicks.toNat y.log.history y.state.gDeb.pending := by
  have hlaunch := tapKept_untapped host port autoStart qtOk
  have hkeep : ∀ (y : Traced Globals TapLog) (x : TimedEvent) (z : Traced Globals TapLog),
      TapKept y → Timely y x → traced timedStep noteTap y x = some z → TapKept z :=
    fun _ _ _ h hfirst hz => h.step hfirst hz
  constructor
  · exact meets_of_meets TapKept hkeep (fun _ _ _ hfirst => startsTaken_of_timely hfirst) hlaunch
      htimely
  · have hkept := run_invariant_of_meets TapKept hkeep hlaunch htimely hrun
    exact .of_slotRun hkept.slot

/-- Prev is tapped twice, and the second tap is taken once its deadline is over. -/
def tappedTwice : List TimedEvent :=
  [⟨100, worldAt 100 .running, .clickPrev⟩, ⟨105, worldAt 105 .running, .clickPrev⟩,
    ⟨110, worldAt 110 .running, .flushDebounce⟩, ⟨130, worldAt 130 .running, .flushDebounce⟩]

theorem taps_coalesce_sample :
    Meets (traced timedStep noteTap) StartsTaken (untapped (.lit "192.0.2.10") 70 false false)
        tappedTwice ∧
      Coalesces cqDebounceTicks.toNat
        ((run (traced timedStep noteTap) (untapped (.lit "192.0.2.10") 70 false false)
          tappedTwice).get rfl).log.history
        ((run (traced timedStep noteTap) (untapped (.lit "192.0.2.10") 70 false false)
          tappedTwice).get rfl).state.gDeb.pending :=
  taps_coalesce _ _ _ _ (by decide +kernel) (Option.some_get rfl).symm

example :
    (run (traced timedStep noteTap) (untapped (.lit "192.0.2.10") 70 false false) tappedTwice).map
        (fun y => y.log.history) =
      some [.take (.lit "/spot/api/1/prev") 130, .put (.lit "/spot/api/1/prev") 105,
        .put (.lit "/spot/api/1/prev") 100] := by
  rfl

end Casquinha.App
