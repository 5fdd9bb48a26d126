import Casquinha.App.Writes

/-!
# The queue on show

What the queue list is for: it shows the last list that was received, until two empty replies in a row
say that the queue is empty; error documents and failures slow the polling down and say nothing about
the queue. `QueueLedger` keeps the books of that. The code keeps to them as long as no `/queue` reply
is an error document: it takes one for an empty list and for a healthy reply (`queue_law`).
-/

set_option autoImplicit false

namespace Casquinha.App

open Lib Wire

/-- How a `/queue` transaction ends. -/
inductive QueueOutcome where
  /-- A list with a track in it. -/
  | received (items : CqTrackList)
  /-- A reply without an error key and without a track. -/
  | empty
  /-- A document with an error key. -/
  | error
  | failed
deriving DecidableEq

/-- The outcome in a report, if the transaction is over. -/
def queueOutcome : TxPoll → Option QueueOutcome
  | .running => none
  | .failed _ => some .failed
  | .done data =>
      match replyError data with
      | some _ => some .error
      | none =>
          if (cqTrackListFromResponse data).items = [] then some .empty
          else some (.received (cqTrackListFromResponse data))

/-- The last list received, the empty replies since, and the polling interval. -/
structure QueueLedger where
  received : CqTrackList
  empties : Nat
  backoff : CqBackoff

namespace QueueLedger

/-- Nothing has been received. -/
def blank : QueueLedger := ⟨⟨[]⟩, 0, cqBackoffInit cqQueuePollTicks cqPollCap⟩

/-- An outcome is entered. Failures stand between no replies: only an empty reply counts as one, and
only a list ends a row of them. -/
def enter (l : QueueLedger) : QueueOutcome → QueueLedger
  | .received items =>
      { received := items
        empties := 0
        backoff := cqBackoffOk l.backoff }
  | .empty =>
      { l with
        empties := l.empties + 1
        backoff := cqBackoffOk l.backoff }
  | .error | .failed => { l with backoff := cqBackoffFail l.backoff }

/-- The list that is to be on show. -/
def visible (l : QueueLedger) : CqTrackList := if 2 ≤ l.empties then ⟨[]⟩ else l.received

/-- The outcome that a step brings. -/
def outcome (s : Globals) (e : Event) : Option QueueOutcome :=
  match e.act with
  | .pumpQueue => s.gQueueTx.bind fun tx => queueOutcome (e.env.poll tx.id)
  | _ => none

/-- The ledger after a step from `s`. A new server starts at the base interval. -/
def note (l : QueueLedger) (s : Globals) (e : Event) : QueueLedger :=
  if resetsGuard s e then { l with backoff := blank.backoff }
  else
    match outcome s e with
    | some o => l.enter o
    | none => l

end QueueLedger

/-! ## One step -/

/-- A `/queue` reply that arrives carries no error key. -/
def QueueErrorFree (s : Globals) (e : Event) : Prop :=
  QueueLedger.outcome s e ≠ some .error

/-- The queue, its row of empty replies and its backoff, as the ledger has them. -/
structure KeepsLedger (x : Traced Globals QueueLedger) : Prop where
  items : x.state.gQueueItems = x.log.visible
  empties : x.state.gQueueEmptyRuns = x.log.empties
  backoff : x.state.gQBackoff = x.log.backoff
  base : x.log.backoff.base = cqQueuePollTicks
  current : cqQueuePollTicks ≤ x.log.backoff.current
  cap : x.log.backoff.cap = cqPollCap

/-- A failure slows the polling down, from whatever interval. -/
theorem KeepsLedger.fail_ne_ok {x : Traced Globals QueueLedger} (h : KeepsLedger x) :
    cqBackoffOk x.log.backoff ≠ cqBackoffFail x.log.backoff := by
  intro heq
  have hcurrent := congrArg CqBackoff.current heq
  have hbase := h.base
  have hcap := h.cap
  have hge := h.current
  simp only [cqBackoffOk, cqBackoffFail, hbase, hcap, cqQueuePollTicks, cqPollCap] at hcurrent hge
  split at hcurrent <;> split at hcurrent <;> omega

/-- The interval stays within its bounds when an outcome is entered. -/
theorem KeepsLedger.bounds {x : Traced Globals QueueLedger} (h : KeepsLedger x)
    (o : QueueOutcome) :
    (x.log.enter o).backoff.base = cqQueuePollTicks ∧
      cqQueuePollTicks ≤ (x.log.enter o).backoff.current ∧
      (x.log.enter o).backoff.cap = cqPollCap := by
  have hbase := h.base
  have hcap := h.cap
  have hge := h.current
  have hfail : cqQueuePollTicks ≤ (cqBackoffFail x.log.backoff).current := by
    simp only [cqBackoffFail, hcap, cqQueuePollTicks, cqPollCap] at hge ⊢
    split <;> split <;> omega
  cases o with
  | received items => exact ⟨hbase, le_of_eq hbase.symm, hcap⟩
  | empty => exact ⟨hbase, le_of_eq hbase.symm, hcap⟩
  | error => exact ⟨hbase, hfail, hcap⟩
  | failed => exact ⟨hbase, hfail, hcap⟩

/-- What the end of a `/queue` transaction does to the queue on show. -/
theorem pumpQueue_done {env : Env} {s : Globals} {tx : Tx} {data : Bytes}
    (htx : s.gQueueTx = some tx) (hpoll : env.poll tx.id = .done data) :
    (pumpQueue env s).gQBackoff = cqBackoffOk s.gQBackoff ∧
      (pumpQueue env s).gQueueItems =
        (if (cqTrackListFromResponse data).items ≠ [] then cqTrackListFromResponse data
        else if s.gQueueEmptyRuns + 1 = 2 ∧ 0 < s.gQueueItems.items.length then ⟨[]⟩
        else s.gQueueItems) ∧
      (pumpQueue env s).gQueueEmptyRuns =
        (if (cqTrackListFromResponse data).items ≠ [] then 0 else s.gQueueEmptyRuns + 1) := by
  rw [pumpQueue, htx]
  simp only [hpoll]
  by_cases hfresh : (cqTrackListFromResponse data).items ≠ []
  · simp only [if_pos hfresh, adoptQueue]
    split
    · -- the play that may start here does not touch the queue
      have h := asks_playFrom env (setIntent env { s with
        gQueueItems := cqTrackListFromResponse data
        gQueueEmptyRuns := 0
        gAutoPlayPending := false } .play) (cqTrackListFromResponse data) 0 none
      refine ⟨?_, h.frame Globals.gQueueItems rfl, h.frame Globals.gQueueEmptyRuns rfl⟩
      exact congrArg cqBackoffOk (h.frame Globals.gQBackoff rfl)
    · exact ⟨rfl, rfl, rfl⟩
  · simp only [if_neg hfresh, adoptEmptyQueue]
    split <;> exact ⟨rfl, rfl, rfl⟩

theorem pumpQueue_failed {env : Env} {s : Globals} {tx : Tx} {message : CStr}
    (htx : s.gQueueTx = some tx) (hpoll : env.poll tx.id = .failed message) :
    (pumpQueue env s).gQBackoff = cqBackoffFail s.gQBackoff ∧
      (pumpQueue env s).gQueueItems = s.gQueueItems ∧
      (pumpQueue env s).gQueueEmptyRuns = s.gQueueEmptyRuns := by
  rw [pumpQueue, htx]
  simp only [hpoll]
  exact ⟨trivial, trivial, trivial⟩

/-- Without an outcome the queue on show stays as it is. -/
theorem pumpQueue_quiet {env : Env} {s : Globals}
    (hnone : QueueLedger.outcome s ⟨env, .pumpQueue⟩ = none) :
    (pumpQueue env s).gQBackoff = s.gQBackoff ∧
      (pumpQueue env s).gQueueItems = s.gQueueItems ∧
      (pumpQueue env s).gQueueEmptyRuns = s.gQueueEmptyRuns := by
  rw [pumpQueue]
  cases htx : s.gQueueTx with
  | none =>
      dsimp only
      rw [startQueue]
      split <;> exact ⟨rfl, rfl, rfl⟩
  | some tx =>
      simp only [QueueLedger.outcome, htx, Option.bind_some] at hnone
      cases hpoll : env.poll tx.id with
      | running =>
          simp only [hpoll]
          exact ⟨trivial, trivial, trivial⟩
      | failed message =>
          rw [hpoll] at hnone
          cases hnone
      | done data =>
          -- a reply always has an outcome
          rw [hpoll, queueOutcome] at hnone
          split at hnone
          · cases hnone
          · split at hnone <;> cases hnone

/-- The outcome of a step is one of an ended transaction. -/
theorem QueueLedger.outcome_eq_some {env : Env} {s : Globals} {o : QueueOutcome}
    (h : QueueLedger.outcome s ⟨env, .pumpQueue⟩ = some o) :
    ∃ tx, s.gQueueTx = some tx ∧ queueOutcome (env.poll tx.id) = some o :=
  Option.bind_eq_some_iff.1 h

/-- The second empty reply of a row empties the list on show; a later one finds it empty. -/
theorem QueueLedger.visible_enter_empty {l : QueueLedger} {items : CqTrackList}
    (h : items = l.visible) :
    (if l.empties + 1 = 2 ∧ 0 < items.items.length then ⟨[]⟩ else items) =
      (l.enter .empty).visible := by
  have hvisible : (l.enter .empty).visible = if 2 ≤ l.empties + 1 then ⟨[]⟩ else l.received := rfl
  rw [hvisible]
  rw [visible] at h
  by_cases hsecond : l.empties + 1 = 2
  · rw [if_pos (by omega : 2 ≤ l.empties + 1)]
    by_cases hlen : 0 < items.items.length
    · rw [if_pos ⟨hsecond, hlen⟩]
    · rw [if_neg fun h' => hlen h'.2]
      have hnil : items.items = [] := List.eq_nil_of_length_eq_zero (by omega)
      obtain ⟨l⟩ := items
      exact congrArg CqTrackList.mk hnil
  · rw [if_neg fun h' => hsecond h'.1, h]
    by_cases hmany : 2 ≤ l.empties
    · rw [if_pos hmany, if_pos (by omega)]
    · rw [if_neg hmany, if_neg (by omega)]

/-- **An outcome** other than an error document is entered as the ledger says. -/
theorem KeepsLedger.pumpQueue {env : Env} {x : Traced Globals QueueLedger} {o : QueueOutcome}
    (h : KeepsLedger x) (ho : QueueLedger.outcome x.state ⟨env, .pumpQueue⟩ = some o)
    (herror : o ≠ .error) : KeepsLedger ⟨App.pumpQueue env x.state, x.log.enter o⟩ := by
  obtain ⟨tx, htx, hreport⟩ := QueueLedger.outcome_eq_some ho
  obtain ⟨hbase, hcurrent, hcap⟩ := h.bounds o
  have hempties := h.empties
  cases hpoll : env.poll tx.id with
  | running =>
      rw [hpoll] at hreport
      cases hreport
  | failed message =>
      rw [hpoll] at hreport
      cases hreport
      -- the handle has failed: only the backoff moves
      obtain ⟨hb, hi, hr⟩ := pumpQueue_failed htx hpoll
      refine ⟨?_, ?_, ?_, hbase, hcurrent, hcap⟩
      · exact hi.trans h.items
      · exact hr.trans hempties
      · exact hb.trans (congrArg cqBackoffFail h.backoff)
  | done data =>
      rw [hpoll, queueOutcome] at hreport
      obtain ⟨hb, hi, hr⟩ := pumpQueue_done htx hpoll
      cases hkey : replyError data with
      | some err =>
          rw [hkey] at hreport
          cases hreport
          exact absurd rfl herror
      | none =>
          rw [hkey] at hreport
          -- an empty list counts, a list with items starts the count anew
          by_cases hnil : (cqTrackListFromResponse data).items = []
          · simp only [if_pos hnil, Option.some.injEq] at hreport
            subst hreport
            rw [if_neg (not_not.2 hnil)] at hi hr
            refine ⟨?_, ?_, ?_, hbase, hcurrent, hcap⟩
            · rw [hempties] at hi
              exact hi.trans (QueueLedger.visible_enter_empty h.items)
            · rw [hr, hempties]
              rfl
            · exact hb.trans (congrArg cqBackoffOk h.backoff)
          · simp only [if_neg hnil, Option.some.injEq] at hreport
            subst hreport
            rw [if_pos hnil] at hi hr
            refine ⟨?_, ?_, ?_, hbase, hcurrent, hcap⟩
            · exact hi
            · exact hr
            · exact hb.trans (congrArg cqBackoffOk h.backoff)

/-- A step that enters nothing. -/
theorem KeepsLedger.quiet {x : Traced Globals QueueLedger} {t : Globals} (h : KeepsLedger x)
    (hb : t.gQBackoff = x.state.gQBackoff) (hi : t.gQueueItems = x.state.gQueueItems)
    (hr : t.gQueueEmptyRuns = x.state.gQueueEmptyRuns) : KeepsLedger ⟨t, x.log⟩ :=
  { h with
    items := hi.trans h.items
    empties := hr.trans h.empties
    backoff := hb.trans h.backoff }

/-- A change of server. -/
theorem KeepsLedger.changed {x : Traced Globals QueueLedger} {e : Event} (h : KeepsLedger x)
    (hserver : resetsGuard x.state e = true) :
    KeepsLedger ⟨perform e.env x.state e.act, QueueLedger.note x.log x.state e⟩ := by
  obtain ⟨host, port, suspended, hperform⟩ := perform_of_resets hserver
  rw [hperform, QueueLedger.note, if_pos hserver]
  exact
    { items := h.items
      empties := h.empties
      backoff := rfl
      base := rfl
      current := Int.le_refl _
      cap := rfl }

/-- A step that is neither of the queue nor of the server. -/
theorem KeepsLedger.frame {x : Traced Globals QueueLedger} {env : Env} {act : Act}
    (h : KeepsLedger x) (hserver : resetsGuard x.state ⟨env, act⟩ = false)
    (hf : ∀ s t : Globals, (written act s t).gQBackoff = s.gQBackoff ∧
      (written act s t).gQueueItems = s.gQueueItems ∧
      (written act s t).gQueueEmptyRuns = s.gQueueEmptyRuns) :
    KeepsLedger ⟨perform env x.state act, x.log⟩ :=
  h.quiet (perform_frame hserver _ (hf _ _).1) (perform_frame hserver _ (hf _ _).2.1)
    (perform_frame hserver _ (hf _ _).2.2)

/-- **A step without an error document keeps the books.** -/
theorem KeepsLedger.step {x : Traced Globals QueueLedger} {e : Event} (h : KeepsLedger x)
    (hfree : QueueErrorFree x.state e) :
    KeepsLedger ⟨perform e.env x.state e.act, QueueLedger.note x.log x.state e⟩ := by
  cases hserver : resetsGuard x.state e with
  | true => exact h.changed hserver
  | false =>
      obtain ⟨env, act⟩ := e
      rw [QueueLedger.note, if_neg (by rw [hserver]; simp)]
      cases act with
      | pumpQueue =>
          cases ho : QueueLedger.outcome x.state ⟨env, .pumpQueue⟩ with
          | none =>
              obtain ⟨hb, hi, hr⟩ := pumpQueue_quiet ho
              exact h.quiet hb hi hr
          | some o =>
              apply h.pumpQueue ho
              intro herror
              exact hfree (herror ▸ ho)
      | _ => exact h.frame hserver fun _ _ => ⟨rfl, rfl, rfl⟩

/-- An error document breaks the law: it resets the interval that it is to be charged to. -/
theorem KeepsLedger.errorFree {x : Traced Globals QueueLedger} {e : Event} (h : KeepsLedger x)
    (hlaw : (perform e.env x.state e.act).gQBackoff = (QueueLedger.note x.log x.state e).backoff) :
    QueueErrorFree x.state e := by
  obtain ⟨env, act⟩ := e
  intro herror
  cases act with
  | pumpQueue =>
      obtain ⟨tx, htx, hreport⟩ := QueueLedger.outcome_eq_some herror
      simp only [QueueLedger.note, resetsGuard, herror] at hlaw
      cases hpoll : env.poll tx.id with
      | running =>
          rw [hpoll] at hreport
          cases hreport
      | failed message =>
          rw [hpoll] at hreport
          cases hreport
      | done data =>
          -- the code resets where the law charges, and the two intervals differ
          have hb := (pumpQueue_done htx hpoll).1
          apply h.fail_ne_ok
          rw [← h.backoff, ← hb]
          exact hlaw.trans (congrArg cqBackoffFail h.backoff.symm)
  | _ => cases herror

/-! ## Runs -/

/-- **The queue law.** In every state a run passes through the queue on show is the last list received,
unless two empty replies in a row have followed it, and every error document and every failure has been
charged to the backoff: if and only if no `/queue` reply of the run is an error document. -/
theorem queue_law (host : CStr) (port : Nat) (autoStart qtOk : Bool) (events : List Event) :
    Meets step QueueErrorFree (launch host port autoStart qtOk) events ↔
      ∀ before x, before <+: events →
        run (traced step QueueLedger.note) ⟨launch host port autoStart qtOk, .blank⟩ before =
          some x →
        x.state.gQueueItems = x.log.visible ∧ x.state.gQBackoff = x.log.backoff := by
  rw [← meets_traced QueueLedger.note events ⟨launch host port autoStart qtOk, .blank⟩]
  refine meets_iff_of_law KeepsLedger ?_ ?_ ?_ (fun _ _ => rfl) ?_
  · intro x h
    exact ⟨h.items, h.backoff⟩
  · intro x e y h hok hy
    cases hy
    exact h.step hok
  · intro x e y h hy hlaw
    cases hy
    exact h.errorFree hlaw.2
  · exact ⟨rfl, rfl, rfl, rfl, Int.le_refl _, rfl⟩

/-- A track is queued, and then two error documents arrive. -/
def queueErrors : List Event :=
  [⟨worldAt 1000 .running, .pumpQueue⟩,
    ⟨worldAt 1060 (.done (ascii "item.0.uri\tspotify:track:A\n")), .pumpQueue⟩,
    ⟨worldAt 2000 .running, .pumpQueue⟩,
    ⟨worldAt 2060 (.done (ascii "error\tupstream\n")), .pumpQueue⟩,
    ⟨worldAt 3000 .running, .pumpQueue⟩,
    ⟨worldAt 3060 (.done (ascii "error\tupstream\n")), .pumpQueue⟩]

/-- **Two error documents empty the queue**, and the polling goes on at its base interval. -/
theorem error_documents_empty_queue :
    (run step (launch (.lit "192.0.2.10") 70 false false) (queueErrors.take 2)).map
        (fun s => s.gQueueItems.items.length) = some 1 ∧
      (run step (launch (.lit "192.0.2.10") 70 false false) queueErrors).map
        (fun s => (s.gQueueItems.items.length, s.gQBackoff.current)) =
        some (0, cqQueuePollTicks) ∧
      replyError (ascii "error\tupstream\n") = some (.lit "upstream") := by
  decide +kernel

end Casquinha.App
