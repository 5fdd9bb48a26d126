import Casquinha.Transport.Slices
import Mathlib.Data.List.Induction

/-!
# The life of a transaction

The invariant (`Inv`) says in which stage a transaction is and what it has sent and received; every
operation keeps it, whatever the provider answers. It gives the contract of the transaction: one
endpoint, torn down once and never used behind that; the request sent once and in order; the response
as it came in; an end that is final. The response has one exception: a chunk for which there is no
memory is lost, and the transaction fails for it.
-/

set_option autoImplicit false

namespace Casquinha.Transport

open Lib App CqTransport

/-- The stages of a transaction, with what has become of the chunks that were received. -/
inductive Stage (t : CqTransport) : Prop where
  | fresh (h : Fresh t) (hlive : t.cancelled = false) (kept : Kept t)
  | live (st : OtState) (h : Live st t) (hlive : t.cancelled = false)
      (hst : st = .connecting ∨ st = .sending ∨ st = .receiving) (kept : Kept t)
  | done (h : Done t) (kept : Kept t)
  | failed (e : CqTxError) (h : Failed e t) (heard : Kept t ∨ Starved t)
  | halted (h : Halted t) (kept : Kept t)

/-- How far the request has come: what receives has sent all of it. -/
structure Requested (t : CqTransport) : Prop where
  asked : Asked (request t.selector) t
  req_eq : ∀ req, t.req = some req → req = request t.selector
  none_sent : t.req = none → t.reqoff = 0
  all_sent : t.st = .receiving → t.reqoff = (request t.selector).length

/-- The invariant of a transaction. -/
structure Inv (t : CqTransport) : Prop where
  stage : Stage t
  requested : Requested t

theorem inv_cqTxNew (host : CStr) (port : Int) (selector : Option CStr) (streaming : Bool) :
    Inv (cqTxNew host port selector streaming) := by
  refine ⟨.fresh ⟨rfl, rfl, rfl, rfl, rfl⟩ rfl rfl, ⟨rfl, Nat.zero_le _⟩, ?_, fun _ => rfl, ?_⟩
  · intro req hreq
    cases hreq
  · intro hst
    cases hst

/-! ## A slice -/

/-- The request is known by the setup and by what was sent. -/
theorem Requested.congr {t u : CqTransport} (h : Requested t) (hsetup : setup u = setup t)
    (hsend : sendSide u = sendSide t) (hst : u.st = .receiving → t.st = .receiving) :
    Requested u := by
  simp only [setup, Setup.mk.injEq] at hsetup
  simp only [sendSide, Prod.mk.injEq] at hsend
  obtain ⟨haccepted, hreq, hoff⟩ := hsend
  have hselector : u.selector = t.selector := hsetup.2.2.1
  refine ⟨?_, ?_, ?_, ?_⟩
  · rw [hselector, Asked, haccepted, hoff]
    exact h.asked
  · rw [hselector, hreq]
    exact h.req_eq
  · rw [hreq, hoff]
    exact h.none_sent
  · rw [hselector, hoff]
    intro hu
    exact h.all_sent (hst hu)

theorem Quiet.cancelled {t u : CqTransport} (h : Quiet t u) : u.cancelled = t.cancelled :=
  congrArg Setup.cancelled h.1

/-- A slice that connects. -/
theorem inv_connects {t u : CqTransport} (hquiet : Quiet t u) (h : Connects u) (ht : Requested t)
    (hlive : t.cancelled = false) (hkept : Kept t) : Inv u := by
  have hcancelled : u.cancelled = false := hquiet.cancelled.trans hlive
  have hu := hquiet.kept hkept
  rcases h with hconnecting | hsending | hfailed
  · refine ⟨.live .connecting hconnecting hcancelled (Or.inl rfl) hu, ht.congr hquiet.1 hquiet.2.1 ?_⟩
    intro hst
    cases hconnecting.st_eq.symm.trans hst
  · refine ⟨.live .sending hsending hcancelled (Or.inr (Or.inl rfl)) hu,
      ht.congr hquiet.1 hquiet.2.1 ?_⟩
    intro hst
    cases hsending.st_eq.symm.trans hst
  · refine ⟨.failed .connect hfailed (Or.inl hu), ht.congr hquiet.1 hquiet.2.1 ?_⟩
    intro hst
    cases hfailed.st_eq.symm.trans hst

/-- A slice that sends. -/
theorem inv_sends {t u : CqTransport} (h : Sends (request t.selector) t u)
    (hreq : t.req = some (request t.selector)) (hlive : t.cancelled = false) (hkept : Kept t) :
    Inv u := by
  have hcancelled : u.cancelled = false := (congrArg Setup.cancelled h.setup_eq).trans hlive
  have hselector : u.selector = t.selector := congrArg Setup.selector h.setup_eq
  have hu : Kept u := kept_congr h.read_eq hkept
  -- the request is that of the selector, so only what `receiving` asks for differs by the outcome
  have hrequested : ∀ hall : u.st = .receiving → u.reqoff = (request u.selector).length,
      Requested u := by
    intro hall
    refine ⟨?_, ?_, ?_, hall⟩
    · rw [hselector]
      exact h.asked
    · intro req hureq
      rw [h.req_eq, hreq] at hureq
      rw [hselector]
      exact (Option.some.inj hureq).symm
    · intro hureq
      rw [h.req_eq, hreq] at hureq
      cases hureq
  rcases h.leaves with hsending | ⟨hreceiving, hoff⟩ | hfailed
  · refine ⟨.live .sending hsending hcancelled (Or.inr (Or.inl rfl)) hu, hrequested ?_⟩
    intro hst
    cases hsending.st_eq.symm.trans hst
  · refine ⟨.live .receiving hreceiving hcancelled (Or.inr (Or.inr rfl)) hu, hrequested ?_⟩
    intro _
    rw [hselector]
    exact hoff
  · refine ⟨.failed .stream hfailed (Or.inl hu), hrequested ?_⟩
    intro hst
    cases hfailed.st_eq.symm.trans hst

theorem inv_pumpSend (env : OtEnv) {t : CqTransport} (h : Live .sending t) (ht : Requested t)
    (hlive : t.cancelled = false) (hkept : Kept t) :
    setup (pumpSend env t) = setup t ∧ Inv (pumpSend env t) := by
  rw [pumpSend]
  split
  · -- the request was made in an earlier slice
    rename_i req hreq
    obtain rfl := ht.req_eq req hreq
    have hsends := sendLoop_spec env.snd h ht.asked
    exact ⟨hsends.setup_eq, inv_sends hsends hreq hlive hkept⟩
  · rename_i hreq
    have hoff : t.reqoff = 0 := ht.none_sent hreq
    split
    · -- the request is made, and nothing of it has been sent
      have hasked : Asked (request t.selector) { t with
          req := some (request t.selector)
          reqoff := 0 } := by
        have hnone := ht.asked.1
        rw [hoff] at hnone
        exact ⟨hnone, Nat.zero_le _⟩
      have hsending : Live .sending { t with
          req := some (request t.selector)
          reqoff := 0 } := ⟨h.st_eq, h.status_eq, h.error_eq, h.isOpen⟩
      have hsends := sendLoop_spec env.snd hsending hasked
      exact ⟨hsends.setup_eq, inv_sends (t := { t with
        req := some (request t.selector)
        reqoff := 0 }) hsends rfl hlive hkept⟩
    · -- no memory for the request
      have hquiet := quiet_fail t .stream "Out of memory for"
      have hfailed := h.isOpen.fail .stream "Out of memory for"
      refine ⟨hquiet.1, .failed .stream hfailed (Or.inl (hquiet.kept hkept)),
        ht.congr hquiet.1 hquiet.2.1 ?_⟩
      intro hst
      cases hfailed.st_eq.symm.trans hst

theorem inv_pumpRecv (env : OtEnv) {t : CqTransport} (h : Live .receiving t) (ht : Requested t)
    (hlive : t.cancelled = false) (hkept : Kept t) :
    setup (pumpRecv env t) = setup t ∧ Inv (pumpRecv env t) := by
  have hreads := recvLoop_spec env.rcv h hkept
  have hcancelled : (pumpRecv env t).cancelled = false :=
    (congrArg Setup.cancelled hreads.setup_eq).trans hlive
  have hrequested : Requested (pumpRecv env t) :=
    ht.congr hreads.setup_eq hreads.send_eq fun _ => h.st_eq
  refine ⟨hreads.setup_eq, ?_⟩
  rcases hreads.leaves with ⟨hreceiving, hu⟩ | ⟨hdone, hu⟩ | ⟨hfailed, hu⟩
  · exact ⟨.live .receiving hreceiving hcancelled (Or.inr (Or.inr rfl)) hu, hrequested⟩
  · exact ⟨.done hdone hu, hrequested⟩
  · exact ⟨.failed .stream hfailed hu, hrequested⟩

/-- A slice keeps the setup and the invariant. -/
theorem inv_slice (env : OtEnv) {t : CqTransport} (h : Inv t) (hlive : t.cancelled = false)
    (hrunning : t.status = .running) : setup (slice env t) = setup t ∧ Inv (slice env t) := by
  rw [slice]
  cases h.stage with
  | fresh hfresh _ kept =>
      rw [hfresh.st_eq]
      have hspec := openAndConnect_spec env hfresh
      exact ⟨hspec.1.1, inv_connects hspec.1 hspec.2 h.requested hlive kept⟩
  | live st hst _ hstates kept =>
      -- the three states of a transaction under way; the others do not get here
      rcases hstates with rfl | rfl | rfl
      · rw [hst.st_eq]
        have hspec := pumpConnect_spec env hst
        exact ⟨hspec.1.1, inv_connects hspec.1 hspec.2 h.requested hlive kept⟩
      · rw [hst.st_eq]
        exact inv_pumpSend env hst h.requested hlive kept
      · rw [hst.st_eq]
        exact inv_pumpRecv env hst h.requested hlive kept
  | done hdone _ => cases hdone.status_eq.symm.trans hrunning
  | failed e hfailed _ => cases hfailed.status_eq.symm.trans hrunning
  | halted hhalted _ => cases hhalted.cancelled_eq.symm.trans hlive

/-! ## Operations -/

/-- A running transaction that was not cancelled can fail for a deadline. -/
theorem inv_timeout {t : CqTransport} (h : Inv t) (hlive : t.cancelled = false)
    (hrunning : t.status = .running) (what : String) :
    Inv (t.fail .timeout what) ∧ Failed .timeout (t.fail .timeout what) := by
  have hquiet := quiet_fail t .timeout what
  -- with or without an endpoint, the failure leaves none behind
  have hfailed : Failed .timeout (t.fail .timeout what) ∧ Kept t := by
    cases h.stage with
    | fresh hfresh _ kept => exact ⟨hfresh.shut.fail _ _, kept⟩
    | live st hst _ _ kept => exact ⟨hst.isOpen.fail _ _, kept⟩
    | done hdone _ => cases hdone.status_eq.symm.trans hrunning
    | failed e hfailed _ => cases hfailed.status_eq.symm.trans hrunning
    | halted hhalted _ => cases hhalted.cancelled_eq.symm.trans hlive
  refine ⟨⟨.failed .timeout hfailed.1 (Or.inl (hquiet.kept hfailed.2)),
    h.requested.congr hquiet.1 hquiet.2.1 ?_⟩, hfailed.1⟩
  intro hst
  cases hfailed.1.st_eq.symm.trans hst

theorem inv_checkDeadlines (now : BitVec 32) {t : CqTransport} (h : Inv t)
    (hlive : t.cancelled = false) : Inv (checkDeadlines now t) := by
  rw [checkDeadlines]
  split
  · rename_i hrunning
    split
    · -- the connect deadline, then the transaction deadline
      exact (inv_timeout h hlive hrunning _).1
    · split
      · exact (inv_timeout h hlive hrunning _).1
      · exact h
  · exact h

theorem setup_checkDeadlines (now : BitVec 32) (t : CqTransport) :
    setup (checkDeadlines now t) = setup t := by
  rw [checkDeadlines]
  split
  · split
    · exact (quiet_fail _ _ _).1
    · split
      · exact (quiet_fail _ _ _).1
      · rfl
  · rfl

theorem cqTxPoll_of_running (env : OtEnv) {t : CqTransport} (hlive : t.cancelled = false)
    (hrunning : t.status = .running) : cqTxPoll env t = checkDeadlines env.tick (slice env t) := by
  rw [cqTxPoll, if_neg]
  -- neither cancelled nor over, so the poll does not return early
  rintro (hcancelled | hover)
  · rw [hlive] at hcancelled
    cases hcancelled
  · exact hover hrunning

/-- A poll does nothing, or it is a slice and a look at the clock. -/
theorem cqTxPoll_cases (env : OtEnv) (t : CqTransport) :
    cqTxPoll env t = t ∨ (t.cancelled = false ∧ t.status = .running ∧
      cqTxPoll env t = checkDeadlines env.tick (slice env t)) := by
  by_cases hidle : t.cancelled = true ∨ t.status ≠ .running
  · exact Or.inl (if_pos hidle)
  · obtain ⟨hlive, hrunning⟩ := not_or.1 hidle
    have hlive := Bool.eq_false_iff.2 hlive
    have hrunning := not_not.1 hrunning
    exact Or.inr ⟨hlive, hrunning, cqTxPoll_of_running env hlive hrunning⟩

/-- **A poll keeps the invariant.** -/
theorem inv_cqTxPoll (env : OtEnv) {t : CqTransport} (h : Inv t) : Inv (cqTxPoll env t) := by
  rcases cqTxPoll_cases env t with hidle | ⟨hlive, hrunning, hpoll⟩
  · rw [hidle]
    exact h
  · have hslice := inv_slice env h hlive hrunning
    rw [hpoll]
    exact inv_checkDeadlines env.tick hslice.2 ((congrArg Setup.cancelled hslice.1).trans hlive)

theorem setup_cqTxPoll (env : OtEnv) {t : CqTransport} (h : Inv t) :
    setup (cqTxPoll env t) = setup t := by
  rcases cqTxPoll_cases env t with hidle | ⟨hlive, hrunning, hpoll⟩
  · rw [hidle]
  · rw [hpoll]
    exact (setup_checkDeadlines _ _).trans (inv_slice env h hlive hrunning).1

/-- A poll drains nothing. -/
theorem drained_cqTxPoll (env : OtEnv) {t : CqTransport} (h : Inv t) :
    (cqTxPoll env t).drained = t.drained :=
  congrArg Setup.drained (setup_cqTxPoll env h)

/-- The clock and the notifier are no part of the invariant, and the response may move on from the
buffer to the caller. -/
theorem inv_aside {t : CqTransport} (h : Inv t) (start connect : BitVec 32) (event : Option OtEvent)
    {data drained : Bytes} (hbytes : drained ++ data = t.drained ++ t.data) :
    Inv { t with
      startTick := start
      connectTick := connect
      connEvent := event
      data := data
      drained := drained } := by
  refine ⟨?_, h.requested.asked, h.requested.req_eq, h.requested.none_sent, h.requested.all_sent⟩
  have hkept : ∀ kept : Kept t, drained ++ data = received t.calls := fun kept => hbytes.trans kept
  cases h.stage with
  | fresh hfresh hlive kept =>
      exact .fresh ⟨hfresh.st_eq, hfresh.status_eq, hfresh.error_eq, hfresh.ep_eq, hfresh.calls_eq⟩
        hlive (hkept kept)
  | live st hst hlive hstates kept =>
      exact .live st ⟨hst.st_eq, hst.status_eq, hst.error_eq, hst.isOpen⟩ hlive hstates (hkept kept)
  | done hdone kept =>
      exact .done ⟨hdone.st_eq, hdone.status_eq, hdone.error_eq, hdone.shut⟩ (hkept kept)
  | failed e hfailed heard =>
      refine .failed e ⟨hfailed.st_eq, hfailed.status_eq, hfailed.error_eq, hfailed.shut⟩ ?_
      -- what was drained and what is buffered together are as before
      apply heard.imp hkept
      rintro ⟨herror, hmessage, c, ep, front, behind, hcalls, hnone, hfront⟩
      exact ⟨herror, hmessage, c, ep, front, behind, hcalls, hnone, hbytes.trans hfront⟩
  | halted hhalted kept =>
      exact .halted ⟨hhalted.cancelled_eq, hhalted.status_eq, hhalted.error_eq, hhalted.shut⟩
        (hkept kept)

theorem inv_cqTxStart (now : BitVec 32) {t : CqTransport} (h : Inv t) : Inv (cqTxStart now t) :=
  inv_aside h now now t.connEvent rfl

theorem inv_connNotifier (code : OtEvent) {t : CqTransport} (h : Inv t) :
    Inv (connNotifier code t) := by
  have hset : ∀ event : Option OtEvent, Inv { t with connEvent := event } :=
    fun event => inv_aside h t.startTick t.connectTick event rfl
  cases code with
  | connect => exact hset _
  | disconnect => exact hset _
  | ordrel => exact h
  | other => exact h

theorem inv_cqTxDrain (cap : Nat) {t : CqTransport} (h : Inv t) : Inv (cqTxDrain t cap).2 := by
  apply inv_aside h t.startTick t.connectTick t.connEvent
  rw [List.append_assoc, List.take_append_drop]

/-- A transaction without an endpoint is cancelled by its mark alone. -/
theorem cqTxCancel_of_shut {t : CqTransport} (h : Shut t) :
    cqTxCancel t = { t with cancelled := true } := by
  rw [cqTxCancel]
  simp [h.1]

theorem inv_cqTxCancel {t : CqTransport} (h : Inv t) : Inv (cqTxCancel t) := by
  have hmarked : Requested { t with cancelled := true } :=
    ⟨h.requested.asked, h.requested.req_eq, h.requested.none_sent, h.requested.all_sent⟩
  cases h.stage with
  | fresh hfresh _ kept =>
      rw [cqTxCancel_of_shut hfresh.shut]
      exact ⟨.halted ⟨rfl, hfresh.status_eq, hfresh.error_eq, hfresh.shut⟩ kept, hmarked⟩
  | live st hst _ _ kept =>
      -- our half of the release goes out, and the endpoint is closed
      have hopen : Open { t with cancelled := true } := hst.isOpen
      have hquiet : Quiet { t with cancelled := true } (cqTxCancel t) := by
        simp only [cqTxCancel, hst.isOpen.isSome_ep, if_true]
        exact (quiet_call _ _ rfl).trans (quiet_teardown _)
      have hshut : Shut (cqTxCancel t) ∧ (cqTxCancel t).status = t.status ∧
          (cqTxCancel t).error = t.error ∧ (cqTxCancel t).st = t.st := by
        simp only [cqTxCancel, hst.isOpen.isSome_ep, if_true]
        exact ⟨(hopen.call .sndOrderlyDisconnect).teardown, rfl, rfl, rfl⟩
      refine ⟨.halted ⟨hquiet.cancelled, hshut.2.1.trans hst.status_eq,
        hshut.2.2.1.trans hst.error_eq, hshut.1⟩ (hquiet.kept kept), ?_⟩
      refine hmarked.congr hquiet.1 hquiet.2.1 ?_
      rw [hshut.2.2.2]
      exact id
  | done hdone kept =>
      rw [cqTxCancel_of_shut hdone.shut]
      exact ⟨.done ⟨hdone.st_eq, hdone.status_eq, hdone.error_eq, hdone.shut⟩ kept, hmarked⟩
  | failed e hfailed heard =>
      rw [cqTxCancel_of_shut hfailed.shut]
      exact ⟨.failed e ⟨hfailed.st_eq, hfailed.status_eq, hfailed.error_eq, hfailed.shut⟩ heard,
        hmarked⟩
  | halted hhalted kept =>
      rw [cqTxCancel_of_shut hhalted.shut]
      exact ⟨.halted ⟨rfl, hhalted.status_eq, hhalted.error_eq, hhalted.shut⟩ kept, hmarked⟩

/-- **Every operation keeps the invariant.** -/
theorem inv_txPerform {t : CqTransport} (h : Inv t) (op : TxOp) : Inv (txPerform t op) := by
  cases op with
  | start now => exact inv_cqTxStart now h
  | poll env => exact inv_cqTxPoll env h
  | drain cap => exact inv_cqTxDrain cap h
  | cancel => exact inv_cqTxCancel h
  | notify code => exact inv_connNotifier code h

theorem inv_foldl_txPerform {t : CqTransport} (h : Inv t) (ops : List TxOp) :
    Inv (ops.foldl txPerform t) := by
  induction ops generalizing t with
  | nil => exact h
  | cons op ops ih => exact ih (inv_txPerform h op)

/-- No operation changes what is asked for. -/
theorem selector_txPerform {t : CqTransport} (h : Inv t) (op : TxOp) :
    (txPerform t op).selector = t.selector := by
  cases op with
  | start now => rfl
  | drain cap => rfl
  | cancel =>
      show (cqTxCancel t).selector = t.selector
      rw [cqTxCancel]
      dsimp only
      split <;> rfl
  | notify code => cases code <;> rfl
  | poll env => exact congrArg Setup.selector (setup_cqTxPoll env h)

theorem selector_foldl_txPerform {t : CqTransport} (h : Inv t) (ops : List TxOp) :
    (ops.foldl txPerform t).selector = t.selector := by
  induction ops generalizing t with
  | nil => rfl
  | cons op ops ih => exact (ih (inv_txPerform h op)).trans (selector_txPerform h op)

/-- What an operation returns to the caller: a drain returns bytes. -/
def TxOp.returned (t : CqTransport) : TxOp → Bytes
  | .drain cap => (cqTxDrain t cap).1
  | .start _ | .poll _ | .cancel | .notify _ => []

/-- What a run returns to the caller, one operation behind the other. -/
def returned : CqTransport → List TxOp → Bytes
  | _, [] => []
  | t, op :: ops => op.returned t ++ returned (txPerform t op) ops

theorem drained_txPerform {t : CqTransport} (h : Inv t) (op : TxOp) :
    (txPerform t op).drained = t.drained ++ op.returned t := by
  cases op with
  | drain cap => exact (cqTxDrain_spec t cap).1
  | start now => exact (List.append_nil _).symm
  | poll env => exact (drained_cqTxPoll env h).trans (List.append_nil _).symm
  | cancel =>
      show (cqTxCancel t).drained = t.drained ++ []
      rw [cqTxCancel, List.append_nil]
      dsimp only
      split <;> rfl
  | notify code => cases code <;> exact (List.append_nil _).symm

/-- **What was drained** is what the run has returned to the caller, in order. -/
theorem drained_foldl_txPerform {t : CqTransport} (h : Inv t) (ops : List TxOp) :
    (ops.foldl txPerform t).drained = t.drained ++ returned t ops := by
  induction ops generalizing t with
  | nil => exact (List.append_nil _).symm
  | cons op ops ih =>
      rw [List.foldl_cons, ih (inv_txPerform h op), drained_txPerform h op, returned, List.append_assoc]

/-! ## The end -/

/-- `u` is `t` as far as the end of a transaction goes: nothing more is done with endpoints. -/
structure SameEnd (t u : CqTransport) : Prop where
  st_eq : u.st = t.st
  status_eq : u.status = t.status
  error_eq : u.error = t.error
  ep_eq : u.ep = none
  calls_eq : u.calls = t.calls

theorem Inv.shut_of_over {t : CqTransport} (h : Inv t) (hover : t.status ≠ .running) : Shut t := by
  cases h.stage with
  | fresh hfresh _ _ => exact hfresh.shut
  | live st hst _ _ _ => exact absurd hst.status_eq hover
  | done hdone _ => exact hdone.shut
  | failed e hfailed _ => exact hfailed.shut
  | halted hhalted _ => exact hhalted.shut

/-- A transaction that is over stays as it is. -/
theorem sameEnd_txPerform {t : CqTransport} (h : Inv t) (hover : t.status ≠ .running) (op : TxOp) :
    SameEnd t (txPerform t op) := by
  have hep := (h.shut_of_over hover).1
  cases op with
  | start now => exact ⟨rfl, rfl, rfl, hep, rfl⟩
  | drain cap => exact ⟨rfl, rfl, rfl, hep, rfl⟩
  | cancel =>
      show SameEnd t (cqTxCancel t)
      rw [cqTxCancel_of_shut (h.shut_of_over hover)]
      exact ⟨rfl, rfl, rfl, hep, rfl⟩
  | notify code => cases code <;> exact ⟨rfl, rfl, rfl, hep, rfl⟩
  | poll env =>
      have hidle : cqTxPoll env t = t := if_pos (Or.inr hover)
      show SameEnd t (cqTxPoll env t)
      rw [hidle]
      exact ⟨rfl, rfl, rfl, hep, rfl⟩

theorem sameEnd_foldl_txPerform {t : CqTransport} (h : Inv t) (hover : t.status ≠ .running)
    (ops : List TxOp) : SameEnd t (ops.foldl txPerform t) := by
  induction ops generalizing t with
  | nil => exact ⟨rfl, rfl, rfl, (h.shut_of_over hover).1, rfl⟩
  | cons op ops ih =>
      have hstep := sameEnd_txPerform h hover op
      have hrest := ih (inv_txPerform h op) (by rw [hstep.status_eq]; exact hover)
      exact ⟨hrest.st_eq.trans hstep.st_eq, hrest.status_eq.trans hstep.status_eq,
        hrest.error_eq.trans hstep.error_eq, hrest.ep_eq, hrest.calls_eq.trans hstep.calls_eq⟩

/-- `cq_tx_free` closes what is open. -/
theorem oneSession_cqTxFree {t : CqTransport} (h : Inv t) : OneSession (cqTxFree t) := by
  have hshut : ∀ hs : Shut t, OneSession (cqTxFree t) := by
    intro hs
    rw [cqTxFree]
    simp [hs.1, hs.2]
  cases h.stage with
  | fresh hfresh _ _ => exact hshut hfresh.shut
  | live st hst _ _ _ =>
      -- what is open is closed here, and with it the session is complete
      rw [cqTxFree, if_pos hst.isOpen.isSome_ep]
      exact hst.isOpen.teardown.2
  | done hdone _ => exact hshut hdone.shut
  | failed e hfailed _ => exact hshut hfailed.shut
  | halted hhalted _ => exact hshut hhalted.shut

theorem Inv.kept_or_starved {t : CqTransport} (h : Inv t) :
    Kept t ∨ (t.status = .failed ∧ Starved t) := by
  cases h.stage with
  | fresh _ _ kept => exact Or.inl kept
  | live _ _ _ _ kept => exact Or.inl kept
  | done _ kept => exact Or.inl kept
  | failed e hfailed heard => exact heard.imp_right fun hstarved => ⟨hfailed.status_eq, hstarved⟩
  | halted _ kept => exact Or.inl kept

/-! ## The contract -/

/-- **The life of a transaction.** Whatever its caller and its provider do, one endpoint is opened at
most, and it is torn down once and never used behind that; what it accepts is the request, in order and
once, and nothing is read before all of it is accepted; the response is what was received, unless
there was no memory for the last chunk, which ends the transaction; and its end is final. -/
theorem transaction_life (host : CStr) (port : Int) (selector : Option CStr) (streaming : Bool)
    (ops : List TxOp) :
    let t := ops.foldl txPerform (cqTxNew host port selector streaming)
    OneSession (cqTxFree t) ∧
      accepted t.calls <+: request (selector.getD .empty) ∧
      (t.st = .receiving → accepted t.calls = request (selector.getD .empty)) ∧
      (t.drained ++ t.data = received t.calls ∨ (t.status = .failed ∧ Starved t)) ∧
      (t.status ≠ .running → ∀ more : List TxOp, SameEnd t (more.foldl txPerform t)) := by
  intro t
  have hnew := inv_cqTxNew host port selector streaming
  have hinv : Inv t := inv_foldl_txPerform hnew ops
  have hselector : t.selector = selector.getD .empty := selector_foldl_txPerform hnew ops
  have hasked := hinv.requested.asked
  rw [hselector, Asked] at hasked
  refine ⟨oneSession_cqTxFree hinv, ?_, ?_, hinv.kept_or_starved, sameEnd_foldl_txPerform hinv⟩
  · -- what is accepted is the request up to the offset
    rw [hasked.1]
    exact List.take_prefix _ _
  · intro hreceiving
    -- and the offset is its end when reading begins
    have hall := hinv.requested.all_sent hreceiving
    rw [hselector] at hall
    rw [hasked.1, hall, List.take_length]

/-- A provider that answers at once, and has nothing to say. -/
def promptEnv : OtEnv where
  tick := 0
  up := true
  endpoint := some 1
  bound := true
  resolved := true
  upp := false
  armed := false
  connect := .noError
  look := .other
  rcvConnect := true
  reqAlloc := true
  snd := [.accepted 2]
  rcv := []

/-- A chunk of the greatest size. -/
def fullChunk : Chunk where
  bytes := List.replicate cqTxReadChunk 0
  nonempty := List.ne_nil_of_length_pos (by rw [List.length_replicate]; decide)
  fits := by rw [List.length_replicate]

/-- Three slices: connect, send all, and read a byte for which there is no memory. -/
def starvedOps : List TxOp :=
  [.poll promptEnv, .poll promptEnv,
    .poll { promptEnv with
      rcv := [.chunk ⟨[46], by decide, by decide⟩ false] }]

/-- A chunk for which there is no memory is not in the response. -/
theorem chunk_lost_without_memory :
    let t := starvedOps.foldl txPerform (cqTxNew (.lit "spot") 70 none false)
    t.drained ++ t.data = [] ∧ received t.calls = [46] ∧
      ¬ (t.drained ++ t.data = received t.calls) := by
  decide

end Casquinha.Transport
