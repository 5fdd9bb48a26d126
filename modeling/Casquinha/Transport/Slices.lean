import Casquinha.Transport.Ot

/-!
# What a slice can do

A transaction has not begun (`Fresh`), is under way with an open endpoint (`Live`), is over (`Done`,
`Failed`), or was cancelled (`Halted`). Each says what `t->ep` holds and what has been done with it: an
endpoint is open and only used, or none was ever opened, or one was opened, used and torn down
(`OneSession`).

Each function of the state machine has one lemma that says how it may leave a transaction and what it
has sent and received on the way. Whatever is neither a send nor a read is `Quiet`.
-/

set_option autoImplicit false

namespace Casquinha.Transport

open Lib App CqTransport

/-! ## Endpoints -/

/-- No endpoint was opened, or one was opened, used and torn down, in this order. -/
def OneSession (calls : List OtCall) : Prop :=
  calls = [] ∨ ∃ (ep : Nat) (ops : List OtOp),
    calls = OtCall.opened ep :: ops.map (OtCall.used (some ep)) ++ [OtCall.tornDown (some ep)]

/-- An endpoint is open: it is the only one, and it has been used and not torn down. -/
def Open (t : CqTransport) : Prop :=
  ∃ (ep : Nat) (ops : List OtOp),
    t.ep = some ep ∧ t.calls = OtCall.opened ep :: ops.map (OtCall.used (some ep))

/-- No endpoint is open. -/
def Shut (t : CqTransport) : Prop := t.ep = none ∧ OneSession t.calls

theorem Open.call {t : CqTransport} (h : Open t) (op : OtOp) : Open (t.call op) := by
  obtain ⟨ep, ops, hep, hcalls⟩ := h
  refine ⟨ep, ops ++ [op], hep, ?_⟩
  simp [CqTransport.call, hep, hcalls]

theorem Open.teardown {t : CqTransport} (h : Open t) : Shut t.teardown := by
  obtain ⟨ep, ops, hep, hcalls⟩ := h
  refine ⟨rfl, Or.inr ⟨ep, ops, ?_⟩⟩
  simp [CqTransport.teardown, hep, hcalls]

theorem Open.isSome_ep {t : CqTransport} (h : Open t) : t.ep.isSome = true := by
  obtain ⟨ep, ops, hep, -⟩ := h
  rw [hep]
  rfl

/-! ## Stages -/

/-- Not begun. -/
structure Fresh (t : CqTransport) : Prop where
  st_eq : t.st = .init
  status_eq : t.status = .running
  error_eq : t.error = .none
  ep_eq : t.ep = none
  calls_eq : t.calls = []

/-- Under way in state `st`. -/
structure Live (st : OtState) (t : CqTransport) : Prop where
  st_eq : t.st = st
  status_eq : t.status = .running
  error_eq : t.error = .none
  isOpen : Open t

/-- Over, with the response. -/
structure Done (t : CqTransport) : Prop where
  st_eq : t.st = .done
  status_eq : t.status = .done
  error_eq : t.error = .none
  shut : Shut t

/-- Over, with an error. -/
structure Failed (e : CqTxError) (t : CqTransport) : Prop where
  st_eq : t.st = .failed
  status_eq : t.status = .failed
  error_eq : t.error = e
  shut : Shut t

/-- Given up by the caller. -/
structure Halted (t : CqTransport) : Prop where
  cancelled_eq : t.cancelled = true
  status_eq : t.status = .running
  error_eq : t.error = .none
  shut : Shut t

theorem Open.fail {t : CqTransport} (h : Open t) (e : CqTxError) (what : String) :
    Failed e (t.fail e what) := by
  have hep := h.isSome_ep
  simp only [CqTransport.fail, hep, if_true]
  exact ⟨rfl, rfl, rfl, (h.call .sndOrderlyDisconnect).teardown⟩

theorem Shut.fail {t : CqTransport} (h : Shut t) (e : CqTxError) (what : String) :
    Failed e (t.fail e what) := by
  have hep : t.ep.isSome = false := by rw [h.1]; rfl
  simp only [CqTransport.fail, hep, Bool.false_eq_true, if_false]
  exact ⟨rfl, rfl, rfl, h⟩

theorem Open.finish {t : CqTransport} (h : Open t) (herr : t.error = .none) : Done t.finish :=
  ⟨rfl, rfl, herr, h.teardown⟩

/-! ## Bytes -/

/-- The bytes of a call that the endpoint has accepted. -/
def sentBytes : OtCall → Bytes
  | .used _ (.snd accepted) => accepted
  | _ => []

/-- The bytes of a call that the endpoint has delivered. -/
def gotBytes : OtCall → Bytes
  | .used _ (.rcv chunk) => chunk
  | _ => []

/-- All bytes that endpoints have accepted, in order. -/
def accepted (calls : List OtCall) : Bytes := calls.flatMap sentBytes

/-- All chunks that endpoints have delivered, one after the other. -/
def received (calls : List OtCall) : Bytes := calls.flatMap gotBytes

/-- What no slice changes: what the caller has set up, and what it has drained. -/
structure Setup where
  host : CStr
  port : Int
  selector : CStr
  streaming : Bool
  cancelled : Bool
  startTick : BitVec 32
  connectTick : BitVec 32
  drained : Bytes

/-- The part of a transaction that is its caller's. -/
def setup (t : CqTransport) : Setup :=
  ⟨t.host, t.port, t.selector, t.streaming, t.cancelled, t.startTick, t.connectTick, t.drained⟩

/-- The side that sends: what is accepted, the request and how far it has come. -/
def sendSide (t : CqTransport) : Bytes × Option Bytes × Nat :=
  (accepted t.calls, t.req, t.reqoff)

/-- The side that reads: what is received, what is buffered and what was drained. -/
def readSide (t : CqTransport) : Bytes × Bytes × Bytes := (received t.calls, t.data, t.drained)

/-- Nothing was sent or read from `t` to `u`, and the setup is the same. -/
def Quiet (t u : CqTransport) : Prop :=
  setup u = setup t ∧ sendSide u = sendSide t ∧ readSide u = readSide t

theorem Quiet.refl (t : CqTransport) : Quiet t t := ⟨rfl, rfl, rfl⟩

theorem Quiet.trans {t u v : CqTransport} (h : Quiet t u) (h' : Quiet u v) : Quiet t v :=
  ⟨h'.1.trans h.1, h'.2.1.trans h.2.1, h'.2.2.trans h.2.2⟩

/-- The call moves no bytes. -/
def OtOp.movesNothing : OtOp → Bool
  | .snd accepted => accepted = []
  | .rcv chunk => chunk = []
  | _ => true

theorem quiet_call (t : CqTransport) (op : OtOp) (h : op.movesNothing = true) :
    Quiet t (t.call op) := by
  have hsent : sentBytes (.used t.ep op) = [] := by
    cases op <;> first | rfl | simpa [OtOp.movesNothing, sentBytes] using h
  have hgot : gotBytes (.used t.ep op) = [] := by
    cases op <;> first | rfl | simpa [OtOp.movesNothing, gotBytes] using h
  refine ⟨rfl, ?_, ?_⟩
  · simp [sendSide, call, accepted, hsent]
  · simp [readSide, call, received, hgot]

theorem quiet_teardown (t : CqTransport) : Quiet t t.teardown := by
  refine ⟨rfl, ?_, ?_⟩
  · simp [sendSide, teardown, accepted, sentBytes]
  · simp [readSide, teardown, received, gotBytes]

theorem quiet_fail (t : CqTransport) (e : CqTxError) (what : String) : Quiet t (t.fail e what) := by
  have hstate : ∀ u : CqTransport, u = { t with
      status := .failed
      st := .failed
      error := e
      message := t.failText what } → Quiet t u := by
    rintro u rfl
    exact ⟨rfl, rfl, rfl⟩
  simp only [fail]
  split
  · -- an endpoint that is there releases its half, and is closed
    exact (hstate _ rfl).trans ((quiet_call _ _ rfl).trans (quiet_teardown _))
  · exact hstate _ rfl

theorem quiet_finish (t : CqTransport) : Quiet t t.finish :=
  (quiet_teardown t).trans ⟨rfl, rfl, rfl⟩

/-! ## Connecting -/

theorem Live.call {st : OtState} {t : CqTransport} (h : Live st t) (op : OtOp) :
    Live st (t.call op) :=
  ⟨h.st_eq, h.status_eq, h.error_eq, h.isOpen.call op⟩

theorem Live.enter {st : OtState} {t : CqTransport} (h : Live st t) (st' : OtState) :
    Live st' { t with st := st' } :=
  ⟨rfl, h.status_eq, h.error_eq, h.isOpen⟩

/-- A slice that connects goes on connecting, is connected, or fails. -/
def Connects (t : CqTransport) : Prop := Live .connecting t ∨ Live .sending t ∨ Failed .connect t

theorem connectEndpoint_spec (env : OtEnv) {st : OtState} {t : CqTransport} (h : Live st t) :
    Quiet t (connectEndpoint env t) ∧ Connects (connectEndpoint env t) := by
  have hcall := h.call .connect
  have hquiet : Quiet t (t.call .connect) := quiet_call t .connect rfl
  simp only [connectEndpoint]
  split <;> split
  · -- with the notifier the connect goes on whatever it says, or fails at once
    exact ⟨hquiet.trans ⟨rfl, rfl, rfl⟩, Or.inl (hcall.enter .connecting)⟩
  · exact ⟨hquiet.trans ⟨rfl, rfl, rfl⟩, Or.inl (hcall.enter .connecting)⟩
  · exact ⟨hquiet.trans (quiet_fail _ _ _), Or.inr (Or.inr (hcall.isOpen.fail _ _))⟩
  · -- without it a connect may be through at once
    exact ⟨hquiet.trans ⟨rfl, rfl, rfl⟩, Or.inr (Or.inl (hcall.enter .sending))⟩
  · exact ⟨hquiet.trans ⟨rfl, rfl, rfl⟩, Or.inl (hcall.enter .connecting)⟩
  · exact ⟨hquiet.trans (quiet_fail _ _ _), Or.inr (Or.inr (hcall.isOpen.fail _ _))⟩

theorem armNotifier_spec (env : OtEnv) {st : OtState} {t : CqTransport} (h : Live st t) :
    Quiet t (armNotifier env t) ∧ Live st (armNotifier env t) := by
  have hclear : Live st { t with connEvent := none } := ⟨h.st_eq, h.status_eq, h.error_eq, h.isOpen⟩
  have hquiet : Quiet t { t with connEvent := none } := ⟨rfl, rfl, rfl⟩
  simp only [armNotifier]
  split
  · -- the UPP is there: install the notifier, then asynchronous mode
    have hinstall := hclear.call .installNotifier
    have hinstalled := hquiet.trans (quiet_call { t with connEvent := none } .installNotifier rfl)
    split
    · have hasync := hinstall.call .setAsynchronous
      refine ⟨(hinstalled.trans (quiet_call _ .setAsynchronous rfl)).trans ⟨rfl, rfl, rfl⟩, ?_⟩
      exact ⟨hasync.st_eq, hasync.status_eq, hasync.error_eq, hasync.isOpen⟩
    · exact ⟨hinstalled, hinstall⟩
  · exact ⟨hquiet, hclear⟩

/-- The endpoint is opened, and set up for the connect. -/
theorem live_opened {t : CqTransport} (h : Fresh t) (ep : Nat) :
    Live .init { t with
      ep := some ep
      calls := t.calls ++ [OtCall.opened ep] } := by
  refine ⟨h.st_eq, h.status_eq, h.error_eq, ep, [], rfl, ?_⟩
  simp [h.calls_eq]

theorem Fresh.shut {t : CqTransport} (h : Fresh t) : Shut t := ⟨h.ep_eq, Or.inl h.calls_eq⟩

theorem openAndConnect_spec (env : OtEnv) {t : CqTransport} (h : Fresh t) :
    Quiet t (openAndConnect env t) ∧ Connects (openAndConnect env t) := by
  rw [openAndConnect]
  split
  · -- no networking
    exact ⟨quiet_fail t _ _, Or.inr (Or.inr (h.shut.fail _ _))⟩
  · split
    · -- no endpoint
      have hshut : Shut { t with ep := none } := ⟨rfl, h.shut.2⟩
      have hquiet : Quiet t { t with ep := none } := ⟨rfl, rfl, rfl⟩
      -- the bind fails
      -- the name is not resolved
      exact ⟨hquiet.trans (quiet_fail _ _ _), Or.inr (Or.inr (hshut.fail _ _))⟩
    · rename_i ep _
      have hopened : Quiet t { t with
          ep := some ep
          calls := t.calls ++ [OtCall.opened ep] } := by
        refine ⟨rfl, ?_, ?_⟩
        · simp [sendSide, accepted, sentBytes]
        · simp [readSide, received, gotBytes]
      -- synchronous, non-blocking, with idle events, and bound: none of it moves bytes
      have hbound := (((((live_opened h ep).call .setSynchronous).call .setNonBlocking).call
        .useSyncIdleEvents).call .bind)
      have hquiet := (((hopened.trans (quiet_call _ .setSynchronous rfl)).trans
        (quiet_call _ .setNonBlocking rfl)).trans
        (quiet_call _ .useSyncIdleEvents rfl)).trans (quiet_call _ .bind rfl)
      dsimp only
      split
      · exact ⟨hquiet.trans (quiet_fail _ _ _), Or.inr (Or.inr (hbound.isOpen.fail _ _))⟩
      · split
        · exact ⟨hquiet.trans (quiet_fail _ _ _), Or.inr (Or.inr (hbound.isOpen.fail _ _))⟩
        · have harmed := armNotifier_spec env hbound
          have hconnect := connectEndpoint_spec env harmed.2
          exact ⟨(hquiet.trans harmed.1).trans hconnect.1, hconnect.2⟩

theorem pumpConnect_spec (env : OtEnv) {t : CqTransport} (h : Live .connecting t) :
    Quiet t (pumpConnect env t) ∧ Connects (pumpConnect env t) := by
  have hlook := h.call .look
  have hquiet : Quiet t (t.call .look) := quiet_call t .look rfl
  rw [pumpConnect]
  dsimp only
  split
  · -- the connect is through, or refused
    have hrcv := hlook.call .rcvConnect
    have hrcvQuiet := hquiet.trans (quiet_call _ .rcvConnect rfl)
    split
    · split
      · have hsync := hrcv.call .setSynchronous
        refine ⟨(hrcvQuiet.trans (quiet_call _ .setSynchronous rfl)).trans ⟨rfl, rfl, rfl⟩, ?_⟩
        exact Or.inr (Or.inl ⟨rfl, hsync.status_eq, hsync.error_eq, hsync.isOpen⟩)
      · exact ⟨hrcvQuiet.trans ⟨rfl, rfl, rfl⟩, Or.inr (Or.inl (hrcv.enter .sending))⟩
    · exact ⟨hrcvQuiet.trans (quiet_fail _ _ _), Or.inr (Or.inr (hrcv.isOpen.fail _ _))⟩
  · -- reset
    have hrcv := hlook.call .rcvDisconnect
    have hrcvQuiet := hquiet.trans (quiet_call _ .rcvDisconnect rfl)
    exact ⟨hrcvQuiet.trans (quiet_fail _ _ _), Or.inr (Or.inr (hrcv.isOpen.fail _ _))⟩
  · -- nothing that concerns the connect: it goes on
    exact ⟨hquiet, Or.inl hlook⟩
  · exact ⟨hquiet, Or.inl hlook⟩

/-! ## Sending -/

/-- The endpoint has accepted the first `reqoff` bytes of `req`. -/
def Asked (req : Bytes) (t : CqTransport) : Prop :=
  accepted t.calls = req.take t.reqoff ∧ t.reqoff ≤ req.length

/-- A slice that sends, from `t` to `u`, has not sent all, or has and goes on to receive, or fails. -/
structure Sends (req : Bytes) (t u : CqTransport) : Prop where
  setup_eq : setup u = setup t
  req_eq : u.req = t.req
  read_eq : readSide u = readSide t
  asked : Asked req u
  leaves : Live .sending u ∨ (Live .receiving u ∧ u.reqoff = req.length) ∨ Failed .stream u

theorem Quiet.asked {req : Bytes} {t u : CqTransport} (h : Quiet t u) (ht : Asked req t) :
    Asked req u := by
  have hside := h.2.1
  simp only [sendSide, Prod.mk.injEq] at hside
  rw [Asked, hside.1, hside.2.2]
  exact ht

theorem accepted_snd (t : CqTransport) (sent : Bytes) :
    accepted (t.call (.snd sent)).calls = accepted t.calls ++ sent := by
  simp [call, accepted, sentBytes]

theorem received_snd (t : CqTransport) (sent : Bytes) :
    received (t.call (.snd sent)).calls = received t.calls := by
  simp [call, received, gotBytes]

/-- What the endpoint accepts comes next in the request. -/
theorem Asked.snd {req : Bytes} {t : CqTransport} (h : Asked req t) (n : Nat) :
    Asked req { t.call (.snd ((req.drop t.reqoff).take n)) with
      reqoff := t.reqoff + ((req.drop t.reqoff).take n).length } := by
  obtain ⟨htake, hle⟩ := h
  have hlen : ((req.drop t.reqoff).take n).length = min n (req.length - t.reqoff) := by
    rw [List.length_take, List.length_drop]
  refine ⟨?_, ?_⟩
  · show accepted (t.call (.snd ((req.drop t.reqoff).take n))).calls = _
    rw [accepted_snd, htake, List.take_add, hlen]
    congr 1
    rw [← List.length_drop, ← List.take_eq_take_min]
  · show t.reqoff + ((req.drop t.reqoff).take n).length ≤ req.length
    rw [hlen]
    omega

theorem Quiet.sends {req : Bytes} {t u : CqTransport} (h : Quiet t u) (hasked : Asked req t)
    (hleaves : Live .sending u ∨ Failed .stream u) : Sends req t u := by
  have hreq := congrArg (fun side => side.2.1) h.2.1
  exact ⟨h.1, hreq, h.2.2, h.asked hasked, hleaves.imp_right Or.inr⟩

theorem sends_all {req : Bytes} {t : CqTransport} (h : Live .sending t) (hasked : Asked req t)
    (hall : ¬ t.reqoff < req.length) : Sends req t { t with st := .receiving } := by
  have hoff : t.reqoff = req.length := Nat.le_antisymm hasked.2 (Nat.le_of_not_lt hall)
  exact ⟨rfl, rfl, rfl, hasked, Or.inr (Or.inl ⟨h.enter .receiving, hoff⟩)⟩

theorem sendLoop_spec {req : Bytes} (results : List SndResult) {t : CqTransport}
    (h : Live .sending t) (hasked : Asked req t) : Sends req t (sendLoop req results t) := by
  induction results generalizing t with
  | nil =>
      rw [sendLoop]
      split
      · -- no more results: the endpoint takes nothing this slice
        exact (quiet_call t _ rfl).sends hasked (Or.inl (h.call _))
      · exact sends_all h hasked ‹_›
  | cons result results ih =>
      unfold sendLoop
      split
      · cases result with
        | flow => exact (quiet_call t _ rfl).sends hasked (Or.inl (h.call _))
        | error =>
            have hquiet : Quiet t (t.call (.snd [])) := quiet_call t _ rfl
            exact (hquiet.trans (quiet_fail _ _ _)).sends hasked
              (Or.inr ((h.call _).isOpen.fail _ _))
        | accepted n =>
            -- the offset moves by what was accepted, and the loop goes on behind it
            have hsent := h.call (.snd ((req.drop t.reqoff).take n))
            have hnext := ih (t := { t.call (.snd ((req.drop t.reqoff).take n)) with
                reqoff := t.reqoff + ((req.drop t.reqoff).take n).length })
              ⟨hsent.st_eq, hsent.status_eq, hsent.error_eq, hsent.isOpen⟩ (hasked.snd n)
            refine ⟨hnext.setup_eq, hnext.req_eq, hnext.read_eq.trans ?_, hnext.asked, hnext.leaves⟩
            simp only [readSide]
            rw [received_snd]
            rfl
      · exact sends_all h hasked ‹_›

/-! ## Receiving -/

/-- What has been received has been drained, or waits in the buffer. -/
def Kept (t : CqTransport) : Prop := t.drained ++ t.data = received t.calls

/-- There was no memory for the last chunk received, and the transaction has failed for it: what has been
received in front of that chunk has been drained, or waits in the buffer. -/
def Starved (t : CqTransport) : Prop :=
  t.error = .stream ∧ t.message = t.failText "Out of memory reading from" ∧
    ∃ (c : Chunk) (ep : Option Nat) (front behind : List OtCall),
      t.calls = front ++ .used ep (.rcv c.bytes) :: behind ∧ received behind = [] ∧
        t.drained ++ t.data = received front

/-- A slice that reads, from `t` to `u`, goes on, ends well, or fails; it fails for want of memory
or with all that was received. -/
structure Reads (t u : CqTransport) : Prop where
  setup_eq : setup u = setup t
  send_eq : sendSide u = sendSide t
  leaves : (Live .receiving u ∧ Kept u) ∨ (Done u ∧ Kept u) ∨ (Failed .stream u ∧ (Kept u ∨ Starved u))

theorem kept_congr {t u : CqTransport} (h : readSide u = readSide t) (ht : Kept t) : Kept u := by
  simp only [readSide, Prod.mk.injEq] at h
  rw [Kept, h.1, h.2.1, h.2.2]
  exact ht

theorem Quiet.kept {t u : CqTransport} (h : Quiet t u) (ht : Kept t) : Kept u :=
  kept_congr h.2.2 ht

theorem Quiet.reads {t u : CqTransport} (h : Quiet t u) (hkept : Kept t)
    (hleaves : Live .receiving u ∨ Done u ∨ Failed .stream u) : Reads t u := by
  have hu := h.kept hkept
  refine ⟨h.1, h.2.1, ?_⟩
  rcases hleaves with hlive | hdone | hfailed
  · exact Or.inl ⟨hlive, hu⟩
  · exact Or.inr (Or.inl ⟨hdone, hu⟩)
  · exact Or.inr (Or.inr ⟨hfailed, Or.inl hu⟩)

theorem accepted_rcv (t : CqTransport) (chunk : Bytes) :
    accepted (t.call (.rcv chunk)).calls = accepted t.calls := by
  simp [call, accepted, sentBytes]

theorem received_rcv (t : CqTransport) (chunk : Bytes) :
    received (t.call (.rcv chunk)).calls = received t.calls ++ chunk := by
  simp [call, received, gotBytes]

/-- `append` adds to the buffer, and to the capacity of the buffer. -/
theorem append_eq_some {t u : CqTransport} {buf : Bytes} {grows : Bool}
    (h : t.append buf grows = some u) : ∃ cap, u = { t with
      data := t.data ++ buf
      cap := cap } := by
  rw [append] at h
  by_cases hcap : t.cap < t.data.length + buf.length
  · cases grows with
    | false => simp [hcap] at h
    | true =>
        simp only [hcap, if_true] at h
        exact ⟨_, (Option.some.inj h).symm⟩
  · simp only [hcap, if_false] at h
    exact ⟨t.cap, (Option.some.inj h).symm⟩

/-- The text of a failure depends on the setup alone. -/
theorem failText_congr {t u : CqTransport} (h : setup u = setup t) (what : String) :
    u.failText what = t.failText what := by
  simp only [setup, Setup.mk.injEq] at h
  simp only [failText, h.1, h.2.1]

theorem fail_message (t : CqTransport) (e : CqTxError) (what : String) :
    (t.fail e what).message = t.failText what := by
  rw [fail]
  dsimp only
  split <;> rfl

/-- A failure receives nothing. -/
theorem calls_fail (t : CqTransport) (e : CqTxError) (what : String) :
    ∃ behind, (t.fail e what).calls = t.calls ++ behind ∧ received behind = [] := by
  rw [fail]
  dsimp only
  split
  · refine ⟨[.used t.ep .sndOrderlyDisconnect, .tornDown t.ep], ?_, rfl⟩
    simp only [call, teardown, List.append_assoc, List.singleton_append]
  · exact ⟨[], (List.append_nil _).symm, rfl⟩

/-- A chunk for which there is no memory is lost. -/
theorem starved_fail {t : CqTransport} (h : Live .receiving t) (hkept : Kept t) (c : Chunk) :
    Reads t ((t.call (.rcv c.bytes)).fail .stream "Out of memory reading from") := by
  have hquiet := quiet_fail (t.call (.rcv c.bytes)) .stream "Out of memory reading from"
  have hfailed := (h.call (.rcv c.bytes)).isOpen.fail .stream "Out of memory reading from"
  refine ⟨hquiet.1.trans rfl, hquiet.2.1.trans ?_, Or.inr (Or.inr ⟨hfailed, Or.inr ?_⟩)⟩
  · simp only [sendSide]
    rw [accepted_rcv]
    rfl
  · -- the chunk is received and not appended, and the message says why
    obtain ⟨behind, hcalls, hnone⟩ := calls_fail (t.call (.rcv c.bytes)) .stream "Out of memory reading from"
    refine ⟨hfailed.error_eq, ?_, c, t.ep, t.calls, behind, ?_, hnone, ?_⟩
    · rw [fail_message, failText_congr hquiet.1]
    · rw [hcalls, call, List.append_assoc, List.singleton_append]
    · have hside := hquiet.2.2
      simp only [readSide, Prod.mk.injEq] at hside
      rw [hside.2.1, hside.2.2]
      exact hkept

theorem readFailed_spec {t : CqTransport} (h : Live .receiving t) (hkept : Kept t) (release : Bool) :
    Reads t (t.readFailed release) := by
  rw [readFailed]
  split
  · -- a response that has begun is taken as it is
    cases release with
    | false => exact (quiet_finish t).reads hkept (Or.inr (Or.inl (h.isOpen.finish h.error_eq)))
    | true =>
        have hrelease := h.call .sndOrderlyDisconnect
        have hquiet : Quiet t (t.call .sndOrderlyDisconnect) := quiet_call t _ rfl
        exact (hquiet.trans (quiet_finish _)).reads hkept
          (Or.inr (Or.inl (hrelease.isOpen.finish hrelease.error_eq)))
  · -- an empty one is a failure
    exact (quiet_fail t _ _).reads hkept (Or.inr (Or.inr (h.isOpen.fail _ _)))

/-- Reads that follow on something quiet. -/
theorem Quiet.thenReads {t u v : CqTransport} (h : Quiet t u) (h' : Reads u v) : Reads t v :=
  ⟨h'.setup_eq.trans h.1, h'.send_eq.trans h.2.1, h'.leaves⟩

theorem recvLoop_spec (results : List RcvResult) {t : CqTransport} (h : Live .receiving t)
    (hkept : Kept t) : Reads t (recvLoop results t) := by
  have hrcv : ∀ t : CqTransport, Quiet t (t.call (.rcv [])) := fun t => quiet_call t _ rfl
  induction results generalizing t with
  | nil =>
      rw [recvLoop]
      split
      · exact (Quiet.refl t).reads hkept (Or.inl h)
      · exact (hrcv t).reads hkept (Or.inl (h.call _))
  | cons result results ih =>
      unfold recvLoop
      split
      · -- the buffer of a stream is full enough: no read
        exact (Quiet.refl t).reads hkept (Or.inl h)
      · have hcall := h.call (.rcv [])
        have hcallKept := (hrcv t).kept hkept
        cases result with
        | noData => exact (hrcv t).reads hkept (Or.inl hcall)
        | error => exact (hrcv t).thenReads (readFailed_spec hcall hcallKept true)
        | chunk c grows =>
            have hchunk := h.call (.rcv c.bytes)
            dsimp only
            split
            · -- no memory for the chunk
              exact starved_fail h hkept c
            · rename_i u happend
              obtain ⟨cap, rfl⟩ := append_eq_some happend
              -- the chunk goes behind the buffer, and the loop goes on
              have hnext := ih (t := { t.call (.rcv c.bytes) with
                  data := t.data ++ c.bytes
                  cap := cap })
                ⟨hchunk.st_eq, hchunk.status_eq, hchunk.error_eq, hchunk.isOpen⟩ (by
                  show t.drained ++ (t.data ++ c.bytes) = received (t.call (.rcv c.bytes)).calls
                  rw [received_rcv, ← hkept, List.append_assoc])
              refine ⟨hnext.setup_eq, hnext.send_eq.trans ?_, hnext.leaves⟩
              simp only [sendSide]
              rw [accepted_rcv]
              rfl
        | look event =>
            have hlook := hcall.call .look
            have hlookQuiet : Quiet t ((t.call (.rcv [])).call .look) :=
              (hrcv t).trans (quiet_call _ _ rfl)
            cases event with
            | connect => exact hlookQuiet.reads hkept (Or.inl hlook)
            | other => exact hlookQuiet.reads hkept (Or.inl hlook)
            | disconnect =>
                -- the reset is taken from the endpoint, then judged like any failed read
                have hreset := hlook.call .rcvDisconnect
                have hresetQuiet := hlookQuiet.trans (quiet_call _ .rcvDisconnect rfl)
                exact hresetQuiet.thenReads (readFailed_spec hreset (hresetQuiet.kept hkept) false)
            | ordrel =>
                -- the server has sent all: both halves are released
                have hrelease := (hlook.call .rcvOrderlyDisconnect).call .sndOrderlyDisconnect
                have hreleaseQuiet := (hlookQuiet.trans
                  (quiet_call _ .rcvOrderlyDisconnect rfl)).trans
                  (quiet_call _ .sndOrderlyDisconnect rfl)
                exact (hreleaseQuiet.trans (quiet_finish _)).reads hkept
                  (Or.inr (Or.inl (hrelease.isOpen.finish hrelease.error_eq)))

end Casquinha.Transport
