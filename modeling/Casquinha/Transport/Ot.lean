import Casquinha.App.View

/-!
# The Open Transport transaction (`src/cq_transport_ot.c`)

A transaction opens an endpoint, connects, sends the selector and receives until the server releases
the connection. `cqTxPoll` advances it by one slice; what the provider answers in that slice is an
`OtEnv`. The loops over `OTSnd` and `OTRcv` run down the provider's answers: behind the last one the
endpoint is full, or has nothing more to read.

Every call that is made on the endpoint is logged with the reference it is made on (`calls`), and
drained bytes are kept (`drained`); both are history. Name resolution, which may ask the resolver, is
an answer of the provider. The probe's timing of the calls is left out.
-/

set_option autoImplicit false

namespace Casquinha.Transport

open Lib App

/-- `cq_tx_status`. -/
inductive CqTxStatus where
  | running
  | done
  | failed
deriving DecidableEq

/-- `cq_tx_error`. -/
inductive CqTxError where
  | none
  | connect
  | timeout
  | stream
deriving DecidableEq

/-- `ot_state`. -/
inductive OtState where
  | init
  | connecting
  | sending
  | receiving
  | done
  | failed
deriving DecidableEq

/-- What an endpoint reports to `OTLook` or to the notifier. -/
inductive OtEvent where
  | connect
  | disconnect
  | ordrel
  | other
deriving DecidableEq

/-- A call on an endpoint, with the bytes that `OTSnd` accepts and `OTRcv` delivers. -/
inductive OtOp where
  | setSynchronous
  | setNonBlocking
  | useSyncIdleEvents
  | bind
  | installNotifier
  | setAsynchronous
  | connect
  | look
  | rcvConnect
  | rcvDisconnect
  | snd (accepted : Bytes)
  | rcv (chunk : Bytes)
  | rcvOrderlyDisconnect
  | sndOrderlyDisconnect
deriving DecidableEq

/-- What the transaction does with endpoints; the reference of a call is the one `t->ep` holds. -/
inductive OtCall where
  | opened (ep : Nat)
  | used (ep : Option Nat) (op : OtOp)
  | tornDown (ep : Option Nat)
deriving DecidableEq

/-- `cq_transport`. -/
structure CqTransport where
  host : CStr
  port : Int
  selector : CStr
  status : CqTxStatus
  error : CqTxError
  message : CStr
  /-- The first `len` bytes of the response buffer. -/
  data : Bytes
  cap : Nat
  ep : Option Nat
  st : OtState
  req : Option Bytes
  reqoff : Nat
  startTick : BitVec 32
  connectTick : BitVec 32
  cancelled : Bool
  streaming : Bool
  async : Bool
  connEvent : Option OtEvent
  calls : List OtCall
  drained : Bytes

/-- `DEADLINE_TICKS`. -/
def deadlineTicks : Nat := 120

/-- `WATCHDOG_TICKS`. -/
def watchdogTicks : Nat := 300

/-- `CQ_TX_READ_CHUNK`. -/
def cqTxReadChunk : Nat := 8192

/-- `CQ_TX_STREAM_HIWAT`. -/
def cqTxStreamHiwat : Nat := 64 * 1024

/-- The result of `OTConnect`. -/
inductive ConnectResult where
  | noError
  | noData
  | error

/-- A result of `OTSnd`: a count of bytes, `kOTFlowErr`, or another error. -/
inductive SndResult where
  | accepted (n : Nat)
  | flow
  | error

/-- What one `OTRcv` delivers. -/
structure Chunk where
  bytes : Bytes
  nonempty : bytes ≠ []
  fits : bytes.length ≤ cqTxReadChunk

/-- A result of `OTRcv`: bytes, with the answer of `realloc` should the buffer have to grow,
`kOTNoDataErr`, `kOTLookErr` with what `OTLook` then says, or another result. -/
inductive RcvResult where
  | chunk (c : Chunk) (grows : Bool)
  | noData
  | look (event : OtEvent)
  | error

/-- The provider and the allocator during one slice. -/
structure OtEnv where
  /-- `TickCount()`. -/
  tick : BitVec 32
  /-- Open Transport is up. -/
  up : Bool
  /-- The endpoint that `OTOpenEndpoint` returns. -/
  endpoint : Option Nat
  bound : Bool
  resolved : Bool
  /-- `g_conn_upp` has been made. -/
  upp : Bool
  /-- `OTInstallNotifier` succeeds. -/
  armed : Bool
  connect : ConnectResult
  /-- `OTLook` while connecting. -/
  look : OtEvent
  rcvConnect : Bool
  /-- There is memory for the request. -/
  reqAlloc : Bool
  snd : List SndResult
  rcv : List RcvResult

/-- `cq_tx_new`, when there is memory; `cq_tx_stream_new` is the streaming one. -/
def cqTxNew (host : CStr) (port : Int) (selector : Option CStr) (streaming : Bool) : CqTransport where
  host := host
  port := port
  selector := selector.getD .empty
  status := .running
  error := .none
  message := .empty
  data := []
  cap := 0
  ep := none
  st := .init
  req := none
  reqoff := 0
  startTick := 0
  connectTick := 0
  cancelled := false
  streaming := streaming
  async := false
  connEvent := none
  calls := []
  drained := []

namespace CqTransport

/-- A call on `t->ep`. -/
def call (t : CqTransport) (op : OtOp) : CqTransport := { t with calls := t.calls ++ [.used t.ep op] }

/-- `ot_teardown(t->ep); t->ep = kOTInvalidEndpointRef`. -/
def teardown (t : CqTransport) : CqTransport :=
  { t with
    calls := t.calls ++ [.tornDown t.ep]
    ep := none }

/-- The text that `fail` prints. -/
def failText (t : CqTransport) (what : String) : CStr :=
  (CStr.lit what ++ .lit " " ++ t.host ++ .lit ":" ++ decimalInt t.port ++ .lit ".").fit 256

/-- `fail`. -/
def fail (t : CqTransport) (e : CqTxError) (what : String) : CqTransport :=
  let t :=
    { t with
      status := .failed
      st := .failed
      error := e
      message := t.failText what }
  if t.ep.isSome then (t.call .sndOrderlyDisconnect).teardown else t

/-- The transaction ends well: `status = CQ_TX_DONE; st = ST_DONE`, behind the teardown. -/
def finish (t : CqTransport) : CqTransport :=
  { t.teardown with
    status := .done
    st := .done }

/-- `while (ncap < t->len + n) ncap *= 2`. -/
def growCap (need : Nat) : Nat → Nat → Nat
  | 0, ncap => ncap
  | fuel + 1, ncap => if ncap < need then growCap need fuel (ncap * 2) else ncap

/-- `append`; `none` is the failure of `realloc`. -/
def append (t : CqTransport) (buf : Bytes) (grows : Bool) : Option CqTransport :=
  let need := t.data.length + buf.length
  if t.cap < need then
    if grows then
      some
        { t with
          data := t.data ++ buf
          cap := growCap need need (if t.cap = 0 then cqTxReadChunk else t.cap) }
    else none
  else some { t with data := t.data ++ buf }

/-- The end of `open_and_connect`, from `OTConnect` on. -/
def connectEndpoint (env : OtEnv) (t : CqTransport) : CqTransport :=
  let t := t.call .connect
  if t.async then
    match env.connect with
    | .noError | .noData => { t with st := .connecting }
    | .error => t.fail .connect "Could not connect to"
  else
    match env.connect with
    | .noError => { t with st := .sending }
    | .noData => { t with st := .connecting }
    | .error => t.fail .connect "Could not connect to"

/-- The notifier is armed before the connect, or the connect is synchronous. -/
def armNotifier (env : OtEnv) (t : CqTransport) : CqTransport :=
  let t := { t with connEvent := none }
  if env.upp then
    let t := t.call .installNotifier
    if env.armed then { t.call .setAsynchronous with async := true } else t
  else t

/-- `open_and_connect`. -/
def openAndConnect (env : OtEnv) (t : CqTransport) : CqTransport :=
  if env.up = false then t.fail .connect "Open Transport unavailable for"
  else
    match env.endpoint with
    | none => { t with ep := none }.fail .connect "Could not open a TCP endpoint to"
    | some ep =>
        let t :=
          { t with
            ep := some ep
            calls := t.calls ++ [OtCall.opened ep] }
        let t := ((t.call .setSynchronous).call .setNonBlocking).call .useSyncIdleEvents
        let t := t.call .bind
        if env.bound = false then t.fail .connect "Could not bind a socket to"
        else if env.resolved = false then t.fail .connect "Could not resolve"
        else connectEndpoint env (armNotifier env t)

/-- What the connect has come to: `OTLook`, or what the notifier has seen before it. -/
def connectEvent (env : OtEnv) (t : CqTransport) : OtEvent :=
  match env.look, t.connEvent with
  | .connect, _ => .connect
  | .disconnect, _ => .disconnect
  | look, none => look
  | _, some event => event

/-- `pump_connect`. -/
def pumpConnect (env : OtEnv) (t : CqTransport) : CqTransport :=
  let t := t.call .look
  match connectEvent env t with
  | .connect =>
      let t := t.call .rcvConnect
      if env.rcvConnect then
        -- back to synchronous for the sends and reads
        let t := if t.async then { t.call .setSynchronous with async := false } else t
        { t with st := .sending }
      else t.fail .connect "Could not connect to"
  | .disconnect => (t.call .rcvDisconnect).fail .connect "Connection refused by"
  | .ordrel | .other => t

/-- `selector CR LF`. -/
def request (selector : CStr) : Bytes := selector.bytes ++ [13, 10]

/-- `while (t->reqoff < t->reqlen)` of `pump_send`, and the step to `ST_RECEIVING` behind it. -/
def sendLoop (req : Bytes) : List SndResult → CqTransport → CqTransport
  | results, t =>
      if t.reqoff < req.length then
        match results with
        -- the provider's buffer is full; try again next poll
        | [] | .flow :: _ => t.call (.snd [])
        | .error :: _ => (t.call (.snd [])).fail .stream "Write failed to"
        | .accepted n :: results =>
            let sent := (req.drop t.reqoff).take n
            sendLoop req results
              { t.call (.snd sent) with reqoff := t.reqoff + sent.length }
      else { t with st := .receiving }

/-- `pump_send`. -/
def pumpSend (env : OtEnv) (t : CqTransport) : CqTransport :=
  match t.req with
  | some req => sendLoop req env.snd t
  | none =>
      if env.reqAlloc then
        let req := request t.selector
        sendLoop req env.snd
          { t with
            req := some req
            reqoff := 0 }
      else t.fail .stream "Out of memory for"

/-- A read that finds the connection reset or in an unknown state: what has arrived is delivered. -/
def readFailed (t : CqTransport) (release : Bool) : CqTransport :=
  if t.data ≠ [] then (if release then t.call .sndOrderlyDisconnect else t).finish
  else t.fail .stream "Read failed from"

/-- The loop of `pump_recv`. -/
def recvLoop : List RcvResult → CqTransport → CqTransport
  | results, t =>
      -- backpressure: past the high-water mark the TCP window holds the server
      if t.streaming ∧ cqTxStreamHiwat ≤ t.data.length then t
      else
        match results with
        | [] | .noData :: _ => t.call (.rcv [])
        | .chunk c grows :: results =>
            let t := t.call (.rcv c.bytes)
            match t.append c.bytes grows with
            | none => t.fail .stream "Out of memory reading from"
            | some t => recvLoop results t
        | .look event :: _ =>
            let t := (t.call (.rcv [])).call .look
            match event with
            | .ordrel =>
                -- our half of the release goes out before the close
                ((t.call .rcvOrderlyDisconnect).call .sndOrderlyDisconnect).finish
            | .disconnect => (t.call .rcvDisconnect).readFailed false
            | .connect | .other => t
        | .error :: _ => (t.call (.rcv [])).readFailed true

/-- `pump_recv`. -/
def pumpRecv (env : OtEnv) (t : CqTransport) : CqTransport := recvLoop env.rcv t

/-- The slice of a poll. -/
def slice (env : OtEnv) (t : CqTransport) : CqTransport :=
  match t.st with
  | .init => openAndConnect env t
  | .connecting => pumpConnect env t
  | .sending => pumpSend env t
  | .receiving => pumpRecv env t
  | .done | .failed => t

/-- The deadlines that a poll checks behind its slice. -/
def checkDeadlines (now : BitVec 32) (t : CqTransport) : CqTransport :=
  if t.status = .running then
    if t.st = .connecting ∧ deadlineTicks < (now - t.connectTick).toNat then
      t.fail .timeout "Timed out connecting to"
    else if ¬ (t.streaming = true ∧ t.st = .receiving) ∧
        watchdogTicks < (now - t.startTick).toNat then
      t.fail .timeout "Timed out talking to"
    else t
  else t

end CqTransport

open CqTransport

/-- `cq_tx_start`. -/
def cqTxStart (now : BitVec 32) (t : CqTransport) : CqTransport :=
  { t with
    startTick := now
    connectTick := now }

/-- `cq_tx_poll`; the status it returns is the one it leaves. -/
def cqTxPoll (env : OtEnv) (t : CqTransport) : CqTransport :=
  if t.cancelled ∨ t.status ≠ .running then t else checkDeadlines env.tick (slice env t)

/-- `cq_tx_drain`: the bytes moved, and what is left. -/
def cqTxDrain (t : CqTransport) (cap : Nat) : Bytes × CqTransport :=
  (t.data.take cap,
    { t with
      data := t.data.drop cap
      drained := t.drained ++ t.data.take cap })

/-- The bytes that a drain returns are the ones by which `drained` grows: at most `cap`, from the front of the
buffer. -/
theorem cqTxDrain_spec (t : CqTransport) (cap : Nat) :
    (cqTxDrain t cap).2.drained = t.drained ++ (cqTxDrain t cap).1 ∧
      (cqTxDrain t cap).1 ++ (cqTxDrain t cap).2.data = t.data ∧ (cqTxDrain t cap).1.length ≤ cap :=
  ⟨rfl, List.take_append_drop cap t.data, List.length_take_le cap t.data⟩

/-- `cq_tx_cancel`. -/
def cqTxCancel (t : CqTransport) : CqTransport :=
  let t := { t with cancelled := true }
  if t.ep.isSome then (t.call .sndOrderlyDisconnect).teardown else t

/-- `cq_tx_free`: the calls of the whole life. -/
def cqTxFree (t : CqTransport) : List OtCall :=
  if t.ep.isSome then t.teardown.calls else t.calls

/-- `conn_notifier`: only the two connect events are recorded. -/
def connNotifier (code : OtEvent) (t : CqTransport) : CqTransport :=
  match code with
  | .connect | .disconnect => { t with connEvent := some code }
  | .ordrel | .other => t

/-- What can happen to a transaction before it is freed. -/
inductive TxOp where
  | start (now : BitVec 32)
  | poll (env : OtEnv)
  | drain (cap : Nat)
  | cancel
  | notify (code : OtEvent)

/-- One operation. -/
def txPerform (t : CqTransport) : TxOp → CqTransport
  | .start now => cqTxStart now t
  | .poll env => cqTxPoll env t
  | .drain cap => (cqTxDrain t cap).2
  | .cancel => cqTxCancel t
  | .notify code => connNotifier code t

end Casquinha.Transport
