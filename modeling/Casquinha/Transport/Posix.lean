import Casquinha.Transport.Ot

/-!
# The POSIX streaming transaction (`src/cq_transport_posix.c`)

The host implementation of a transaction that `cq_tx_stream_new` makes. The first poll connects and sends
the selector; what `connect_and_send` comes to is an answer of the world. From then on a poll reads until
nothing is available or the buffer is past the high-water mark. What the reads find is a list of outcomes, one
for each `recv`; behind its end nothing is available. A poll leaves the outcomes it has not asked for. The
blocking transaction (`run`) is left out. Drained bytes are kept (`drained`), as history.
-/

set_option autoImplicit false

namespace Casquinha.Transport

open Lib App CqTransport

/-- What a read finds on a connection: bytes, with the answer of `realloc` should the buffer have to grow,
nothing, the end of the response, a reset, or another error. -/
inductive Outcome where
  | chunk (c : Chunk) (grows : Bool)
  | nothing
  | close
  | reset
  | error

/-- What `connect_and_send` comes to: a descriptor, or the failure it leaves. -/
abbrev Connected := Except (CqTxError × String) Nat

/-- `cq_transport`. -/
structure PosixTransport where
  host : CStr
  port : Int
  selector : CStr
  status : CqTxStatus
  error : CqTxError
  message : CStr
  /-- The first `len` bytes of the response buffer. -/
  data : Bytes
  cap : Nat
  started : Bool
  cancelled : Bool
  fd : Option Nat
  drained : Bytes

namespace Posix

/-- `cq_tx_stream_new`, when there is memory. -/
def cqTxStreamNew (host : CStr) (port : Int) (selector : Option CStr) : PosixTransport where
  host := host
  port := port
  selector := selector.getD .empty
  status := .running
  error := .none
  message := .empty
  data := []
  cap := 0
  started := false
  cancelled := false
  fd := none
  drained := []

/-- `fail`. -/
def fail (t : PosixTransport) (e : CqTxError) (what : String) : PosixTransport :=
  { t with
    status := .failed
    error := e
    message := (CStr.lit what ++ .lit " " ++ t.host ++ .lit ":" ++ decimalInt t.port ++ .lit ".").fit 256 }

/-- `append`; `none` is the failure of `realloc`. -/
def append (t : PosixTransport) (buf : Bytes) (grows : Bool) : Option PosixTransport :=
  let need := t.data.length + buf.length
  if t.cap < need then
    if grows then
      some
        { t with
          data := t.data ++ buf
          cap := growCap need need (if t.cap = 0 then cqTxReadChunk else t.cap) }
    else none
  else some { t with data := t.data ++ buf }

/-- `close(t->fd); t->fd = -1`. -/
def closeFd (t : PosixTransport) : PosixTransport := { t with fd := none }

/-- The loop of `pump_stream`, and the outcomes it has not asked for. -/
def pumpLoop : List Outcome → PosixTransport → PosixTransport × List Outcome
  | outs, t =>
      -- backpressure: stop reading
      if cqTxStreamHiwat ≤ t.data.length then (t, outs)
      else
        match outs with
        | [] => (t, [])
        | .nothing :: outs => (t, outs)
        | .chunk c grows :: outs =>
            match append t c.bytes grows with
            | some t => pumpLoop outs t
            -- the loop goes on, and the read on descriptor -1 fails
            | none =>
                (fail (fail (closeFd t) .stream "Out of memory reading from") .stream
                  "Read failed from", outs)
        | .close :: outs => ({ closeFd t with status := .done }, outs)
        | .reset :: outs | .error :: outs => (fail (closeFd t) .stream "Read failed from", outs)

/-- `pump_stream`. -/
def pumpStream (connected : Connected) (outs : List Outcome) (t : PosixTransport) :
    PosixTransport × List Outcome :=
  match t.fd, connected with
  | some _, _ => pumpLoop outs t
  | none, .ok fd => pumpLoop outs { t with fd := some fd }
  | none, .error (e, what) => (fail t e what, outs)

/-- `cq_tx_start`. -/
def cqTxStart (t : PosixTransport) : PosixTransport := { t with started := true }

/-- `cq_tx_poll`; the status it returns is the one it leaves. -/
def cqTxPoll (connected : Connected) (outs : List Outcome) (t : PosixTransport) :
    PosixTransport × List Outcome :=
  if t.cancelled then (t, outs)
  else if t.started ∧ t.status = .running then pumpStream connected outs t
  else (t, outs)

/-- `cq_tx_drain`: the bytes moved, and what is left. -/
def cqTxDrain (t : PosixTransport) (cap : Nat) : Bytes × PosixTransport :=
  (t.data.take cap,
    { t with
      data := t.data.drop cap
      drained := t.drained ++ t.data.take cap })

/-- The bytes that a drain returns are the ones by which `drained` grows: at most `cap`, from the front of the
buffer. -/
theorem cqTxDrain_spec (t : PosixTransport) (cap : Nat) :
    (cqTxDrain t cap).2.drained = t.drained ++ (cqTxDrain t cap).1 ∧
      (cqTxDrain t cap).1 ++ (cqTxDrain t cap).2.data = t.data ∧ (cqTxDrain t cap).1.length ≤ cap :=
  ⟨rfl, List.take_append_drop cap t.data, List.length_take_le cap t.data⟩

/-- `cq_tx_cancel`. -/
def cqTxCancel (t : PosixTransport) : PosixTransport := closeFd { t with cancelled := true }

end Posix

/-! ## One read of a stream -/

/-- The same outcome, as Open Transport reports it. -/
def Outcome.rcv : Outcome → RcvResult
  | .chunk c grows => .chunk c grows
  | .nothing => .noData
  | .close => .look .ordrel
  | .reset => .look .disconnect
  | .error => .error

/-- A reset or another error. -/
def Outcome.fails : Outcome → Bool
  | .reset | .error => true
  | .chunk _ _ | .nothing | .close => false

/-- A poll that finds `len` bytes in a buffer of `cap`: how many it holds by the time its read fails, if it
comes to a read that fails. -/
def heldAtFailure : List Outcome → Nat → Nat → Option Nat
  | [], _, _ => none
  | o :: outs, len, cap =>
      if cqTxStreamHiwat ≤ len then none
      else
        match o with
        | .nothing | .close => none
        | .reset | .error => some len
        | .chunk c grows =>
            let need := len + c.bytes.length
            if cap < need then
              if grows then
                heldAtFailure outs need (growCap need need (if cap = 0 then cqTxReadChunk else cap))
              else none
            else heldAtFailure outs need cap

end Casquinha.Transport
