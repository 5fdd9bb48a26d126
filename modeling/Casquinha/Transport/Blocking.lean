import Casquinha.Lib.Handle
import Casquinha.Transport.Lifecycle
import Casquinha.Transport.Posix

/-!
# The blocking transaction (`src/cq_transport_posix.c`)

The transaction that the host makes of `cq_tx_new` runs as a whole in its first poll: it tries the addresses of the host
one by one, sends the selector, and reads to the end of the response. What the calls of the world come to is given
(`PosixEnv`), and every use of a descriptor is kept as history (`calls`).

Whatever the world answers, no descriptor is left open or used behind its close, the request goes out once and in
order, and the end is final (`blocking_life`). On a connection that does not stall, the response is the one that the
Open Transport transaction makes of the same reads, however those are cut into polls (`oneShot_agree`).
-/

set_option autoImplicit false

namespace Casquinha.Transport

open Lib App CqTransport

/-- The calls on a descriptor. -/
inductive FdOp where
  | fcntl
  | connect
  | select
  | getsockopt
  | setsockopt
  | send (accepted : Bytes)
  | recv (chunk : Bytes)
deriving DecidableEq

/-- What is done with descriptors: `socket`, a call, `close`. -/
abbrev FdCall := Access Nat FdOp

/-- What `connect_deadline` comes to at one address: no socket, a connection at once, an error of `connect`, of
`select` or at its end, a deadline, or a connection. -/
inductive Attempt where
  | noSocket
  | immediate (fd : Nat)
  | refused (fd : Nat)
  | timedOut (fd : Nat)
  | selectFailed (fd : Nat)
  | unconfirmed (fd : Nat)
  | connected (fd : Nat)

/-- The network and the allocator during the transaction. -/
structure PosixEnv where
  /-- What comes of the addresses of `getaddrinfo`, when there are any. -/
  addresses : Option (List Attempt)
  /-- There is memory for the request. -/
  lineAlloc : Bool
  /-- What each `send` accepts; 0 is a failure. Behind its end the deadline passes. -/
  snd : List Nat
  /-- What each `recv` finds. Behind its end the deadline passes. -/
  rcv : List Outcome

/-- `cq_transport`, with the history of its descriptors. -/
structure PosixTx where
  tx : PosixTransport
  calls : List FdCall

namespace Posix

/-- `connect_deadline`. -/
def connectDeadline : Attempt → Except CqTxError Nat × List FdCall
  | .noSocket => (.error .connect, [])
  | .immediate fd => (.ok fd, .acquire fd :: [FdOp.fcntl, .fcntl, .connect, .fcntl].map (.use fd))
  | .refused fd =>
      (.error .connect, .acquire fd :: ([FdOp.fcntl, .fcntl, .connect].map (.use fd) ++ [.release fd]))
  | .timedOut fd =>
      (.error .timeout, .acquire fd :: ([FdOp.fcntl, .fcntl, .connect, .select].map (.use fd) ++ [.release fd]))
  | .selectFailed fd =>
      (.error .connect, .acquire fd :: ([FdOp.fcntl, .fcntl, .connect, .select].map (.use fd) ++ [.release fd]))
  | .unconfirmed fd =>
      (.error .connect,
        .acquire fd :: ([FdOp.fcntl, .fcntl, .connect, .select, .getsockopt].map (.use fd) ++ [.release fd]))
  | .connected fd =>
      (.ok fd, .acquire fd :: [FdOp.fcntl, .fcntl, .connect, .select, .getsockopt, .fcntl].map (.use fd))

/-- The loop over the addresses; `err` is what the last one has left. -/
def connectLoop : List Attempt → CqTxError → Except CqTxError Nat × List FdCall
  | [], err => (.error err, [])
  | a :: addresses, _ =>
      match connectDeadline a with
      | (.ok fd, calls) => (.ok fd, calls)
      | (.error err, calls) =>
          let (result, more) := connectLoop addresses err
          (result, calls ++ more)

/-- `while (off < linelen)`: whether all of the line has gone out. -/
def sendLoop (fd : Nat) (line : Bytes) : List Nat → Nat → Bool × List FdCall
  | results, off =>
      if off < line.length then
        match results with
        | [] | 0 :: _ => (false, [.use fd (.send [])])
        | (n + 1) :: results =>
            let sent := (line.drop off).take (n + 1)
            let (ok, calls) := sendLoop fd line results (off + sent.length)
            (ok, .use fd (.send sent) :: calls)
      else (true, [])

/-- `connect_and_send`; `none` is the answer -1. -/
def connectAndSend (env : PosixEnv) (t : PosixTransport) : Option Nat × PosixTransport × List FdCall :=
  match env.addresses with
  | none => (none, fail t .connect "Could not resolve", [])
  | some addresses =>
      match connectLoop addresses .connect with
      | (.error err, calls) =>
          (none, fail t err (if err = .timeout then "Timed out connecting to" else "Could not connect to"), calls)
      | (.ok fd, calls) =>
          let calls := calls ++ [.use fd .setsockopt, .use fd .setsockopt]
          if env.lineAlloc then
            match sendLoop fd (request t.selector) env.snd 0 with
            | (true, sent) => (some fd, t, calls ++ sent)
            | (false, sent) => (none, fail t .stream "Write failed to", calls ++ (sent ++ [.release fd]))
          else (none, fail t .stream "Out of memory for", calls ++ [.release fd])

/-- `for (;;)` of `run`, and what is behind it. -/
def readLoop (fd : Nat) : List Outcome → PosixTransport → PosixTransport × List FdCall
  | [], t | .nothing :: _, t | .reset :: _, t | .error :: _, t =>
      -- what has arrived is delivered
      (if t.data = [] then fail t .stream "Read failed from" else { t with status := .done },
        [.use fd (.recv []), .release fd])
  | .close :: _, t => ({ t with status := .done }, [.use fd (.recv []), .release fd])
  | .chunk c grows :: outs, t =>
      match append t c.bytes grows with
      | none => (fail t .stream "Out of memory reading from", [.use fd (.recv c.bytes), .release fd])
      | some t =>
          let (t, calls) := readLoop fd outs t
          (t, .use fd (.recv c.bytes) :: calls)

/-- `run`. -/
def run (env : PosixEnv) (t : PosixTransport) : PosixTransport × List FdCall :=
  match connectAndSend env t with
  | (none, t, calls) => (t, calls)
  | (some fd, t, calls) =>
      let (t, more) := readLoop fd env.rcv t
      (t, calls ++ more)

end Posix

/-- `cq_tx_new`, when there is memory. -/
def posixTxNew (host : CStr) (port : Int) (selector : Option CStr) : PosixTx where
  tx := Posix.cqTxStreamNew host port selector
  calls := []

/-- `cq_tx_poll` of a transaction that does not stream. -/
def posixTxPoll (env : PosixEnv) (b : PosixTx) : PosixTx :=
  if b.tx.cancelled then b
  else if b.tx.started ∧ b.tx.status = .running then
    -- run once
    let (t, calls) := Posix.run env { b.tx with started := false }
    ⟨t, b.calls ++ calls⟩
  else b

/-- `cq_tx_cancel`. -/
def posixTxCancel (b : PosixTx) : PosixTx where
  tx := Posix.cqTxCancel b.tx
  calls := b.calls ++ b.tx.fd.toList.map Access.release

/-- `cq_tx_free`: the calls of the whole life. -/
def posixTxFree (b : PosixTx) : List FdCall := b.calls ++ b.tx.fd.toList.map Access.release

/-- What can be done with a transaction before it is freed. -/
inductive PosixTxOp where
  | start
  | poll (env : PosixEnv)
  | drain (cap : Nat)
  | cancel

/-- One operation. -/
def posixTxPerform (b : PosixTx) : PosixTxOp → PosixTx
  | .start => { b with tx := Posix.cqTxStart b.tx }
  | .poll env => posixTxPoll env b
  | .drain cap => { b with tx := (Posix.cqTxDrain b.tx cap).2 }
  | .cancel => posixTxCancel b

/-! ## Descriptors -/

namespace Posix

open Access (held held_trans held_uses held_release held_session)

/-- The bytes that a call has sent. -/
def sentBy : FdCall → Bytes
  | .use _ (.send accepted) => accepted
  | _ => []

/-- The bytes that a call has received. -/
def gotBy : FdCall → Bytes
  | .use _ (.recv chunk) => chunk
  | _ => []

/-- All bytes that have been sent, in order. -/
def sent (calls : List FdCall) : Bytes := calls.flatMap sentBy

/-- All chunks that have been received, one after the other. -/
def got (calls : List FdCall) : Bytes := calls.flatMap gotBy

theorem sent_append (a b : List FdCall) : sent (a ++ b) = sent a ++ sent b := List.flatMap_append

theorem got_append (a b : List FdCall) : got (a ++ b) = got a ++ got b := List.flatMap_append

/-- What is left behind a function that may return a descriptor: it is held if and only if it is returned. -/
def Leaves (result : Option Nat) (calls : List FdCall) : Prop :=
  held none calls = some result ∧ got calls = []

theorem connectDeadline_leaves (a : Attempt) :
    Leaves (connectDeadline a).1.toOption (connectDeadline a).2 ∧ sent (connectDeadline a).2 = [] := by
  cases a with
  | noSocket => exact ⟨⟨rfl, rfl⟩, rfl⟩
  | immediate fd => exact ⟨⟨held_uses fd [FdOp.fcntl, .fcntl, .connect, .fcntl], rfl⟩, rfl⟩
  | refused fd => exact ⟨⟨held_session fd [FdOp.fcntl, .fcntl, .connect], rfl⟩, rfl⟩
  | timedOut fd => exact ⟨⟨held_session fd [FdOp.fcntl, .fcntl, .connect, .select], rfl⟩, rfl⟩
  | selectFailed fd => exact ⟨⟨held_session fd [FdOp.fcntl, .fcntl, .connect, .select], rfl⟩, rfl⟩
  | unconfirmed fd => exact ⟨⟨held_session fd [FdOp.fcntl, .fcntl, .connect, .select, .getsockopt], rfl⟩, rfl⟩
  | connected fd => exact ⟨⟨held_uses fd [FdOp.fcntl, .fcntl, .connect, .select, .getsockopt, .fcntl], rfl⟩, rfl⟩

/-- No attempt leaves its socket open but the one that succeeds. -/
theorem connectLoop_leaves (addresses : List Attempt) (err : CqTxError) :
    Leaves (connectLoop addresses err).1.toOption (connectLoop addresses err).2 ∧
      sent (connectLoop addresses err).2 = [] := by
  induction addresses generalizing err with
  | nil => exact ⟨⟨rfl, rfl⟩, rfl⟩
  | cons a addresses ih =>
      obtain ⟨⟨hheld, hgot⟩, hsent⟩ := connectDeadline_leaves a
      rw [connectLoop]
      generalize connectDeadline a = attempt at hheld hgot hsent
      obtain ⟨result, calls⟩ := attempt
      cases result with
      | ok fd => exact ⟨⟨hheld, hgot⟩, hsent⟩
      | error err' =>
          obtain ⟨⟨hheld', hgot'⟩, hsent'⟩ := ih err'
          refine ⟨⟨held_trans hheld hheld', ?_⟩, ?_⟩
          · rw [got_append]
            exact List.append_eq_nil_iff.2 ⟨hgot, hgot'⟩
          · rw [sent_append]
            exact List.append_eq_nil_iff.2 ⟨hsent, hsent'⟩

/-- The line goes out from the offset on, and all of it when the loop ends well. -/
theorem sendLoop_spec (fd : Nat) (line : Bytes) (results : List Nat) (off : Nat) :
    held (some fd) (sendLoop fd line results off).2 = some (some fd) ∧ got (sendLoop fd line results off).2 = [] ∧
      sent (sendLoop fd line results off).2 <+: line.drop off ∧
      ((sendLoop fd line results off).1 = true → sent (sendLoop fd line results off).2 = line.drop off) := by
  have hone : ∀ op : FdOp, held (some fd) [Access.use fd op] = some (some fd) := fun op => held_uses fd [op]
  induction results generalizing off with
  | nil =>
      rw [sendLoop]
      split
      · exact ⟨hone _, rfl, List.nil_prefix, fun h => absurd h Bool.false_ne_true⟩
      · next hend => exact ⟨rfl, rfl, List.nil_prefix, fun _ => (List.drop_of_length_le (Nat.le_of_not_lt hend)).symm⟩
  | cons n results ih =>
      have hdone : ¬ off < line.length → [] = line.drop off :=
        fun hend => (List.drop_of_length_le (Nat.le_of_not_lt hend)).symm
      cases n with
      | zero =>
          rw [sendLoop]
          split
          · exact ⟨hone _, rfl, List.nil_prefix, fun h => absurd h Bool.false_ne_true⟩
          · next hend => exact ⟨rfl, rfl, List.nil_prefix, fun _ => hdone hend⟩
      | succ n =>
          rw [sendLoop]
          split
          · obtain ⟨hheld, hgot, hsent, hall⟩ := ih (off + ((line.drop off).take (n + 1)).length)
            have hrest : line.drop (off + ((line.drop off).take (n + 1)).length) = (line.drop off).drop (n + 1) := by
              rw [← List.drop_drop, List.length_take]
              rcases Nat.le_total (n + 1) (line.drop off).length with hle | hle
              · rw [Nat.min_eq_left hle]
              · rw [Nat.min_eq_right hle, List.drop_length, List.drop_of_length_le hle]
            have hsplit := List.take_append_drop (n + 1) (line.drop off)
            rw [hrest] at hsent hall
            refine ⟨held_trans (hone (.send _)) hheld, hgot, ?_, ?_⟩
            · have hmore := (List.prefix_append_right_inj ((line.drop off).take (n + 1))).2 hsent
              rw [hsplit] at hmore
              exact hmore
            · intro hok
              have hmore := congrArg (((line.drop off).take (n + 1)) ++ ·) (hall hok)
              simp only [hsplit] at hmore
              exact hmore
          · next hend => exact ⟨rfl, rfl, List.nil_prefix, fun _ => hdone hend⟩

/-- A transaction that fails keeps everything but its end. -/
structure SameBut (t t' : PosixTransport) : Prop where
  host_eq : t'.host = t.host
  port_eq : t'.port = t.port
  selector_eq : t'.selector = t.selector
  fd_eq : t'.fd = t.fd
  drained_eq : t'.drained = t.drained
  cancelled_eq : t'.cancelled = t.cancelled

theorem sameBut_fail (t : PosixTransport) (e : CqTxError) (what : String) : SameBut t (fail t e what) :=
  ⟨rfl, rfl, rfl, rfl, rfl, rfl⟩

/-- `connect_and_send` returns a connection on which the request has gone out, or fails and leaves nothing open. -/
theorem connectAndSend_spec (env : PosixEnv) (t : PosixTransport) :
    Leaves (connectAndSend env t).1 (connectAndSend env t).2.2 ∧
      sent (connectAndSend env t).2.2 <+: request t.selector ∧
      ((connectAndSend env t).1.isSome → (connectAndSend env t).2.1 = t ∧
        sent (connectAndSend env t).2.2 = request t.selector) ∧
      ((connectAndSend env t).1 = none → ∃ e what, (connectAndSend env t).2.1 = fail t e what) := by
  rw [connectAndSend]
  cases env.addresses with
  | none => exact ⟨⟨rfl, rfl⟩, List.nil_prefix, fun h => absurd h Bool.false_ne_true, fun _ => ⟨_, _, rfl⟩⟩
  | some addresses =>
      obtain ⟨⟨hheld, hgot⟩, hsent⟩ := connectLoop_leaves addresses .connect
      simp only
      generalize connectLoop addresses .connect = connected at hheld hgot hsent
      obtain ⟨result, calls⟩ := connected
      cases result with
      | error err =>
          refine ⟨⟨hheld, hgot⟩, ?_, fun h => absurd h Bool.false_ne_true, fun _ => ⟨_, _, rfl⟩⟩
          rw [hsent]
          exact List.nil_prefix
      | ok fd =>
          -- the descriptor is open, and its options are set
          have hopen : held none (calls ++ [Access.use fd .setsockopt, .use fd .setsockopt]) = some (some fd) :=
            held_trans hheld (held_uses fd [FdOp.setsockopt, .setsockopt])
          have hgot' : got (calls ++ [Access.use fd .setsockopt, .use fd .setsockopt]) = [] := by
            rw [got_append, hgot]
            rfl
          have hsent' : sent (calls ++ [Access.use fd .setsockopt, .use fd .setsockopt]) = [] := by
            rw [sent_append, hsent]
            rfl
          have hclose : held (some fd) [(Access.release fd : FdCall)] = some none := held_release fd
          simp only
          split
          · obtain ⟨hheld', hnone, hpre, hall⟩ := sendLoop_spec fd (request t.selector) env.snd 0
            rw [List.drop_zero] at hpre hall
            generalize sendLoop fd (request t.selector) env.snd 0 = line at hheld' hnone hpre hall
            obtain ⟨ok, more⟩ := line
            cases ok with
            | true =>
                refine ⟨⟨held_trans hopen hheld', ?_⟩, ?_, fun _ => ⟨rfl, ?_⟩, fun h => by cases h⟩
                · rw [got_append, hgot', hnone]
                  rfl
                · rw [sent_append, hsent']
                  exact hpre
                · rw [sent_append, hsent']
                  exact hall rfl
            | false =>
                refine ⟨⟨held_trans hopen (held_trans hheld' hclose), ?_⟩, ?_, fun h => absurd h Bool.false_ne_true,
                  fun _ => ⟨_, _, rfl⟩⟩
                · rw [got_append, hgot', got_append, hnone]
                  rfl
                · rw [sent_append, hsent', sent_append]
                  simpa [sent, sentBy] using hpre
          · refine ⟨⟨held_trans hopen hclose, ?_⟩, ?_, fun h => absurd h Bool.false_ne_true, fun _ => ⟨_, _, rfl⟩⟩
            · rw [got_append, hgot']
              rfl
            · rw [sent_append, hsent']
              exact List.nil_prefix

/-- `append` adds to the buffer, and to the capacity of the buffer. -/
theorem append_some {t t' : PosixTransport} {buf : Bytes} {grows : Bool} (h : append t buf grows = some t') :
    ∃ cap, t' =
      { t with
        data := t.data ++ buf
        cap := cap } := by
  simp only [append] at h
  split at h
  · split at h
    · cases h
      exact ⟨_, rfl⟩
    · cases h
  · cases h
    exact ⟨t.cap, rfl⟩

/-- What reading has come to: an end, behind the close, with all that has arrived, or without the one chunk for which
there was no memory. -/
structure Read (t t' : PosixTransport) (calls : List FdCall) : Prop where
  same : SameBut t t'
  ended : t'.status ≠ .running
  kept : t'.data = t.data ++ got calls ∨
    t'.status = .failed ∧ t'.error = .stream ∧ ∃ c : Chunk, t'.data ++ c.bytes = t.data ++ got calls

theorem readLoop_spec (fd : Nat) (outs : List Outcome) (t : PosixTransport) :
    held (some fd) (readLoop fd outs t).2 = some none ∧ sent (readLoop fd outs t).2 = [] ∧
      Read t (readLoop fd outs t).1 (readLoop fd outs t).2 := by
  have hclose : ∀ chunk, held (some fd) [Access.use fd (FdOp.recv chunk), .release fd] = some none :=
    fun chunk => held_trans (held_uses fd [FdOp.recv chunk]) (held_release fd)
  -- an error is fatal only when nothing has arrived
  have herror : ∀ t : PosixTransport, Read t
      (if t.data = [] then fail t .stream "Read failed from" else { t with status := .done })
      [.use fd (.recv []), .release fd] := by
    intro t
    split
    · exact ⟨sameBut_fail t _ _, by simp [fail], Or.inl (List.append_nil _).symm⟩
    · exact ⟨⟨rfl, rfl, rfl, rfl, rfl, rfl⟩, by simp, Or.inl (List.append_nil _).symm⟩
  induction outs generalizing t with
  | nil => exact ⟨hclose [], rfl, herror t⟩
  | cons o outs ih =>
      cases o with
      | nothing | reset | error => exact ⟨hclose [], rfl, herror t⟩
      | close =>
          exact ⟨hclose [], rfl, ⟨rfl, rfl, rfl, rfl, rfl, rfl⟩, by simp [readLoop], Or.inl (List.append_nil _).symm⟩
      | chunk c grows =>
          rw [readLoop]
          cases happend : append t c.bytes grows with
          | none =>
              refine ⟨hclose _, rfl, sameBut_fail t _ _, by simp [fail], Or.inr ⟨rfl, rfl, c, ?_⟩⟩
              simp [got, gotBy, fail]
          | some t₁ =>
              obtain ⟨cap, rfl⟩ := append_some happend
              obtain ⟨hheld, hsent, hsame, hover, hkept⟩ := ih { t with data := t.data ++ c.bytes, cap := cap }
              refine ⟨held_trans (held_uses fd [FdOp.recv c.bytes]) hheld, ?_, ?_, hover, ?_⟩
              · exact hsent
              · exact ⟨hsame.host_eq, hsame.port_eq, hsame.selector_eq, hsame.fd_eq, hsame.drained_eq, hsame.cancelled_eq⟩
              · rw [List.append_assoc] at hkept
                exact hkept

/-- What a whole transaction has come to. -/
structure Ran (t t' : PosixTransport) (calls : List FdCall) : Prop extends Read t t' calls where
  closed : held none calls = some none
  sent_prefix : sent calls <+: request t.selector
  all_sent : got calls ≠ [] ∨ t'.status = .done → sent calls = request t.selector

theorem run_ran (env : PosixEnv) (t : PosixTransport) : Ran t (run env t).1 (run env t).2 := by
  obtain ⟨⟨hheld, hgot⟩, hpre, hsome, hnone⟩ := connectAndSend_spec env t
  rw [run]
  generalize connectAndSend env t = connected at hheld hgot hpre hsome hnone
  obtain ⟨result, t₁, calls⟩ := connected
  cases result with
  | none =>
      obtain ⟨e, what, hfail⟩ := hnone rfl
      simp only at hheld hgot hpre hfail ⊢
      rw [hfail]
      refine ⟨⟨sameBut_fail t e what, by simp [fail], Or.inl ?_⟩, hheld, hpre, ?_⟩
      · rw [hgot, List.append_nil]
        rfl
      · rintro (hany | hdone)
        · exact absurd hgot hany
        · cases hdone
  | some fd =>
      obtain ⟨ht, hall⟩ := hsome rfl
      simp only at hheld hgot hpre ht hall ⊢
      rw [ht]
      obtain ⟨hclosed, hquiet, hread⟩ := readLoop_spec fd env.rcv t
      have hsent : sent (calls ++ (readLoop fd env.rcv t).2) = request t.selector := by
        rw [sent_append, hquiet, List.append_nil, hall]
      refine ⟨⟨hread.same, hread.ended, ?_⟩, held_trans hheld hclosed, ?_, fun _ => hsent⟩
      · rw [got_append, hgot]
        exact hread.kept
      · exact ⟨[], by rw [List.append_nil, hsent]⟩

end Posix

/-! ## The life of a transaction -/

open Posix (sent got)

/-- The invariant: nothing is open between the operations, and all that was received is in the buffer or was drained,
unless there was no memory for the last chunk. -/
structure Blocking (b : PosixTx) : Prop where
  closed : Access.held none b.calls = some none
  fd_eq : b.tx.fd = none
  fresh : b.tx.status = .running → b.calls = []
  sent_prefix : sent b.calls <+: request b.tx.selector
  all_sent : got b.calls ≠ [] ∨ b.tx.status = .done → sent b.calls = request b.tx.selector
  kept : b.tx.drained ++ b.tx.data = got b.calls ∨
    b.tx.status = .failed ∧ b.tx.error = .stream ∧ ∃ c : Chunk, b.tx.drained ++ b.tx.data ++ c.bytes = got b.calls

theorem blocking_new (host : CStr) (port : Int) (selector : Option CStr) : Blocking (posixTxNew host port selector) where
  closed := rfl
  fd_eq := rfl
  fresh := fun _ => rfl
  sent_prefix := List.nil_prefix
  all_sent := by
    rintro (h | h)
    · exact absurd rfl h
    · cases h
  kept := Or.inl rfl

theorem blocking_of_ran {t t' : PosixTransport} {calls : List FdCall} (h : Posix.Ran t t' calls) (hdata : t.data = [])
    (hdrained : t.drained = []) (hfd : t.fd = none) : Blocking ⟨t', calls⟩ where
  closed := h.closed
  fd_eq := h.same.fd_eq.trans hfd
  fresh := fun hrunning => absurd hrunning h.ended
  sent_prefix := by
    rw [h.same.selector_eq]
    exact h.sent_prefix
  all_sent := by
    rw [h.same.selector_eq]
    exact h.all_sent
  kept := by
    have hkept := h.kept
    rw [hdata, List.nil_append] at hkept
    rw [h.same.drained_eq, hdrained, List.nil_append]
    exact hkept

theorem Blocking.poll {b : PosixTx} (h : Blocking b) (env : PosixEnv) : Blocking (posixTxPoll env b) := by
  rw [posixTxPoll]
  split
  · exact h
  · split
    · next hgo =>
      have hfresh := h.fresh hgo.2
      -- nothing has been received so far
      have hstart : b.tx.drained ++ b.tx.data = [] := by
        rcases h.kept with hkept | ⟨hfailed, -⟩
        · rw [hkept, hfresh]
          rfl
        · rw [hfailed] at hgo
          cases hgo.2
      obtain ⟨hdrained, hdata⟩ := List.append_eq_nil_iff.1 hstart
      simp only [hfresh, List.nil_append]
      exact blocking_of_ran (Posix.run_ran env { b.tx with started := false }) hdata hdrained h.fd_eq
    · exact h

theorem Blocking.perform {b : PosixTx} (h : Blocking b) (op : PosixTxOp) : Blocking (posixTxPerform b op) := by
  cases op with
  | start => exact { h with }
  | poll env => exact h.poll env
  | drain cap =>
      obtain ⟨hdrained, hdata, -⟩ := Posix.cqTxDrain_spec b.tx cap
      have hsplit : (Posix.cqTxDrain b.tx cap).2.drained ++ (Posix.cqTxDrain b.tx cap).2.data =
          b.tx.drained ++ b.tx.data := by
        rw [hdrained, List.append_assoc, hdata]
      exact
        { h with
          kept := by
            simp only [posixTxPerform, hsplit]
            exact h.kept }
  | cancel =>
      have hcalls : (posixTxCancel b).calls = b.calls := by
        rw [posixTxCancel, h.fd_eq]
        exact List.append_nil _
      exact
        { closed := by
            simp only [posixTxPerform, hcalls]
            exact h.closed
          fd_eq := rfl
          fresh := by
            simp only [posixTxPerform, hcalls]
            exact h.fresh
          sent_prefix := by
            simp only [posixTxPerform, hcalls]
            exact h.sent_prefix
          all_sent := by
            simp only [posixTxPerform, hcalls]
            exact h.all_sent
          kept := by
            simp only [posixTxPerform, hcalls]
            exact h.kept }

theorem blocking_foldl {b : PosixTx} (h : Blocking b) (ops : List PosixTxOp) :
    Blocking (ops.foldl posixTxPerform b) := by
  induction ops generalizing b with
  | nil => exact h
  | cons op ops ih => exact ih (h.perform op)

/-- Two moments of a transaction that is over. -/
structure Settled (b b' : PosixTx) : Prop where
  status_eq : b'.tx.status = b.tx.status
  error_eq : b'.tx.error = b.tx.error
  message_eq : b'.tx.message = b.tx.message
  calls_eq : b'.calls = b.calls

theorem Blocking.settled {b : PosixTx} (h : Blocking b) (hover : b.tx.status ≠ .running) (op : PosixTxOp) :
    Settled b (posixTxPerform b op) := by
  cases op with
  | start | drain cap => exact ⟨rfl, rfl, rfl, rfl⟩
  | poll env =>
      have hsame : posixTxPoll env b = b := by
        rw [posixTxPoll]
        split
        · rfl
        · rw [if_neg fun hgo => hover hgo.2]
      exact ⟨by rw [posixTxPerform, hsame], by rw [posixTxPerform, hsame], by rw [posixTxPerform, hsame],
        by rw [posixTxPerform, hsame]⟩
  | cancel =>
      refine ⟨rfl, rfl, rfl, ?_⟩
      rw [posixTxPerform, posixTxCancel, h.fd_eq]
      exact List.append_nil _

theorem Blocking.settled_foldl {b : PosixTx} (h : Blocking b) (hover : b.tx.status ≠ .running)
    (ops : List PosixTxOp) : Settled b (ops.foldl posixTxPerform b) := by
  induction ops generalizing b with
  | nil => exact ⟨rfl, rfl, rfl, rfl⟩
  | cons op ops ih =>
      have hfirst := h.settled hover op
      have hlater := ih (h.perform op) (by rw [hfirst.status_eq]; exact hover)
      exact ⟨hlater.status_eq.trans hfirst.status_eq, hlater.error_eq.trans hfirst.error_eq,
        hlater.message_eq.trans hfirst.message_eq, hlater.calls_eq.trans hfirst.calls_eq⟩

/-- The selector is the caller's throughout. -/
theorem selector_posixTxPerform (b : PosixTx) (op : PosixTxOp) :
    (posixTxPerform b op).tx.selector = b.tx.selector := by
  cases op with
  | start | drain cap | cancel => rfl
  | poll env =>
      rw [posixTxPerform, posixTxPoll]
      split
      · rfl
      · split
        · exact (Posix.run_ran env { b.tx with started := false }).same.selector_eq
        · rfl

theorem selector_posix_foldl (b : PosixTx) (ops : List PosixTxOp) :
    (ops.foldl posixTxPerform b).tx.selector = b.tx.selector := by
  induction ops generalizing b with
  | nil => rfl
  | cons op ops ih => exact (ih _).trans (selector_posixTxPerform b op)

/-- **The life of a blocking transaction.** Whatever its caller does and the world answers, every descriptor it opens is
closed once and not used behind that; what it sends is the request, in order and once, and nothing is read before
all of it is sent; the response is what was received, unless there was no memory for a chunk; and its end is final. -/
theorem blocking_life (host : CStr) (port : Int) (selector : Option CStr) (ops : List PosixTxOp) :
    let b := ops.foldl posixTxPerform (posixTxNew host port selector)
    Access.held none (posixTxFree b) = some none ∧
      sent b.calls <+: request (selector.getD .empty) ∧
      (got b.calls ≠ [] ∨ b.tx.status = .done → sent b.calls = request (selector.getD .empty)) ∧
      (b.tx.drained ++ b.tx.data = got b.calls ∨
        b.tx.status = .failed ∧ b.tx.error = .stream ∧
          ∃ c : Chunk, b.tx.drained ++ b.tx.data ++ c.bytes = got b.calls) ∧
      (b.tx.status ≠ .running → ∀ more : List PosixTxOp, Settled b (more.foldl posixTxPerform b)) := by
  intro b
  have h : Blocking b := blocking_foldl (blocking_new host port selector) ops
  have hselector : b.tx.selector = selector.getD .empty := selector_posix_foldl _ ops
  have hpre := h.sent_prefix
  have hall := h.all_sent
  rw [hselector] at hpre hall
  refine ⟨?_, hpre, hall, h.kept, h.settled_foldl⟩
  rw [posixTxFree, h.fd_eq]
  exact (congrArg (Access.held none) (List.append_nil b.calls)).trans h.closed

/-! ## One response -/

/-- What a caller sees of a transaction, and the size of its buffer. -/
structure Response where
  status : CqTxStatus
  error : CqTxError
  message : CStr
  data : Bytes
  cap : Nat

/-- The response of an Open Transport transaction. -/
def otResponse (t : CqTransport) : Response := ⟨t.status, t.error, t.message, t.data, t.cap⟩

/-- The response of a host transaction. -/
def posixResponse (t : PosixTransport) : Response := ⟨t.status, t.error, t.message, t.data, t.cap⟩

/-- Before the first read. -/
def Response.begun : Response := ⟨.running, .none, .empty, [], 0⟩

namespace Response

/-- The response fails. -/
def failed (host : CStr) (port : Int) (what : String) (r : Response) : Response :=
  { r with
    status := .failed
    error := .stream
    message := (CStr.lit what ++ .lit " " ++ host ++ .lit ":" ++ decimalInt port ++ .lit ".").fit 256 }

/-- What a read makes of a response. -/
def hear (host : CStr) (port : Int) (r : Response) (o : Outcome) : Response :=
  if r.status = .running then
    match o with
    | .nothing => r
    | .close => { r with status := .done }
    | .reset | .error => if r.data = [] then r.failed host port "Read failed from" else { r with status := .done }
    | .chunk c grows =>
        let need := r.data.length + c.bytes.length
        if r.cap < need then
          if grows then
            { r with
              data := r.data ++ c.bytes
              cap := growCap need need (if r.cap = 0 then cqTxReadChunk else r.cap) }
          else r.failed host port "Out of memory reading from"
        else { r with data := r.data ++ c.bytes }
  else r

theorem hear_over {host : CStr} {port : Int} {r : Response} (h : r.status ≠ .running) (outs : List Outcome) :
    outs.foldl (hear host port) r = r := by
  induction outs with
  | nil => rfl
  | cons o outs ih =>
      have hfirst : hear host port r o = r := by
        unfold hear
        exact if_neg h
      rw [List.foldl_cons, hfirst, ih]

end Response

open Response (hear)

/-- The host transaction hears every read, and takes what is behind the last one for an error. -/
theorem posixResponse_readLoop (fd : Nat) {outs : List Outcome} {t : PosixTransport} (hrunning : t.status = .running)
    (hstalls : ∀ o ∈ outs, o ≠ .nothing) :
    posixResponse (Posix.readLoop fd outs t).1 =
      (outs ++ [Outcome.error]).foldl (hear t.host t.port) (posixResponse t) := by
  induction outs generalizing t with
  | nil =>
      simp only [Posix.readLoop, List.nil_append, List.foldl_cons, List.foldl_nil, hear, posixResponse, hrunning, if_true]
      split <;> rfl
  | cons o outs ih =>
      rw [List.cons_append, List.foldl_cons]
      cases o with
      | nothing => exact absurd rfl (hstalls _ List.mem_cons_self)
      | close =>
          rw [Response.hear_over (by simp [hear, posixResponse, hrunning])]
          simp only [Posix.readLoop, hear, posixResponse, hrunning, if_true]
      | reset | error =>
          by_cases hdata : t.data = []
          · rw [Response.hear_over (by simp [hear, posixResponse, hrunning, hdata, Response.failed])]
            simp only [Posix.readLoop, hear, posixResponse, hrunning, hdata, if_true, Posix.fail, Response.failed]
          · rw [Response.hear_over (by simp [hear, posixResponse, hrunning, hdata])]
            simp only [Posix.readLoop, hear, posixResponse, hrunning, hdata, if_true, if_false]
      | chunk c grows =>
          have hlater : ∀ o ∈ outs, o ≠ .nothing := fun o ho => hstalls o (List.mem_cons_of_mem _ ho)
          have hfirst : hear t.host t.port (posixResponse t) (.chunk c grows) =
              match Posix.append t c.bytes grows with
              | none => (posixResponse t).failed t.host t.port "Out of memory reading from"
              | some t' => posixResponse t' := by
            simp only [hear, posixResponse, hrunning, if_true, Posix.append]
            split
            · cases grows <;> rfl
            · rfl
          rw [Posix.readLoop]
          cases happend : Posix.append t c.bytes grows with
          | none =>
              rw [hfirst, happend]
              simp only
              rw [Response.hear_over (by simp [Response.failed])]
              rfl
          | some t' =>
              rw [hfirst, happend]
              obtain ⟨cap, rfl⟩ := Posix.append_some happend
              exact ih hrunning hlater

/-- A transaction that reads, under way since `start` for a host and a port. -/
structure Reading (host : CStr) (port : Int) (start : BitVec 32) (t : CqTransport) : Prop where
  host_eq : t.host = host
  port_eq : t.port = port
  start_eq : t.startTick = start
  whole : t.streaming = false
  live : t.cancelled = false
  receiving : t.status = .running → t.st = .receiving

variable {host : CStr} {port : Int} {start : BitVec 32}

theorem Reading.call {t : CqTransport} (h : Reading host port start t) (op : OtOp) :
    Reading host port start (t.call op) := { h with }

theorem Reading.fail {t : CqTransport} (h : Reading host port start t) (what : String) :
    Reading host port start (t.fail .stream what) ∧
      otResponse (t.fail .stream what) = (otResponse t).failed host port what := by
  rw [← h.host_eq, ← h.port_eq]
  rw [CqTransport.fail]
  simp only
  split
  · exact ⟨⟨rfl, rfl, h.start_eq, h.whole, h.live, fun hrunning => by cases hrunning⟩, rfl⟩
  · exact ⟨⟨rfl, rfl, h.start_eq, h.whole, h.live, fun hrunning => by cases hrunning⟩, rfl⟩

theorem Reading.finish {t : CqTransport} (h : Reading host port start t) :
    Reading host port start t.finish ∧ otResponse t.finish = { otResponse t with status := .done } :=
  ⟨⟨h.host_eq, h.port_eq, h.start_eq, h.whole, h.live, fun hrunning => by cases hrunning⟩, rfl⟩

/-- A read that fails delivers what has arrived. -/
theorem Reading.readFailed {t : CqTransport} (h : Reading host port start t) (release : Bool) :
    Reading host port start (t.readFailed release) ∧
      otResponse (t.readFailed release) =
        if t.data = [] then (otResponse t).failed host port "Read failed from" else { otResponse t with status := .done } := by
  rw [CqTransport.readFailed]
  by_cases hdata : t.data = []
  · rw [if_neg (not_not.2 hdata), if_pos hdata]
    exact h.fail "Read failed from"
  · rw [if_pos hdata, if_neg hdata]
    cases release with
    | false => exact h.finish
    | true => exact (h.call .sndOrderlyDisconnect).finish

/-- A slice of reads hears each of them. -/
theorem Reading.recvLoop {outs : List Outcome} {t : CqTransport} (h : Reading host port start t)
    (hrunning : t.status = .running) (hstalls : ∀ o ∈ outs, o ≠ .nothing) :
    Reading host port start (CqTransport.recvLoop (outs.map Outcome.rcv) t) ∧
      otResponse (CqTransport.recvLoop (outs.map Outcome.rcv) t) = outs.foldl (hear host port) (otResponse t) := by
  have hpressure : ∀ t : CqTransport, Reading host port start t →
      ¬ (t.streaming = true ∧ cqTxStreamHiwat ≤ t.data.length) := by
    rintro t ht ⟨hstreaming, -⟩
    rw [ht.whole] at hstreaming
    cases hstreaming
  induction outs generalizing t with
  | nil =>
      rw [List.map_nil, CqTransport.recvLoop, if_neg (hpressure t h)]
      exact ⟨h.call _, rfl⟩
  | cons o outs ih =>
      rw [List.map_cons, List.foldl_cons]
      have hask := h.call (.rcv [])
      have hlook := hask.call .look
      cases o with
      | nothing => exact absurd rfl (hstalls _ List.mem_cons_self)
      | close =>
          rw [Response.hear_over (by simp [hear, otResponse, hrunning]), Outcome.rcv, CqTransport.recvLoop,
            if_neg (hpressure t h)]
          obtain ⟨hreading, hresponse⟩ := ((hlook.call .rcvOrderlyDisconnect).call .sndOrderlyDisconnect).finish
          refine ⟨hreading, hresponse.trans ?_⟩
          simp only [hear, otResponse, hrunning, if_true, CqTransport.call]
      | reset =>
          rw [Response.hear_over (by simp only [hear, otResponse, hrunning, if_true]; split <;> simp [Response.failed]),
            Outcome.rcv, CqTransport.recvLoop, if_neg (hpressure t h)]
          obtain ⟨hreading, hresponse⟩ := (hlook.call .rcvDisconnect).readFailed false
          refine ⟨hreading, hresponse.trans ?_⟩
          simp only [hear, otResponse, hrunning, if_true, CqTransport.call]
      | error =>
          rw [Response.hear_over (by simp only [hear, otResponse, hrunning, if_true]; split <;> simp [Response.failed]),
            Outcome.rcv, CqTransport.recvLoop, if_neg (hpressure t h)]
          obtain ⟨hreading, hresponse⟩ := hask.readFailed true
          refine ⟨hreading, hresponse.trans ?_⟩
          simp only [hear, otResponse, hrunning, if_true, CqTransport.call]
      | chunk c grows =>
          have hlater : ∀ o ∈ outs, o ≠ .nothing := fun o ho => hstalls o (List.mem_cons_of_mem _ ho)
          have hheard := h.call (.rcv c.bytes)
          have hfirst : hear host port (otResponse t) (.chunk c grows) =
              ((t.call (.rcv c.bytes)).append c.bytes grows).elim
                ((otResponse t).failed host port "Out of memory reading from") otResponse := by
            simp only [hear, otResponse, hrunning, if_true, CqTransport.append, CqTransport.call]
            split
            · cases grows <;> rfl
            · rfl
          rw [Outcome.rcv, CqTransport.recvLoop, if_neg (hpressure t h), hfirst]
          cases happend : (t.call (.rcv c.bytes)).append c.bytes grows with
          | none =>
              obtain ⟨hreading, hresponse⟩ := hheard.fail "Out of memory reading from"
              simp only [happend]
              rw [Response.hear_over (by simp [Response.failed])]
              exact ⟨hreading, hresponse⟩
          | some t' =>
              simp only [happend]
              obtain ⟨cap, rfl⟩ := append_eq_some happend
              exact ih { hheard with } hrunning hlater

/-- A poll within the watchdog's time, whose reads find what is given. -/
structure Prompt (start : BitVec 32) (p : OtEnv × List Outcome) : Prop where
  rcv_eq : p.1.rcv = p.2.map Outcome.rcv
  in_time : (p.1.tick - start).toNat ≤ watchdogTicks
  no_stall : ∀ o ∈ p.2, o ≠ .nothing

theorem Reading.poll {t : CqTransport} (h : Reading host port start t) {p : OtEnv × List Outcome}
    (hp : Prompt start p) :
    Reading host port start (cqTxPoll p.1 t) ∧
      otResponse (cqTxPoll p.1 t) = p.2.foldl (hear host port) (otResponse t) := by
  rw [cqTxPoll]
  by_cases hrunning : t.status = .running
  · obtain ⟨hreading, hresponse⟩ := h.recvLoop hrunning hp.no_stall
    rw [if_neg (not_or.2 ⟨by rw [h.live]; decide, not_not.2 hrunning⟩), slice, h.receiving hrunning]
    simp only
    rw [pumpRecv, hp.rcv_eq]
    -- no deadline has passed
    have hdeadlines : checkDeadlines p.1.tick (CqTransport.recvLoop (p.2.map Outcome.rcv) t) =
        CqTransport.recvLoop (p.2.map Outcome.rcv) t := by
      rw [checkDeadlines]
      split
      · next hstill =>
        rw [hreading.receiving hstill, hreading.start_eq, if_neg (by simp),
          if_neg fun hlate => absurd hlate.2 (Nat.not_lt.2 hp.in_time)]
      · rfl
    rw [hdeadlines]
    exact ⟨hreading, hresponse⟩
  · rw [if_pos (Or.inr hrunning), Response.hear_over hrunning]
    exact ⟨h, rfl⟩

/-- Cutting the reads into polls makes no difference. -/
theorem Reading.polls {t : CqTransport} (h : Reading host port start t) {polls : List (OtEnv × List Outcome)}
    (hpolls : ∀ p ∈ polls, Prompt start p) :
    otResponse (polls.foldl (fun t p => cqTxPoll p.1 t) t) =
      (polls.flatMap Prod.snd).foldl (hear host port) (otResponse t) := by
  induction polls generalizing t with
  | nil => rfl
  | cons p polls ih =>
      obtain ⟨hreading, hresponse⟩ := h.poll (hpolls p List.mem_cons_self)
      rw [List.foldl_cons, List.flatMap_cons, List.foldl_append,
        ih hreading fun q hq => hpolls q (List.mem_cons_of_mem _ hq), hresponse]

/-- **The two implementations make the same response.** Both have sent the request and find the same reads, which do not
stall and come to an end. However the polls of the Open Transport transaction cut them, within its watchdog, it ends
with the status, the error, the message and the data of the host transaction, which reads them in one poll. -/
theorem oneShot_agree {t : CqTransport} (ht : Reading host port start t) (hbegun : otResponse t = .begun)
    {polls : List (OtEnv × List Outcome)} (hpolls : ∀ p ∈ polls, Prompt start p)
    (hends : ((polls.flatMap Prod.snd).foldl (hear host port) .begun).status ≠ .running) (selector : Option CStr)
    {env : PosixEnv} (hsent : (Posix.connectAndSend env (posixTxNew host port selector).tx).1.isSome)
    (hrcv : env.rcv = polls.flatMap Prod.snd) :
    posixResponse (posixTxPoll env (posixTxPerform (posixTxNew host port selector) .start)).tx =
      otResponse (polls.foldl (fun t p => cqTxPoll p.1 t) t) := by
  have hstalls : ∀ o ∈ polls.flatMap Prod.snd, o ≠ .nothing := by
    intro o ho
    obtain ⟨p, hp, ho⟩ := List.mem_flatMap.1 ho
    exact (hpolls p hp).no_stall o ho
  -- the poll connects, sends and reads
  have hpoll : (posixTxPoll env (posixTxPerform (posixTxNew host port selector) .start)).tx =
      (Posix.run env (posixTxNew host port selector).tx).1 := rfl
  obtain ⟨-, -, hsome, -⟩ := Posix.connectAndSend_spec env (posixTxNew host port selector).tx
  obtain ⟨hsame, -⟩ := hsome hsent
  rw [ht.polls hpolls, hbegun, hpoll, Posix.run]
  generalize Posix.connectAndSend env (posixTxNew host port selector).tx = connected at hsent hsame
  obtain ⟨result, t', calls⟩ := connected
  cases result with
  | none => cases hsent
  | some fd =>
      simp only at hsame ⊢
      have hstart : posixResponse (posixTxNew host port selector).tx = .begun := rfl
      rw [hsame, hrcv, posixResponse_readLoop fd rfl hstalls, hstart, List.foldl_append]
      -- behind its end nothing is heard any more
      exact Response.hear_over hends [.error]

/-- Connected and sent by Open Transport. -/
def otReading : CqTransport :=
  [promptEnv, promptEnv].foldl (fun t env => cqTxPoll env t) (cqTxNew (.lit "spot") 70 none false)

/-- A byte in one poll, and the end in the next. -/
def bytePolls : List (OtEnv × List Outcome) :=
  [[Outcome.chunk ⟨[42], by decide, by decide⟩ true], [.close]].map fun outs =>
    ({ promptEnv with rcv := outs.map Outcome.rcv }, outs)

theorem oneShot_agree_byte :
    posixResponse (posixTxPoll ⟨some [.refused 3, .connected 3], true, [1, 1], bytePolls.flatMap Prod.snd⟩
        (posixTxPerform (posixTxNew (.lit "spot") 70 none) .start)).tx =
      otResponse (bytePolls.foldl (fun t p => cqTxPoll p.1 t) otReading) := by
  have hreading : Reading (.lit "spot") 70 0 otReading := ⟨rfl, rfl, rfl, rfl, rfl, fun _ => rfl⟩
  have hpolls : ∀ p ∈ bytePolls, Prompt 0 p := by
    intro p hp
    obtain ⟨outs, houts, rfl⟩ := List.mem_map.1 hp
    have htick : (promptEnv.tick - 0).toNat ≤ watchdogTicks := by decide
    refine ⟨rfl, htick, ?_⟩
    rcases List.mem_pair.1 houts with rfl | rfl
    · simp
    · simp
  exact oneShot_agree hreading rfl hpolls (by decide) none rfl rfl

end Casquinha.Transport
