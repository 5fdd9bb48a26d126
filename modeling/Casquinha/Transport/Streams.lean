import Casquinha.Transport.Posix
import Casquinha.Transport.Deadlines
import Casquinha.Lib.Run

/-!
# The two streaming transports side by side

Both transactions read the same outcomes, each as far as it asks for them, under the same polls and drains
(`otStep`, `posixStep`). They stay level with each other (`Level`) until a read fails: POSIX then fails, and Open
Transport fails only if nothing is buffered, and is done otherwise. So the two agree, and the status after a
reset is the same whatever was drained before it, exactly if no read fails on a buffer that holds
something (`streams_agree_iff`).
-/

set_option autoImplicit false

namespace Casquinha.Transport

open Lib App CqTransport

/-! ## The two machines -/

/-- A transaction, and the outcomes that no read has asked for. -/
structure Side (T : Type) where
  tx : T
  unread : List Outcome

/-- A poll, in any world, or a drain. -/
inductive StreamOp where
  | poll (env : OtEnv) (connected : Connected)
  | drain (cap : Nat)

/-- A call of `OTRcv`. -/
def OtCall.isRcv : OtCall → Bool
  | .used _ (.rcv _) => true
  | _ => false

/-- How often the transaction has called `OTRcv`. -/
def reads (t : CqTransport) : Nat := t.calls.countP OtCall.isRcv

/-- One operation on the Open Transport side: every call of `OTRcv` takes an outcome. -/
def otStep (x : Side CqTransport) : StreamOp → Option (Side CqTransport)
  | .poll env _ =>
      let t := cqTxPoll { env with rcv := x.unread.map Outcome.rcv } x.tx
      some ⟨t, x.unread.drop (reads t - reads x.tx)⟩
  | .drain cap => some ⟨(cqTxDrain x.tx cap).2, x.unread⟩

/-- One operation on the POSIX side. -/
def posixStep (y : Side PosixTransport) : StreamOp → Option (Side PosixTransport)
  | .poll _ connected =>
      let polled := Posix.cqTxPoll connected y.unread y.tx
      some ⟨polled.1, polled.2⟩
  | .drain cap => some ⟨(Posix.cqTxDrain y.tx cap).2, y.unread⟩

/-- An Open Transport stream that has just sent its request. -/
structure OtSent where
  tx : CqTransport
  status : tx.status = .running
  st : tx.st = .receiving
  streaming : tx.streaming = true
  cancelled : tx.cancelled = false
  data : tx.data = []
  cap : tx.cap = 0
  drained : tx.drained = []

/-- A POSIX stream that has just sent its request. -/
structure PosixSent where
  tx : PosixTransport
  status : tx.status = .running
  started : tx.started = true
  cancelled : tx.cancelled = false
  fd : tx.fd.isSome = true
  data : tx.data = []
  cap : tx.cap = 0
  drained : tx.drained = []

/-- The same status, the same bytes delivered so far, and the same ones left to deliver. -/
def Agree (x : Side CqTransport) (y : Side PosixTransport) : Prop :=
  x.tx.status = y.tx.status ∧ x.tx.drained = y.tx.drained ∧ x.tx.data = y.tx.data

/-- The last outcome that was read of `outs` is a reset or another error. -/
def ReadFailure {T : Type} (outs : List Outcome) (x : Side T) : Prop :=
  ∃ front o, Outcome.fails o = true ∧ outs = front ++ o :: x.unread

/-- The poll, if the transaction is running, does not come to a read that fails while something is
buffered. -/
def FindsNothing (x : Side CqTransport) : StreamOp → Prop
  | .poll _ _ => x.tx.status = .running →
      ∀ held, heldAtFailure x.unread x.tx.data.length x.tx.cap = some held → held = 0
  | .drain _ => True

/-! ## Level -/

/-- The two transactions have read, kept and delivered the same, and neither is cancelled. -/
structure Level (t : CqTransport) (p : PosixTransport) : Prop where
  data : t.data = p.data
  cap : t.cap = p.cap
  drained : t.drained = p.drained
  streaming : t.streaming = true
  otCancelled : t.cancelled = false
  started : p.started = true
  cancelled : p.cancelled = false
  receiving : t.status = .running → t.st = .receiving
  open' : p.status = .running → p.fd.isSome = true

/-- The read that failed has told them apart, or the status is the same. -/
def Forked (held : Option Nat) (t : CqTransport) (p : PosixTransport) : Prop :=
  ((∃ n, held = some (n + 1)) ∧ t.status = .done ∧ p.status = .failed) ∨
    ((∀ n, held = some n → n = 0) ∧ t.status = p.status)

/-- What a teardown, a failure and the like leave alone. -/
structure SameSide (t u : CqTransport) : Prop where
  data : u.data = t.data
  cap : u.cap = t.cap
  drained : u.drained = t.drained
  streaming : u.streaming = t.streaming
  cancelled : u.cancelled = t.cancelled
  reads : reads u = reads t

theorem SameSide.trans {t u v : CqTransport} (h : SameSide t u) (h' : SameSide u v) : SameSide t v :=
  ⟨h'.data.trans h.data, h'.cap.trans h.cap, h'.drained.trans h.drained,
    h'.streaming.trans h.streaming, h'.cancelled.trans h.cancelled, h'.reads.trans h.reads⟩

theorem sameSide_call {op : OtOp} (hop : OtCall.isRcv (.used none op) = false) (t : CqTransport) :
    SameSide t (t.call op) := by
  refine ⟨rfl, rfl, rfl, rfl, rfl, ?_⟩
  have hcall : OtCall.isRcv (.used t.ep op) = false := by
    cases op <;> first | rfl | cases hop
  simp [reads, call, hcall]

theorem sameSide_teardown (t : CqTransport) : SameSide t t.teardown := by
  refine ⟨rfl, rfl, rfl, rfl, rfl, ?_⟩
  simp [reads, teardown, OtCall.isRcv]

theorem sameSide_fail (t : CqTransport) (e : CqTxError) (what : String) :
    SameSide t (t.fail e what) ∧ (t.fail e what).status = .failed := by
  rw [fail]
  dsimp only
  have hsame : SameSide t { t with
      status := .failed
      st := .failed
      error := e
      message := t.failText what } := ⟨rfl, rfl, rfl, rfl, rfl, rfl⟩
  split
  · exact ⟨(hsame.trans (sameSide_call rfl _)).trans (sameSide_teardown _), rfl⟩
  · exact ⟨hsame, rfl⟩

theorem sameSide_finish (t : CqTransport) : SameSide t t.finish ∧ t.finish.status = .done :=
  ⟨(sameSide_teardown t).trans ⟨rfl, rfl, rfl, rfl, rfl, rfl⟩, rfl⟩

theorem reads_rcv (t : CqTransport) (chunk : Bytes) : reads (t.call (.rcv chunk)) = reads t + 1 := by
  simp [reads, call, OtCall.isRcv]

/-- A read that fails is judged by the buffer. -/
theorem sameSide_readFailed (t : CqTransport) (release : Bool) :
    SameSide t (t.readFailed release) ∧
      (t.readFailed release).status = if t.data = [] then .failed else .done := by
  rw [readFailed]
  by_cases hdata : t.data = []
  · rw [if_neg (not_not_intro hdata), if_pos hdata]
    exact sameSide_fail t _ _
  · rw [if_pos hdata, if_neg hdata]
    cases release with
    | false => exact sameSide_finish t
    | true =>
        obtain ⟨hsame, hdone⟩ := sameSide_finish (t.call .sndOrderlyDisconnect)
        exact ⟨(sameSide_call rfl t).trans hsame, hdone⟩

/-! ## One poll -/

theorem Level.call {t : CqTransport} {p : PosixTransport} (h : Level t p) (op : OtOp) :
    Level (t.call op) p :=
  ⟨h.data, h.cap, h.drained, h.streaming, h.otCancelled, h.started, h.cancelled, h.receiving, h.open'⟩

/-- Both transactions are over, with what they held. -/
theorem Level.over {t t' : CqTransport} {p p' : PosixTransport} (h : Level t p) (ht : SameSide t t')
    (hp : (p'.data, p'.cap, p'.drained, p'.started, p'.cancelled) =
      (p.data, p.cap, p.drained, p.started, p.cancelled))
    (hover : t'.status ≠ .running) (hover' : p'.status ≠ .running) : Level t' p' := by
  simp only [Prod.mk.injEq] at hp
  obtain ⟨hdata, hcap, hdrained, hstarted, hcancelled⟩ := hp
  refine ⟨?_, ?_, ?_, ?_, ?_, ?_, ?_, fun hrun => absurd hrun hover, fun hrun => absurd hrun hover'⟩
  · rw [ht.data, h.data, hdata]
  · rw [ht.cap, h.cap, hcap]
  · rw [ht.drained, h.drained, hdrained]
  · rw [ht.streaming, h.streaming]
  · rw [ht.cancelled, h.otCancelled]
  · rw [hstarted, h.started]
  · rw [hcancelled, h.cancelled]

/-- What a poll leads to, from `t`, on the two sides. -/
structure Polled (held : Option Nat) (outs : List Outcome) (t t' : CqTransport)
    (q : PosixTransport × List Outcome) : Prop where
  level : Level t' q.1
  forked : Forked held t' q.1
  later : reads t ≤ reads t'
  unread : outs.drop (reads t' - reads t) = q.2

/-- Nothing fails, and the two have the same status. -/
theorem forked_none {t : CqTransport} {p : PosixTransport} (h : t.status = p.status) : Forked none t p :=
  Or.inr ⟨fun _ hnone => (Option.some_ne_none _ hnone.symm).elim, h⟩

/-- The last read of a poll, which takes one outcome. -/
theorem polled_last {held : Option Nat} {o : Outcome} {outs : List Outcome} {t t' : CqTransport}
    {p' : PosixTransport} {chunk : Bytes} (hsame : SameSide (t.call (.rcv chunk)) t')
    (hlevel : Level t' p') (hforked : Forked held t' p') : Polled held (o :: outs) t t' (p', outs) := by
  have hreads : reads t' = reads t + 1 := by
    rw [hsame.reads, reads_rcv]
  refine ⟨hlevel, hforked, ?_, ?_⟩
  · omega
  · rw [hreads, Nat.add_sub_cancel_left]
    rfl

/-- A read that fails: POSIX fails, Open Transport asks what is buffered. -/
theorem polled_failure {o : Outcome} {outs : List Outcome} {t t' : CqTransport} {p : PosixTransport}
    (h : Level t p) (hsame : SameSide (t.call (.rcv [])) t')
    (hstatus : t'.status = if t.data = [] then .failed else .done) :
    Polled (some t.data.length) (o :: outs) t t'
      (Posix.fail (Posix.closeFd p) .stream "Read failed from", outs) := by
  have hover : t'.status ≠ .running := by
    rw [hstatus]
    split
    · exact CqTxStatus.noConfusion
    · exact CqTxStatus.noConfusion
  have hlevel : Level t' (Posix.fail (Posix.closeFd p) .stream "Read failed from") :=
    (h.call _).over hsame rfl hover CqTxStatus.noConfusion
  apply polled_last hsame hlevel
  rw [Forked, hstatus]
  by_cases hdata : t.data = []
  · right
    rw [if_pos hdata, hdata]
    exact ⟨fun n hn => (Option.some.inj hn).symm, rfl⟩
  · left
    rw [if_neg hdata]
    obtain ⟨n, hn⟩ := Nat.exists_eq_succ_of_ne_zero fun hzero => hdata (List.length_eq_zero_iff.1 hzero)
    exact ⟨⟨n, congrArg some hn⟩, rfl, rfl⟩

/-- The server has closed: both are done. -/
theorem polled_close {outs : List Outcome} {t : CqTransport} {p : PosixTransport} (h : Level t p) :
    Polled none (.close :: outs) t
      (finish ((((t.call (.rcv [])).call .look).call .rcvOrderlyDisconnect).call .sndOrderlyDisconnect))
      ({ Posix.closeFd p with status := .done }, outs) := by
  obtain ⟨hlast, hdone⟩ := sameSide_finish
    ((((t.call (.rcv [])).call .look).call .rcvOrderlyDisconnect).call .sndOrderlyDisconnect)
  have hsame := (((sameSide_call rfl (t.call (.rcv []))).trans (sameSide_call rfl _)).trans
    (sameSide_call rfl _)).trans hlast
  have hover : CqTxStatus.done ≠ .running := CqTxStatus.noConfusion
  apply polled_last hsame _ (forked_none hdone)
  exact (h.call (.rcv [])).over hsame rfl (hdone.symm ▸ hover) hover

/-- No memory for a chunk: both fail, and the chunk is lost. -/
theorem polled_noMemory {o : Outcome} {outs : List Outcome} {t : CqTransport} {p : PosixTransport}
    (h : Level t p) (chunk : Bytes) :
    Polled none (o :: outs) t ((t.call (.rcv chunk)).fail .stream "Out of memory reading from")
      (Posix.fail (Posix.fail (Posix.closeFd p) .stream "Out of memory reading from") .stream
        "Read failed from", outs) := by
  obtain ⟨hsame, hfailed⟩ := sameSide_fail (t.call (.rcv chunk)) .stream "Out of memory reading from"
  have hover : CqTxStatus.failed ≠ .running := CqTxStatus.noConfusion
  apply polled_last hsame _ (forked_none hfailed)
  exact (h.call (.rcv chunk)).over hsame rfl (hfailed.symm ▸ hover) hover

/-- A read that takes a chunk, and what follows. -/
theorem Polled.behind {held : Option Nat} {o : Outcome} {outs : List Outcome} {t t₁ t' : CqTransport}
    {q : PosixTransport × List Outcome} (h : Polled held outs t₁ t' q) (hreads : reads t₁ = reads t + 1) :
    Polled held (o :: outs) t t' q := by
  have hlater := h.later
  refine ⟨h.level, h.forked, ?_, ?_⟩
  · omega
  · have hcount : reads t' - reads t = reads t' - reads t₁ + 1 := by omega
    rw [hcount, List.drop_succ_cons]
    exact h.unread

/-- The buffer of both sides takes a chunk. -/
theorem Level.taken {t : CqTransport} {p : PosixTransport} (h : Level t p) (c : Chunk) (cap : Nat) :
    Level
      { t.call (.rcv c.bytes) with
        data := t.data ++ c.bytes
        cap := cap }
      { p with
        data := p.data ++ c.bytes
        cap := cap } :=
  ⟨congrArg (· ++ c.bytes) h.data, rfl, h.drained, h.streaming, h.otCancelled, h.started, h.cancelled,
    h.receiving, h.open'⟩

/-- Both sides have room for a chunk, or neither has; `held` is what `heldAtFailure` goes on with. -/
theorem append_chunk {t : CqTransport} {p : PosixTransport} (h : Level t p) (c : Chunk) (grows : Bool) :
    let need := t.data.length + c.bytes.length
    let grown := growCap need need (if t.cap = 0 then cqTxReadChunk else t.cap)
    ((t.call (.rcv c.bytes)).append c.bytes grows = none ∧ Posix.append p c.bytes grows = none ∧
        ∀ held : Nat → Option Nat,
          (if t.cap < need then if grows then held grown else none else held t.cap) = none) ∨
      ∃ cap,
        (t.call (.rcv c.bytes)).append c.bytes grows = some
            { t.call (.rcv c.bytes) with
              data := t.data ++ c.bytes
              cap := cap } ∧
          Posix.append p c.bytes grows = some
            { p with
              data := p.data ++ c.bytes
              cap := cap } ∧
          ∀ held : Nat → Option Nat,
            (if t.cap < need then if grows then held grown else none else held t.cap) = held cap := by
  dsimp only
  rw [CqTransport.append, Posix.append, ← h.data, ← h.cap]
  by_cases hroom : t.cap < t.data.length + c.bytes.length
  · cases grows with
    | false =>
        left
        refine ⟨if_pos hroom, if_pos hroom, ?_⟩
        intro held
        exact if_pos hroom
    | true =>
        right
        refine ⟨_, if_pos hroom, if_pos hroom, ?_⟩
        intro held
        exact if_pos hroom
  · right
    refine ⟨t.cap, if_neg hroom, ?_, ?_⟩
    · rw [h.cap] at hroom ⊢
      exact if_neg hroom
    · intro held
      exact if_neg hroom

/-- **The two loops stay level** until a read fails. -/
theorem loops_level {outs : List Outcome} :
    ∀ {t : CqTransport} {p : PosixTransport}, Level t p → t.status = .running → p.status = .running →
      Polled (heldAtFailure outs t.data.length t.cap) outs t (recvLoop (outs.map Outcome.rcv) t)
        (Posix.pumpLoop outs p) := by
  induction outs with
  | nil =>
      intro t p h hot hposix
      have hstatus : t.status = p.status := by rw [hot, hposix]
      rw [List.map_nil, recvLoop, Posix.pumpLoop, ← h.data]
      by_cases hfull : cqTxStreamHiwat ≤ t.data.length
      · rw [if_pos ⟨h.streaming, hfull⟩, if_pos hfull]
        exact ⟨h, forked_none hstatus, Nat.le_refl _, List.drop_nil⟩
      · rw [if_neg (fun hboth => hfull hboth.2), if_neg hfull]
        refine ⟨h.call _, forked_none hstatus, ?_, List.drop_nil⟩
        rw [reads_rcv]
        exact Nat.le_succ _
  | cons o outs ih =>
      intro t p h hot hposix
      have hstatus : t.status = p.status := by rw [hot, hposix]
      rw [List.map_cons]
      unfold recvLoop Posix.pumpLoop heldAtFailure
      simp only [h.streaming, true_and]
      rw [← h.data]
      by_cases hfull : cqTxStreamHiwat ≤ t.data.length
      · rw [if_pos hfull, if_pos hfull, if_pos hfull]
        refine ⟨h, forked_none hstatus, Nat.le_refl _, ?_⟩
        rw [Nat.sub_self]
        rfl
      · rw [if_neg hfull, if_neg hfull, if_neg hfull]
        have hrefl : ∀ chunk, SameSide (t.call (.rcv chunk)) (t.call (.rcv chunk)) := fun _ =>
          ⟨rfl, rfl, rfl, rfl, rfl, rfl⟩
        cases o with
        | nothing => exact polled_last (hrefl []) (h.call _) (forked_none hstatus)
        | close => exact polled_close h
        | reset =>
            obtain ⟨hsame, hjudged⟩ := sameSide_readFailed
              (((t.call (.rcv [])).call .look).call .rcvDisconnect) false
            exact polled_failure h
              (((sameSide_call rfl (t.call (.rcv []))).trans (sameSide_call rfl _)).trans hsame) hjudged
        | error =>
            obtain ⟨hsame, hjudged⟩ := sameSide_readFailed (t.call (.rcv [])) true
            exact polled_failure h hsame hjudged
        | chunk c grows =>
            dsimp only [Outcome.rcv]
            rcases append_chunk h c grows with ⟨hots, hposixs, hheld⟩ | ⟨cap, hots, hposixs, hheld⟩
            · -- no memory: both fail, and the chunk is lost
              rw [hots, hposixs, hheld]
              exact polled_noMemory h c.bytes
            · rw [hots, hposixs, hheld fun cap => heldAtFailure outs (t.data.length + c.bytes.length) cap]
              have hnext := ih (h.taken c cap) hot hposix
              rw [List.length_append] at hnext
              exact hnext.behind (reads_rcv t c.bytes)

/-! ## Runs -/

/-- The two sides are level, with the same status. -/
structure Alike (x : Side CqTransport) (y : Side PosixTransport) : Prop where
  level : Level x.tx y.tx
  status : x.tx.status = y.tx.status
  unread : x.unread = y.unread

/-- One is done, the other has failed. -/
def Parted (x : Side CqTransport) (y : Side PosixTransport) : Prop :=
  x.tx.status = .done ∧ y.tx.status = .failed

/-- The polls that leave everything as it is. -/
theorem otStep_of_over {x : Side CqTransport} (h : x.tx.status ≠ .running) (env : OtEnv)
    (connected : Connected) : otStep x (.poll env connected) = some x := by
  rw [otStep, cqTxPoll, if_pos (Or.inr h), Nat.sub_self]
  rfl

theorem posixStep_of_over {y : Side PosixTransport} (h : y.tx.status ≠ .running) (env : OtEnv)
    (connected : Connected) : posixStep y (.poll env connected) = some y := by
  rw [posixStep, Posix.cqTxPoll, if_neg (fun hboth : y.tx.started = true ∧ _ => h hboth.2)]
  split <;> rfl

/-- A poll of a stream that is being received is its loop, whatever the clock says. -/
theorem cqTxPoll_of_level {env : OtEnv} {t : CqTransport} {p p' : PosixTransport} (h : Level t p)
    (hrunning : t.status = .running) (hnext : Level (recvLoop env.rcv t) p') :
    cqTxPoll env t = recvLoop env.rcv t := by
  have hgo : ¬ (t.cancelled = true ∨ t.status ≠ .running) := by
    rintro (hcancelled | hover)
    · exact Bool.false_ne_true (h.otCancelled.symm.trans hcancelled)
    · exact hover hrunning
  rw [cqTxPoll, if_neg hgo, slice, h.receiving hrunning]
  show checkDeadlines env.tick (recvLoop env.rcv t) = _
  by_cases hstill : (recvLoop env.rcv t).status = .running
  · exact checkDeadlines_of_receiving hnext.streaming (hnext.receiving hstill)
  · exact if_neg hstill

theorem posixPoll_of_level {connected : Connected} {outs : List Outcome} {t : CqTransport}
    {p : PosixTransport} (h : Level t p) (hrunning : p.status = .running) :
    Posix.cqTxPoll connected outs p = Posix.pumpLoop outs p := by
  obtain ⟨fd, hfd⟩ := Option.isSome_iff_exists.1 (h.open' hrunning)
  rw [Posix.cqTxPoll, if_neg (by rw [h.cancelled]; exact Bool.false_ne_true), if_pos ⟨h.started, hrunning⟩]
  simp only [Posix.pumpStream, hfd]

/-- **Every operation** keeps the two sides level, unless a poll comes to a read that fails while something
is buffered: that parts them. -/
theorem Alike.step {x : Side CqTransport} {y : Side PosixTransport} (h : Alike x y) (op : StreamOp) :
    ∃ x' y', otStep x op = some x' ∧ posixStep y op = some y' ∧
      ((FindsNothing x op ∧ Alike x' y') ∨ (¬ FindsNothing x op ∧ Parted x' y')) := by
  obtain ⟨hlevel, hstatus, hunread⟩ := h
  cases op with
  | drain cap =>
      refine ⟨_, _, rfl, rfl, Or.inl ⟨trivial, ?_, hstatus, hunread⟩⟩
      refine ⟨?_, hlevel.cap, ?_, hlevel.streaming, hlevel.otCancelled, hlevel.started, hlevel.cancelled,
        hlevel.receiving, hlevel.open'⟩
      · exact congrArg (List.drop cap) hlevel.data
      · show x.tx.drained ++ x.tx.data.take cap = y.tx.drained ++ y.tx.data.take cap
        rw [hlevel.drained, hlevel.data]
  | poll env connected =>
      by_cases hrunning : x.tx.status = .running
      · have hposix : y.tx.status = .running := hstatus ▸ hrunning
        obtain ⟨hpolled, hforked, -, hleft⟩ :=
          @loops_level x.unread x.tx y.tx hlevel hrunning hposix
        have hot : cqTxPoll { env with rcv := x.unread.map Outcome.rcv } x.tx =
            recvLoop (x.unread.map Outcome.rcv) x.tx := cqTxPoll_of_level hlevel hrunning hpolled
        have hps : Posix.cqTxPoll connected y.unread y.tx = Posix.pumpLoop x.unread y.tx := by
          rw [posixPoll_of_level hlevel hposix, hunread]
        refine ⟨_, _, rfl, rfl, ?_⟩
        rw [hot, hps]
        rcases hforked with ⟨⟨n, hn⟩, hdone, hfailed⟩ | ⟨hnothing, hsame⟩
        · right
          exact ⟨fun hfinds => absurd (hfinds hrunning _ hn) (Nat.succ_ne_zero n), hdone, hfailed⟩
        · left
          exact ⟨fun _ => hnothing, hpolled, hsame, hleft⟩
      · refine ⟨x, y, otStep_of_over hrunning env connected,
          posixStep_of_over (fun hy => hrunning (hstatus.trans hy)) env connected, Or.inl ⟨?_, ?_⟩⟩
        · intro hrun
          exact absurd hrun hrunning
        · exact ⟨hlevel, hstatus, hunread⟩

/-- Once parted, they stay so. -/
theorem Parted.step {x : Side CqTransport} {y : Side PosixTransport} (h : Parted x y) (op : StreamOp) :
    ∃ x' y', otStep x op = some x' ∧ posixStep y op = some y' ∧ Parted x' y' := by
  obtain ⟨hdone, hfailed⟩ := h
  cases op with
  | drain cap => exact ⟨_, _, rfl, rfl, hdone, hfailed⟩
  | poll env connected =>
      refine ⟨x, y, otStep_of_over ?_ env connected, posixStep_of_over ?_ env connected, hdone, hfailed⟩
      · rw [hdone]
        exact CqTxStatus.noConfusion
      · rw [hfailed]
        exact CqTxStatus.noConfusion

theorem Parted.run {ops : List StreamOp} :
    ∀ {x : Side CqTransport} {y : Side PosixTransport}, Parted x y →
      ∃ x' y', run otStep x ops = some x' ∧ run posixStep y ops = some y' ∧ Parted x' y' := by
  induction ops with
  | nil =>
      intro x y h
      exact ⟨x, y, rfl, rfl, h⟩
  | cons op ops ih =>
      intro x y h
      obtain ⟨x', y', hx, hy, hparted⟩ := h.step op
      rw [run_cons, run_cons, hx, hy]
      exact ih hparted

/-- **Every run** keeps the two sides level if no read fails while something is buffered, and parts them if
one does. -/
theorem Alike.run {ops : List StreamOp} :
    ∀ {x : Side CqTransport} {y : Side PosixTransport}, Alike x y →
      ∃ x' y', run otStep x ops = some x' ∧ run posixStep y ops = some y' ∧
        ((Meets otStep FindsNothing x ops ∧ Alike x' y') ∨
          (¬ Meets otStep FindsNothing x ops ∧ Parted x' y')) := by
  induction ops with
  | nil =>
      intro x y h
      exact ⟨x, y, rfl, rfl, Or.inl ⟨trivial, h⟩⟩
  | cons op ops ih =>
      intro x y h
      obtain ⟨x', y', hx, hy, hcase⟩ := h.step op
      rw [run_cons, run_cons, hx, hy]
      rcases hcase with ⟨hfinds, halike⟩ | ⟨hbad, hparted⟩
      · obtain ⟨x'', y'', hx'', hy'', hrest⟩ := ih halike
        refine ⟨x'', y'', hx'', hy'', ?_⟩
        have hmeets : Meets otStep FindsNothing x (op :: ops) ↔ Meets otStep FindsNothing x' ops := by
          refine ⟨fun hall => hall.2 x' hx, fun hall => ⟨hfinds, ?_⟩⟩
          intro u hu
          cases hx.symm.trans hu
          exact hall
        rw [hmeets]
        exact hrest
      · obtain ⟨x'', y'', hx'', hy'', hparted'⟩ := hparted.run
        exact ⟨x'', y'', hx'', hy'', Or.inr ⟨fun hall => hbad hall.1, hparted'⟩⟩

/-! ## After a reset -/

/-- What the POSIX side has read: no failure while it runs, and a close last when it is done. -/
def Told (outs : List Outcome) (y : Side PosixTransport) : Prop :=
  ∃ seen, outs = seen ++ y.unread ∧
    (y.tx.status = .running → ∀ o ∈ seen, Outcome.fails o = false) ∧
      (y.tx.status = .done → ∃ front, seen = front ++ [.close])

/-- Nothing has been read by a stream that runs. -/
theorem told_nil {p : PosixTransport} (h : p.status = .running) (outs : List Outcome) :
    Told outs ⟨p, outs⟩ :=
  ⟨[], rfl, fun _ _ ho => absurd ho List.not_mem_nil,
    fun hdone => CqTxStatus.noConfusion (h.symm.trans hdone)⟩

/-- Whatever has been read, the stream has failed. -/
theorem told_failed {p : PosixTransport} (h : p.status = .failed) (seen rest : List Outcome) :
    Told (seen ++ rest) ⟨p, rest⟩ :=
  ⟨seen, rfl, fun hrun => CqTxStatus.noConfusion (h.symm.trans hrun),
    fun hdone => CqTxStatus.noConfusion (h.symm.trans hdone)⟩

/-- What is read goes on from what was read without a failure. -/
theorem told_append {seen rest : List Outcome} {y : Side PosixTransport}
    (hseen : ∀ o ∈ seen, Outcome.fails o = false) (h : Told rest y) : Told (seen ++ rest) y := by
  obtain ⟨seen', hrest, hquiet, hclosed⟩ := h
  refine ⟨seen ++ seen', ?_, ?_, ?_⟩
  · rw [hrest, List.append_assoc]
  · intro hrun o ho
    rcases List.mem_append.1 ho with ho | ho
    · exact hseen o ho
    · exact hquiet hrun o ho
  · intro hdone
    obtain ⟨front, hfront⟩ := hclosed hdone
    exact ⟨seen ++ front, by rw [hfront, List.append_assoc]⟩

theorem told_cons {o : Outcome} {rest : List Outcome} {y : Side PosixTransport}
    (ho : Outcome.fails o = false) (h : Told rest y) : Told (o :: rest) y := by
  apply @told_append [o] rest y _ h
  intro o' ho'
  rw [List.mem_singleton.1 ho']
  exact ho

theorem status_append {p p' : PosixTransport} {c : Bytes} {grows : Bool}
    (h : Posix.append p c grows = some p') : p'.status = p.status := by
  rw [Posix.append] at h
  split at h
  · split at h
    · cases h
      rfl
    · cases h
  · cases h
    rfl

/-- A loop that is told something ends accordingly. -/
theorem told_pumpLoop {outs : List Outcome} :
    ∀ {p : PosixTransport}, p.status = .running →
      Told outs ⟨(Posix.pumpLoop outs p).1, (Posix.pumpLoop outs p).2⟩ := by
  induction outs with
  | nil =>
      intro p hrunning
      have hloop : Posix.pumpLoop [] p = (p, []) := by
        rw [Posix.pumpLoop]
        split <;> rfl
      rw [hloop]
      exact told_nil hrunning []
  | cons o outs ih =>
      intro p hrunning
      unfold Posix.pumpLoop
      split
      · exact told_nil hrunning (o :: outs)
      · cases o with
        | nothing => exact told_cons rfl (told_nil hrunning outs)
        | close => exact ⟨[.close], rfl, fun h => CqTxStatus.noConfusion h, fun _ => ⟨[], rfl⟩⟩
        | reset => exact told_failed rfl [.reset] outs
        | error => exact told_failed rfl [.error] outs
        | chunk c grows =>
            cases happend : Posix.append p c.bytes grows with
            | none =>
                simp only [happend]
                exact told_failed rfl [.chunk c grows] outs
            | some p' =>
                simp only [happend]
                exact told_cons rfl (ih ((status_append happend).trans hrunning))

/-- A loop goes on from what was read before it. -/
theorem Told.loop {outs : List Outcome} {y : Side PosixTransport} (h : Told outs y)
    (hrunning : y.tx.status = .running) {p : PosixTransport} (hp : p.status = .running) :
    Told outs ⟨(Posix.pumpLoop y.unread p).1, (Posix.pumpLoop y.unread p).2⟩ := by
  obtain ⟨seen, hseen, hquiet, -⟩ := h
  rw [hseen]
  exact told_append (hquiet hrunning) (told_pumpLoop hp)

theorem Told.step {outs : List Outcome} {y y' : Side PosixTransport} {op : StreamOp} (h : Told outs y)
    (hstep : posixStep y op = some y') : Told outs y' := by
  cases op with
  | drain cap =>
      cases hstep
      exact h
  | poll env connected =>
      rw [posixStep, Posix.cqTxPoll, Option.some.injEq] at hstep
      subst hstep
      split
      · exact h
      · split
        · next hgo =>
          cases hfd : y.tx.fd with
          | some fd =>
              simp only [Posix.pumpStream, hfd]
              exact h.loop hgo.2 hgo.2
          | none =>
              cases connected with
              | ok fd =>
                  simp only [Posix.pumpStream, hfd]
                  exact h.loop hgo.2 hgo.2
              | error e =>
                  simp only [Posix.pumpStream, hfd]
                  obtain ⟨seen, hseen, -⟩ := h
                  rw [hseen]
                  exact told_failed rfl seen y.unread
        · exact h

/-- A POSIX stream whose last read was a reset or an error has failed. -/
theorem Told.failed {outs : List Outcome} {y : Side PosixTransport} (h : Told outs y)
    (hread : ReadFailure outs y) : y.tx.status = .failed := by
  obtain ⟨seen, hseen, hquiet, hclosed⟩ := h
  obtain ⟨front, last, hfails, houts⟩ := hread
  have hlast : seen = front ++ [last] := by
    have hboth : seen ++ y.unread = front ++ [last] ++ y.unread := by
      rw [← hseen, houts, List.append_assoc, List.singleton_append]
    exact List.append_cancel_right hboth
  cases hstatus : y.tx.status with
  | failed => rfl
  | running =>
      have hmem : last ∈ seen := by
        rw [hlast]
        exact List.mem_append_right _ (List.mem_singleton_self last)
      have hfine := hquiet hstatus last hmem
      exact absurd (hfine.symm.trans hfails) Bool.false_ne_true
  | done =>
      obtain ⟨front', hfront'⟩ := hclosed hstatus
      have hclose : last = .close := by
        have htails := List.append_inj_right' (hlast.symm.trans hfront') rfl
        exact List.singleton_inj.1 htails
      rw [hclose] at hfails
      exact absurd hfails Bool.false_ne_true

/-! ## The law -/

/-- Two runs whose last read was a reset or an error are in the same status. -/
def SameAfterReset {T : Type} (status : T → CqTxStatus) (outs : List Outcome) (x x' : Side T) : Prop :=
  ReadFailure outs x → ReadFailure outs x' → status x.tx = status x'.tx

/-- The two transports agree on the outcomes under both schedules, and each has the same status after a reset
under both. -/
def StreamLaw (t : OtSent) (p : PosixSent) (outs : List Outcome) (ops ops' : List StreamOp) : Prop :=
  ∃ x y x' y', run otStep ⟨t.tx, outs⟩ ops = some x ∧ run posixStep ⟨p.tx, outs⟩ ops = some y ∧
    run otStep ⟨t.tx, outs⟩ ops' = some x' ∧ run posixStep ⟨p.tx, outs⟩ ops' = some y' ∧
      Agree x y ∧ Agree x' y' ∧ SameAfterReset CqTransport.status outs x x' ∧
        SameAfterReset PosixTransport.status outs y y'

theorem alike_sent (t : OtSent) (p : PosixSent) (outs : List Outcome) :
    Alike ⟨t.tx, outs⟩ ⟨p.tx, outs⟩ := by
  refine ⟨⟨?_, ?_, ?_, t.streaming, t.cancelled, p.started, p.cancelled, fun _ => t.st, fun _ => p.fd⟩, ?_, rfl⟩
  · exact t.data.trans p.data.symm
  · exact t.cap.trans p.cap.symm
  · exact t.drained.trans p.drained.symm
  · exact t.status.trans p.status.symm

theorem told_sent (p : PosixSent) (outs : List Outcome) : Told outs ⟨p.tx, outs⟩ :=
  told_nil p.status outs

theorem Alike.agree {x : Side CqTransport} {y : Side PosixTransport} (h : Alike x y) : Agree x y :=
  ⟨h.status, h.level.drained, h.level.data⟩

theorem Parted.not_agree {x : Side CqTransport} {y : Side PosixTransport} (h : Parted x y) :
    ¬ Agree x y := by
  rintro ⟨hstatus, -⟩
  rw [h.1, h.2] at hstatus
  cases hstatus

/-- Under one schedule: the sides agree exactly if no read fails while something is buffered. -/
theorem agree_iff {t : OtSent} {p : PosixSent} {outs : List Outcome} {ops : List StreamOp} :
    ∃ x y, run otStep ⟨t.tx, outs⟩ ops = some x ∧ run posixStep ⟨p.tx, outs⟩ ops = some y ∧
      Told outs y ∧ (Agree x y ↔ Meets otStep FindsNothing ⟨t.tx, outs⟩ ops) ∧
        (Agree x y → x.unread = y.unread) := by
  obtain ⟨x, y, hx, hy, hcase⟩ := @Alike.run ops _ _ (alike_sent t p outs)
  have htold : Told outs y :=
    run_invariant (Told outs) (fun _ _ _ h hstep => h.step hstep) (told_sent p outs) hy
  refine ⟨x, y, hx, hy, htold, ?_⟩
  rcases hcase with ⟨hmeets, halike⟩ | ⟨hbad, hparted⟩
  · exact ⟨iff_of_true halike.agree hmeets, fun _ => halike.unread⟩
  · exact ⟨iff_of_false hparted.not_agree hbad, fun hagree => absurd hagree hparted.not_agree⟩

/-- **The two streaming transports agree**, and the status after a reset does not depend on what was drained
before it, exactly if under neither schedule a read fails while something is buffered. -/
theorem streams_agree_iff (t : OtSent) (p : PosixSent) (outs : List Outcome)
    (ops ops' : List StreamOp) :
    StreamLaw t p outs ops ops' ↔
      Meets otStep FindsNothing ⟨t.tx, outs⟩ ops ∧ Meets otStep FindsNothing ⟨t.tx, outs⟩ ops' := by
  obtain ⟨x, y, hx, hy, htold, hiff, hunread⟩ := @agree_iff t p outs ops
  obtain ⟨x', y', hx', hy', htold', hiff', hunread'⟩ := @agree_iff t p outs ops'
  rw [← hiff, ← hiff']
  constructor
  · rintro ⟨u, v, u', v', hu, hv, hu', hv', hagree, hagree', -, -⟩
    cases hx.symm.trans hu
    cases hy.symm.trans hv
    cases hx'.symm.trans hu'
    cases hy'.symm.trans hv'
    exact ⟨hagree, hagree'⟩
  · rintro ⟨hagree, hagree'⟩
    refine ⟨x, y, x', y', hx, hy, hx', hy', hagree, hagree', ?_, ?_⟩
    · -- both sides have read the same, and POSIX has failed
      intro hread hread'
      rw [hagree.1, hagree'.1]
      rw [ReadFailure, hunread hagree] at hread
      rw [ReadFailure, hunread' hagree'] at hread'
      rw [htold.failed hread, htold'.failed hread']
    · intro hread hread'
      rw [htold.failed hread, htold'.failed hread']

/-! ## A reset behind a chunk -/

/-- Connected, with the request sent. -/
def otMount : OtSent where
  tx := [TxOp.poll promptEnv, .poll promptEnv].foldl txPerform (cqTxNew (.lit "mount") 8000 none true)
  status := by decide
  st := by decide
  streaming := by decide
  cancelled := by decide
  data := by decide
  cap := by decide
  drained := by decide

/-- The same over POSIX. -/
def posixMount : PosixSent where
  tx := { Posix.cqTxStart (Posix.cqTxStreamNew (.lit "mount") 8000 none) with fd := some 3 }
  status := rfl
  started := rfl
  cancelled := rfl
  fd := rfl
  data := rfl
  cap := rfl
  drained := rfl

/-- A byte, and then a reset. -/
def byteThenReset : List Outcome := [.chunk ⟨[73], by decide, by decide⟩ true, .nothing, .reset]

/-- Two polls, with nothing drained between them. -/
def undrained : List StreamOp := [.poll promptEnv (.ok 3), .poll promptEnv (.ok 3)]

/-- **A reset behind a byte that nobody has drained** leaves Open Transport done and POSIX failed. -/
theorem reset_taken_for_close :
    ¬ ∀ (t : OtSent) (p : PosixSent) (outs : List Outcome) (ops ops' : List StreamOp),
      StreamLaw t p outs ops ops' := by
  intro h
  obtain ⟨x, y, -, -, hx, hy, -, -, hagree, -⟩ := h otMount posixMount byteThenReset undrained []
  have hdone : (run otStep ⟨otMount.tx, byteThenReset⟩ undrained).map (fun x => x.tx.status) =
      some .done := by decide
  have hfailed : (run posixStep ⟨posixMount.tx, byteThenReset⟩ undrained).map (fun y => y.tx.status) =
      some .failed := by decide
  rw [hx] at hdone
  rw [hy] at hfailed
  exact CqTxStatus.noConfusion
    ((Option.some.inj hdone).symm.trans (hagree.1.trans (Option.some.inj hfailed)))

end Casquinha.Transport
