import Casquinha.Lib.Reservoir
import Casquinha.Transport.Lifecycle
import Casquinha.Transport.Posix

/-!
# The receive buffer of a stream

Both transports read a stream into a buffer that the caller drains. They stop reading at the high-water mark
`CQ_TX_STREAM_HIWAT`, grow the buffer by doubling and shift what a drain leaves to its front. Either buffer is a
reservoir: whatever is done with the transaction is a series of guarded reads or a draw (`step_txPerform`,
`Posix.step_perform`), as long as there is memory. So its length and its bytes keep the reservoir's invariant
on every run, in every status (`stream_buffer_bounded`).
-/

set_option autoImplicit false

namespace Casquinha.Transport

open Lib App CqTransport

/-! ## Capacity -/

/-- Doubling reaches every size. -/
theorem le_growCap {need : Nat} :
    ∀ (fuel ncap : Nat), need ≤ ncap * 2 ^ fuel → need ≤ growCap need fuel ncap := by
  intro fuel
  induction fuel with
  | zero =>
      intro ncap h
      rw [Nat.pow_zero, Nat.mul_one] at h
      exact h
  | succ fuel ih =>
      intro ncap h
      rw [growCap]
      split
      · apply ih
        rw [Nat.mul_assoc, ← Nat.pow_succ']
        exact h
      · next hge => exact Nat.le_of_not_lt hge

/-- A buffer that has to grow is large enough then. -/
theorem le_growCap_self (need cap : Nat) :
    need ≤ growCap need need (if cap = 0 then cqTxReadChunk else cap) := by
  have hpos : 1 ≤ if cap = 0 then cqTxReadChunk else cap := by
    split
    · decide
    · next hcap => exact Nat.pos_of_ne_zero hcap
  apply le_growCap
  calc need ≤ 2 ^ need := Nat.le_of_lt Nat.lt_two_pow_self
    _ = 1 * 2 ^ need := (Nat.one_mul _).symm
    _ ≤ _ := Nat.mul_le_mul_right _ hpos

/-! ## Open Transport -/

/-- The chunks that `OTRcv` has delivered, empty where it had nothing. -/
def rcvChunks (calls : List OtCall) : List Bytes :=
  calls.filterMap fun
    | .used _ (.rcv chunk) => some chunk
    | _ => none

/-- The receive buffer. -/
def intake (t : CqTransport) : Reservoir UInt8 := ⟨t.data, t.cap, t.drained, rcvChunks t.calls⟩

/-- From `t` to `u` nothing is read, and the buffer stays as it is. -/
def Idle (t u : CqTransport) : Prop := intake u = intake t ∧ u.streaming = t.streaming

theorem Idle.trans {t u v : CqTransport} (h : Idle t u) (h' : Idle u v) : Idle t v :=
  ⟨h'.1.trans h.1, h'.2.trans h.2⟩

/-- The call is no read. -/
def OtOp.isNoRead : OtOp → Bool
  | .rcv _ => false
  | _ => true

theorem idle_call (t : CqTransport) (op : OtOp) (h : op.isNoRead = true) : Idle t (t.call op) := by
  have hnone : rcvChunks [.used t.ep op] = [] := by
    cases op <;> first | rfl | cases h
  have hsame : rcvChunks (t.call op).calls = rcvChunks t.calls := by
    rw [rcvChunks] at hnone
    rw [call, rcvChunks, List.filterMap_append, hnone, List.append_nil]
    rfl
  exact ⟨congrArg (Reservoir.mk t.data t.cap t.drained) hsame, rfl⟩

theorem idle_teardown (t : CqTransport) : Idle t t.teardown := by
  have hsame : rcvChunks t.teardown.calls = rcvChunks t.calls := by
    rw [teardown, rcvChunks, List.filterMap_append]
    exact List.append_nil _
  exact ⟨congrArg (Reservoir.mk t.data t.cap t.drained) hsame, rfl⟩

theorem idle_fail (t : CqTransport) (e : CqTxError) (what : String) : Idle t (t.fail e what) := by
  have hstate : Idle t { t with
      status := .failed
      st := .failed
      error := e
      message := t.failText what } := ⟨rfl, rfl⟩
  rw [fail]
  dsimp only
  split
  · exact hstate.trans ((idle_call _ _ rfl).trans (idle_teardown _))
  · exact hstate

theorem idle_finish (t : CqTransport) : Idle t t.finish := (idle_teardown t).trans ⟨rfl, rfl⟩

theorem idle_readFailed (t : CqTransport) (release : Bool) : Idle t (t.readFailed release) := by
  rw [readFailed]
  split
  · cases release with
    | false => exact idle_finish t
    | true => exact (idle_call t _ rfl).trans (idle_finish _)
  · exact idle_fail t _ _

theorem idle_connectEndpoint (env : OtEnv) (t : CqTransport) : Idle t (connectEndpoint env t) := by
  have hcall : Idle t (t.call .connect) := idle_call t _ rfl
  simp only [connectEndpoint]
  split <;> split
  · exact hcall.trans ⟨rfl, rfl⟩
  · exact hcall.trans ⟨rfl, rfl⟩
  · exact hcall.trans (idle_fail _ _ _)
  · exact hcall.trans ⟨rfl, rfl⟩
  · exact hcall.trans ⟨rfl, rfl⟩
  · exact hcall.trans (idle_fail _ _ _)

theorem idle_armNotifier (env : OtEnv) (t : CqTransport) : Idle t (armNotifier env t) := by
  have hclear : Idle t { t with connEvent := none } := ⟨rfl, rfl⟩
  simp only [armNotifier]
  split
  · have hinstalled := hclear.trans (idle_call _ .installNotifier rfl)
    split
    · exact (hinstalled.trans (idle_call _ .setAsynchronous rfl)).trans ⟨rfl, rfl⟩
    · exact hinstalled
  · exact hclear

theorem idle_openAndConnect (env : OtEnv) (t : CqTransport) : Idle t (openAndConnect env t) := by
  rw [openAndConnect]
  split
  · exact idle_fail t _ _
  · split
    · exact Idle.trans ⟨rfl, rfl⟩ (idle_fail { t with ep := none } _ _)
    · next ep _ =>
      have hopened : Idle t { t with
          ep := some ep
          calls := t.calls ++ [OtCall.opened ep] } := by
        refine ⟨congrArg (Reservoir.mk t.data t.cap t.drained) ?_, rfl⟩
        rw [rcvChunks, List.filterMap_append]
        exact List.append_nil _
      have hbound := (((hopened.trans (idle_call _ .setSynchronous rfl)).trans
        (idle_call _ .setNonBlocking rfl)).trans (idle_call _ .useSyncIdleEvents rfl)).trans
        (idle_call _ .bind rfl)
      dsimp only
      split
      · exact hbound.trans (idle_fail _ _ _)
      · split
        · exact hbound.trans (idle_fail _ _ _)
        · exact (hbound.trans (idle_armNotifier env _)).trans (idle_connectEndpoint env _)

theorem idle_pumpConnect (env : OtEnv) (t : CqTransport) : Idle t (pumpConnect env t) := by
  have hlook : Idle t (t.call .look) := idle_call t _ rfl
  rw [pumpConnect]
  dsimp only
  split
  · have hrcv := hlook.trans (idle_call _ .rcvConnect rfl)
    split
    · split
      · exact (hrcv.trans (idle_call _ .setSynchronous rfl)).trans ⟨rfl, rfl⟩
      · exact hrcv.trans ⟨rfl, rfl⟩
    · exact hrcv.trans (idle_fail _ _ _)
  · exact (hlook.trans (idle_call _ .rcvDisconnect rfl)).trans (idle_fail _ _ _)
  · exact hlook
  · exact hlook

theorem idle_sendLoop (req : Bytes) (results : List SndResult) (t : CqTransport) :
    Idle t (sendLoop req results t) := by
  induction results generalizing t with
  | nil =>
      rw [sendLoop]
      split
      · exact idle_call t _ rfl
      · exact ⟨rfl, rfl⟩
  | cons result results ih =>
      unfold sendLoop
      split
      · cases result with
        | flow => exact idle_call t _ rfl
        | error => exact (idle_call t (.snd []) rfl).trans (idle_fail _ _ _)
        | accepted n =>
            have hsent := idle_call t (.snd ((req.drop t.reqoff).take n)) rfl
            exact (hsent.trans ⟨rfl, rfl⟩).trans (ih _)
      · exact ⟨rfl, rfl⟩

theorem idle_pumpSend (env : OtEnv) (t : CqTransport) : Idle t (pumpSend env t) := by
  rw [pumpSend]
  split
  · exact idle_sendLoop _ _ _
  · split
    · exact Idle.trans ⟨rfl, rfl⟩ (idle_sendLoop _ _ _)
    · exact idle_fail t _ _

theorem idle_checkDeadlines (now : BitVec 32) (t : CqTransport) : Idle t (checkDeadlines now t) := by
  rw [checkDeadlines]
  split
  · split
    · exact idle_fail t _ _
    · split
      · exact idle_fail t _ _
      · exact ⟨rfl, rfl⟩
  · exact ⟨rfl, rfl⟩

/-- There is memory for what is read. -/
def RcvResult.grows : RcvResult → Bool
  | .chunk _ grows => grows
  | .noData | .look _ | .error => true

/-- The allocations of an operation succeed. -/
def TxOp.Allocates : TxOp → Prop
  | .poll env => ∀ r ∈ env.rcv, r.grows = true
  | .start _ | .drain _ | .cancel | .notify _ => True

/-- From `t` to `u` there is a series of reads. -/
def Pours (t u : CqTransport) : Prop :=
  (∃ more, Reservoir.Fills cqTxStreamHiwat cqTxReadChunk (intake t) more (intake u)) ∧
    u.streaming = t.streaming

theorem Idle.pours {t u : CqTransport} (h : Idle t u) : Pours t u := by
  refine ⟨⟨[], ?_⟩, h.2⟩
  rw [h.1]
  exact .stop _

/-- A read that finds nothing, and what is made of it. -/
theorem pours_nothing {t u : CqTransport} (below : t.data.length < cqTxStreamHiwat)
    (h : Idle (t.call (.rcv [])) u) : Pours t u := by
  have hread : (intake t).fill [] t.cap = intake (t.call (.rcv [])) := by
    simp [Reservoir.fill, intake, call, rcvChunks]
  refine ⟨⟨[[]], .nothing below ?_⟩, h.2⟩
  show Reservoir.Fills _ _ ((intake t).fill [] t.cap) [] (intake u)
  rw [hread, h.1]
  exact .stop _

/-- With memory a chunk is appended, in a capacity that is enough. -/
theorem append_room (t : CqTransport) (buf : Bytes) :
    ∃ cap, t.data.length + buf.length ≤ cap ∧
      t.append buf true = some
        { t with
          data := t.data ++ buf
          cap := cap } := by
  simp only [CqTransport.append]
  by_cases hcap : t.cap < t.data.length + buf.length
  · rw [if_pos hcap]
    exact ⟨_, le_growCap_self _ t.cap, rfl⟩
  · rw [if_neg hcap]
    exact ⟨t.cap, Nat.le_of_not_lt hcap, rfl⟩

/-- **The loop of `pump_recv`** is a series of reads, each made below the high-water mark. -/
theorem pours_recvLoop (results : List RcvResult) {t : CqTransport} (hstream : t.streaming = true)
    (hgrows : ∀ r ∈ results, r.grows = true) : Pours t (recvLoop results t) := by
  induction results generalizing t with
  | nil =>
      rw [recvLoop]
      split
      · exact Idle.pours ⟨rfl, rfl⟩
      · next hopen =>
        have below : t.data.length < cqTxStreamHiwat := Nat.lt_of_not_le fun hfull => hopen ⟨hstream, hfull⟩
        exact pours_nothing below ⟨rfl, rfl⟩
  | cons result results ih =>
      unfold recvLoop
      split
      · exact Idle.pours ⟨rfl, rfl⟩
      · next hopen =>
        have below : t.data.length < cqTxStreamHiwat := Nat.lt_of_not_le fun hfull => hopen ⟨hstream, hfull⟩
        cases result with
        | noData => exact pours_nothing below ⟨rfl, rfl⟩
        | error => exact pours_nothing below (idle_readFailed _ true)
        | chunk c grows =>
            have hmemory : grows = true := hgrows _ List.mem_cons_self
            subst hmemory
            obtain ⟨cap, room, happend⟩ := append_room (t.call (.rcv c.bytes)) c.bytes
            dsimp only
            rw [happend]
            -- the chunk goes behind the buffer, and the loop goes on
            obtain ⟨⟨more, hmore⟩, hsame⟩ := @ih
              { t.call (.rcv c.bytes) with
                data := (t.call (.rcv c.bytes)).data ++ c.bytes
                cap := cap } hstream fun r hr => hgrows r (List.mem_cons_of_mem _ hr)
            have hread : (intake t).fill c.bytes cap = intake
                { t.call (.rcv c.bytes) with
                  data := (t.call (.rcv c.bytes)).data ++ c.bytes
                  cap := cap } := by
              simp [Reservoir.fill, intake, call, rcvChunks]
            rw [← hread] at hmore
            exact ⟨⟨c.bytes :: more, .read below c.fits room hmore⟩, hsame⟩
        | look event =>
            have hlook := idle_call (t.call (.rcv [])) .look rfl
            cases event with
            | connect => exact pours_nothing below hlook
            | other => exact pours_nothing below hlook
            | disconnect =>
                exact pours_nothing below
                  ((hlook.trans (idle_call _ .rcvDisconnect rfl)).trans (idle_readFailed _ false))
            | ordrel =>
                exact pours_nothing below
                  (((hlook.trans (idle_call _ .rcvOrderlyDisconnect rfl)).trans
                    (idle_call _ .sndOrderlyDisconnect rfl)).trans (idle_finish _))

/-- A poll reads in the slice, if it does. -/
theorem pours_cqTxPoll (env : OtEnv) {t : CqTransport} (hstream : t.streaming = true)
    (hgrows : ∀ r ∈ env.rcv, r.grows = true) : Pours t (cqTxPoll env t) := by
  have hslice : Pours t (slice env t) := by
    rw [slice]
    split
    · exact (idle_openAndConnect env t).pours
    · exact (idle_pumpConnect env t).pours
    · exact (idle_pumpSend env t).pours
    · exact pours_recvLoop env.rcv hstream hgrows
    · exact Idle.pours ⟨rfl, rfl⟩
    · exact Idle.pours ⟨rfl, rfl⟩
  rw [cqTxPoll]
  split
  · exact Idle.pours ⟨rfl, rfl⟩
  · obtain ⟨⟨more, hmore⟩, hsame⟩ := hslice
    have hdeadlines := idle_checkDeadlines env.tick (slice env t)
    refine ⟨⟨more, ?_⟩, hdeadlines.2.trans hsame⟩
    rw [hdeadlines.1]
    exact hmore

theorem idle_cqTxCancel (t : CqTransport) : Idle t (cqTxCancel t) := by
  have hmarked : Idle t { t with cancelled := true } := ⟨rfl, rfl⟩
  simp only [cqTxCancel]
  split
  · exact (hmarked.trans (idle_call _ .sndOrderlyDisconnect rfl)).trans (idle_teardown _)
  · exact hmarked

/-- **Every operation** on a stream is a step of its receive buffer. -/
theorem step_txPerform {t : CqTransport} (hstream : t.streaming = true) {op : TxOp} (hop : op.Allocates) :
    Reservoir.Step cqTxStreamHiwat cqTxReadChunk (intake t) (intake (txPerform t op)) ∧
      (txPerform t op).streaming = true := by
  have hpours : ∀ {u : CqTransport}, Pours t u →
      Reservoir.Step cqTxStreamHiwat cqTxReadChunk (intake t) (intake u) ∧ u.streaming = true :=
    fun h => ⟨.fills h.1.choose_spec, h.2.trans hstream⟩
  cases op with
  | start now => exact hpours (Idle.pours ⟨rfl, rfl⟩)
  | poll env => exact hpours (pours_cqTxPoll env hstream hop)
  | drain cap => exact ⟨.draw (intake t) cap, hstream⟩
  | cancel => exact hpours (idle_cqTxCancel t).pours
  | notify code => cases code <;> exact hpours (Idle.pours ⟨rfl, rfl⟩)

/-- Any run of operations keeps the invariant of the buffer. -/
theorem intake_inv (host : CStr) (port : Int) (selector : Option CStr) {ops : List TxOp}
    (hops : ∀ op ∈ ops, op.Allocates) :
    let t := ops.foldl txPerform (cqTxNew host port selector true)
    (intake t).Inv cqTxStreamHiwat cqTxReadChunk ∧ t.streaming = true := by
  have hrun : ∀ {t : CqTransport}, (intake t).Inv cqTxStreamHiwat cqTxReadChunk → t.streaming = true →
      (intake (ops.foldl txPerform t)).Inv cqTxStreamHiwat cqTxReadChunk ∧
        (ops.foldl txPerform t).streaming = true := by
    induction ops with
    | nil => exact fun hinv hstream => ⟨hinv, hstream⟩
    | cons op ops ih =>
        intro t hinv hstream
        obtain ⟨hstep, hstream'⟩ := step_txPerform hstream (hops op List.mem_cons_self)
        exact ih (fun o ho => hops o (List.mem_cons_of_mem op ho)) (hstep.inv hinv) hstream'
  exact hrun (Reservoir.Inv.empty (by decide)) rfl

/-! ## POSIX -/

/-- What a read has delivered. -/
def Outcome.bytes : Outcome → Bytes
  | .chunk c _ => c.bytes
  | .nothing | .close | .reset | .error => []

namespace Posix

/-- What can happen to a stream before it is freed. A poll brings what its connect comes to, should it
connect, and what its reads find. -/
inductive PosixOp where
  | start
  | poll (connected : Connected) (outs : List Outcome)
  | drain (cap : Nat)
  | cancel

/-- A stream, with what each `recv` has delivered. -/
structure Tapped where
  tx : PosixTransport
  reads : List Bytes

/-- A poll of the stream: the outcomes that it does not leave have been read. -/
def Tapped.poll (s : Tapped) (connected : Connected) (outs : List Outcome) : Tapped :=
  let r := cqTxPoll connected outs s.tx
  { tx := r.1
    reads := s.reads ++ (outs.take (outs.length - r.2.length)).map Outcome.bytes }

/-- One operation. -/
def perform (s : Tapped) : PosixOp → Tapped
  | .start => { s with tx := cqTxStart s.tx }
  | .poll connected outs => s.poll connected outs
  | .drain cap => { s with tx := (cqTxDrain s.tx cap).2 }
  | .cancel => { s with tx := cqTxCancel s.tx }

/-- The allocations of an operation succeed. -/
def PosixOp.Allocates : PosixOp → Prop
  | .poll _ outs => ∀ o ∈ outs, o.rcv.grows = true
  | .start | .drain _ | .cancel => True

/-- The receive buffer. -/
def intake (t : PosixTransport) (reads : List Bytes) : Reservoir UInt8 := ⟨t.data, t.cap, t.drained, reads⟩

theorem append_room (t : PosixTransport) (buf : Bytes) :
    ∃ cap, t.data.length + buf.length ≤ cap ∧
      append t buf true = some
        { t with
          data := t.data ++ buf
          cap := cap } := by
  simp only [append]
  by_cases hcap : t.cap < t.data.length + buf.length
  · rw [if_pos hcap]
    exact ⟨_, le_growCap_self _ t.cap, rfl⟩
  · rw [if_neg hcap]
    exact ⟨t.cap, Nat.le_of_not_lt hcap, rfl⟩

/-- What a poll has read of `outs`, from `t` on: a series of reads of the buffer. -/
def ReadFrom (t : PosixTransport) (outs : List Outcome) (r : PosixTransport × List Outcome) : Prop :=
  ∃ seen, outs = seen ++ r.2 ∧ ∀ reads, Reservoir.Fills cqTxStreamHiwat cqTxReadChunk (intake t reads)
    (seen.map Outcome.bytes) (intake r.1 (reads ++ seen.map Outcome.bytes))

/-- Nothing is read. -/
theorem readFrom_none {t u : PosixTransport} (outs : List Outcome)
    (h : ∀ reads, intake u reads = intake t reads) :
    ReadFrom t outs (u, outs) := by
  refine ⟨[], rfl, fun reads => ?_⟩
  rw [List.map_nil, List.append_nil, h]
  exact .stop _

/-- The last read of a poll, which delivers nothing. -/
theorem readFrom_last {t u : PosixTransport} {o : Outcome} (outs : List Outcome)
    (below : t.data.length < cqTxStreamHiwat) (ho : o.bytes = [])
    (h : ∀ reads, intake u reads = intake t reads) : ReadFrom t (o :: outs) (u, outs) := by
  refine ⟨[o], rfl, fun reads => ?_⟩
  rw [List.map_singleton, ho, h]
  refine .nothing below ?_
  have hread : (intake t reads).fill [] t.cap = intake t (reads ++ [[]]) := by
    simp [Reservoir.fill, intake]
  exact hread ▸ .stop _

/-- **The loop of `pump_stream`** is a series of reads, each made below the high-water mark. -/
theorem readFrom_pumpLoop {outs : List Outcome} (hgrows : ∀ o ∈ outs, o.rcv.grows = true) :
    ∀ t : PosixTransport, ReadFrom t outs (pumpLoop outs t) := by
  induction outs with
  | nil =>
      intro t
      rw [pumpLoop]
      split
      · exact readFrom_none [] fun _ => rfl
      · exact readFrom_none [] fun _ => rfl
  | cons o outs ih =>
      intro t
      unfold pumpLoop
      split
      · exact readFrom_none (o :: outs) fun _ => rfl
      · next hopen =>
        have below : t.data.length < cqTxStreamHiwat := Nat.lt_of_not_le hopen
        cases o with
        | nothing => exact readFrom_last outs below rfl fun _ => rfl
        | close => exact readFrom_last outs below rfl fun _ => rfl
        | reset => exact readFrom_last outs below rfl fun _ => rfl
        | error => exact readFrom_last outs below rfl fun _ => rfl
        | chunk c grows =>
            have hmemory : grows = true := hgrows _ List.mem_cons_self
            subst hmemory
            obtain ⟨cap, room, happend⟩ := append_room t c.bytes
            dsimp only
            rw [happend]
            -- the chunk goes behind the buffer, and the loop goes on
            obtain ⟨seen, hseen, hfills⟩ := ih (fun o ho => hgrows o (List.mem_cons_of_mem _ ho))
              { t with
                data := t.data ++ c.bytes
                cap := cap }
            refine ⟨.chunk c true :: seen, congrArg (List.cons _) hseen, fun reads => ?_⟩
            have hnext := hfills (reads ++ [c.bytes])
            rw [List.append_assoc] at hnext
            exact .read below c.fits room hnext

theorem readFrom_cqTxPoll (connected : Connected) {outs : List Outcome}
    (hgrows : ∀ o ∈ outs, o.rcv.grows = true) (t : PosixTransport) :
    ReadFrom t outs (cqTxPoll connected outs t) := by
  rw [cqTxPoll]
  split
  · exact readFrom_none outs fun _ => rfl
  · split
    · unfold pumpStream
      split
      · exact readFrom_pumpLoop hgrows t
      · exact readFrom_pumpLoop hgrows { t with fd := some _ }
      · exact readFrom_none outs fun _ => rfl
    · exact readFrom_none outs fun _ => rfl

/-- **Every operation** on a stream is a step of its receive buffer. -/
theorem step_perform (s : Tapped) {op : PosixOp} (hop : op.Allocates) :
    Reservoir.Step cqTxStreamHiwat cqTxReadChunk (intake s.tx s.reads)
      (intake (perform s op).tx (perform s op).reads) := by
  cases op with
  | start => exact .fills (.stop _)
  | drain cap => exact .draw _ cap
  | cancel => exact .fills (.stop _)
  | poll connected outs =>
      obtain ⟨seen, hseen, hfills⟩ := readFrom_cqTxPoll connected hop s.tx
      have htaken : outs.take (outs.length - (cqTxPoll connected outs s.tx).2.length) = seen := by
        have hlen : outs.length = seen.length + (cqTxPoll connected outs s.tx).2.length := by
          rw [← List.length_append, ← hseen]
        rw [hlen, Nat.add_sub_cancel]
        conv_lhs => rw [hseen]
        exact List.take_left
      have hstep := hfills s.reads
      rw [← htaken] at hstep
      exact .fills hstep

/-- A stream that has just been made. -/
def Tapped.new (host : CStr) (port : Int) (selector : Option CStr) : Tapped :=
  ⟨cqTxStreamNew host port selector, []⟩

/-- Any run of operations keeps the invariant of the buffer. -/
theorem intake_inv (host : CStr) (port : Int) (selector : Option CStr) {ops : List PosixOp}
    (hops : ∀ op ∈ ops, op.Allocates) :
    let s := ops.foldl perform (Tapped.new host port selector)
    (intake s.tx s.reads).Inv cqTxStreamHiwat cqTxReadChunk := by
  have hrun : ∀ {s : Tapped}, (intake s.tx s.reads).Inv cqTxStreamHiwat cqTxReadChunk →
      (intake (ops.foldl perform s).tx (ops.foldl perform s).reads).Inv cqTxStreamHiwat cqTxReadChunk := by
    induction ops with
    | nil => exact fun hinv => hinv
    | cons op ops ih =>
        intro s hinv
        exact ih (fun o ho => hops o (List.mem_cons_of_mem op ho))
          ((step_perform s (hops op List.mem_cons_self)).inv hinv)
  exact hrun (Reservoir.Inv.empty (by decide))

end Posix

/-! ## Both -/

/-- The buffer holds less than the high-water mark and a chunk together, and no more than its capacity; what was
drained and what it holds are the bytes received, in order; and whatever comes next, it reads only while the
buffer holds less than the high-water mark. -/
structure Buffered (t : CqTransport) : Prop where
  bounded : t.data.length < cqTxStreamHiwat + cqTxReadChunk
  fits : t.data.length ≤ t.cap
  kept : t.drained ++ t.data = (rcvChunks t.calls).flatten
  below : ∀ op : TxOp, op.Allocates → ∃ more,
    rcvChunks (txPerform t op).calls = rcvChunks t.calls ++ more ∧
      ReadsBelow cqTxStreamHiwat t.data.length more

/-- The same over POSIX. -/
structure Posix.Buffered (s : Posix.Tapped) : Prop where
  bounded : s.tx.data.length < cqTxStreamHiwat + cqTxReadChunk
  fits : s.tx.data.length ≤ s.tx.cap
  kept : s.tx.drained ++ s.tx.data = s.reads.flatten
  below : ∀ op : Posix.PosixOp, op.Allocates → ∃ more,
    (Posix.perform s op).reads = s.reads ++ more ∧ ReadsBelow cqTxStreamHiwat s.tx.data.length more

/-- **The buffer of a stream is bounded and loses nothing**, over both transports and whatever is done with the
stream, as long as there is memory. -/
theorem stream_buffer_bounded (host : CStr) (port : Int) (selector : Option CStr) (ops : List TxOp)
    (hops : ∀ op ∈ ops, op.Allocates) (posixOps : List Posix.PosixOp)
    (hposix : ∀ op ∈ posixOps, op.Allocates) :
    Buffered (ops.foldl txPerform (cqTxNew host port selector true)) ∧
      Posix.Buffered (posixOps.foldl Posix.perform (Posix.Tapped.new host port selector)) := by
  constructor
  · obtain ⟨hinv, hstream⟩ := intake_inv host port selector hops
    exact ⟨hinv.bounded, hinv.fits, hinv.kept, fun op hop => (step_txPerform hstream hop).1.reads⟩
  · have hinv := Posix.intake_inv host port selector hposix
    exact ⟨hinv.bounded, hinv.fits, hinv.kept, fun op hop => (Posix.step_perform _ hop).reads⟩

/-! ## A full buffer -/

/-- Below the mark a stream takes all that is offered. -/
theorem data_recvLoop (cs : List Chunk) {t : CqTransport} (hstream : t.streaming = true) :
    cqTxStreamHiwat ≤ (recvLoop (cs.map (RcvResult.chunk · true)) t).data.length ∨
      (recvLoop (cs.map (RcvResult.chunk · true)) t).data = t.data ++ (cs.map Chunk.bytes).flatten := by
  induction cs generalizing t with
  | nil =>
      right
      rw [List.map_nil, recvLoop]
      split <;> exact (List.append_nil _).symm
  | cons c cs ih =>
      rw [List.map_cons, recvLoop]
      split
      · next hfull => exact Or.inl hfull.2
      · obtain ⟨cap, -, happend⟩ := append_room (t.call (.rcv c.bytes)) c.bytes
        dsimp only
        rw [happend]
        dsimp only
        rw [List.map_cons, List.flatten_cons, ← List.append_assoc]
        exact @ih
          { t.call (.rcv c.bytes) with
            data := (t.call (.rcv c.bytes)).data ++ c.bytes
            cap := cap } hstream

/-- The same over POSIX. -/
theorem Posix.data_pumpLoop (cs : List Chunk) (t : PosixTransport) :
    cqTxStreamHiwat ≤ (pumpLoop (cs.map (Outcome.chunk · true)) t).1.data.length ∨
      (pumpLoop (cs.map (Outcome.chunk · true)) t).1.data = t.data ++ (cs.map Chunk.bytes).flatten := by
  induction cs generalizing t with
  | nil =>
      right
      rw [List.map_nil, pumpLoop]
      split <;> exact (List.append_nil _).symm
  | cons c cs ih =>
      rw [List.map_cons, pumpLoop]
      split
      · next hfull => exact Or.inl hfull
      · obtain ⟨cap, -, happend⟩ := Posix.append_room t c.bytes
        rw [happend]
        dsimp only
        rw [List.map_cons, List.flatten_cons, ← List.append_assoc]
        exact ih
          { t with
            data := t.data ++ c.bytes
            cap := cap }

/-- Open Transport connects and sends the request, the chunks are offered, and `n` bytes are drained. -/
def fillOps (cs : List Chunk) (n : Nat) : List TxOp :=
  [.poll promptEnv, .poll promptEnv, .poll { promptEnv with rcv := cs.map (RcvResult.chunk · true) }, .drain n]

/-- The same over POSIX. -/
def fillPosixOps (cs : List Chunk) (n : Nat) : List Posix.PosixOp :=
  [.start, .poll (.ok 3) (cs.map (Outcome.chunk · true)), .drain n]

theorem allocates_fillOps (cs : List Chunk) (n : Nat) : ∀ op ∈ fillOps cs n, op.Allocates := by
  simp [fillOps, TxOp.Allocates, promptEnv, RcvResult.grows]

theorem allocates_fillPosixOps (cs : List Chunk) (n : Nat) : ∀ op ∈ fillPosixOps cs n, op.Allocates := by
  simp [fillPosixOps, Posix.PosixOp.Allocates, Outcome.rcv, RcvResult.grows]

/-- Open Transport, with `n` bytes drained of what it has taken of the chunks. -/
def filledOt (cs : List Chunk) (n : Nat) : CqTransport :=
  (fillOps cs n).foldl txPerform (cqTxNew (.lit "mount") 8000 none true)

def filledPosix (cs : List Chunk) (n : Nat) : Posix.Tapped :=
  (fillPosixOps cs n).foldl Posix.perform (Posix.Tapped.new (.lit "mount") 8000 none)

/-- Connected, with the request sent. -/
def openedOt : CqTransport :=
  [TxOp.poll promptEnv, .poll promptEnv].foldl txPerform (cqTxNew (.lit "mount") 8000 none true)

theorem full_filledOt {cs : List Chunk} (h : cqTxStreamHiwat ≤ (cs.map Chunk.bytes).flatten.length) (n : Nat) :
    cqTxStreamHiwat - n ≤ (filledOt cs n).data.length := by
  have hlive : openedOt.cancelled = false ∧ openedOt.status = .running ∧ openedOt.st = .receiving ∧
      openedOt.streaming = true ∧ openedOt.data = [] := by
    decide
  obtain ⟨hcancelled, hstatus, hst, hstream, hdata⟩ := hlive
  have hpoll : cqTxPoll { promptEnv with rcv := cs.map (RcvResult.chunk · true) } openedOt =
      checkDeadlines 0 (recvLoop (cs.map (RcvResult.chunk · true)) openedOt) := by
    rw [cqTxPoll, if_neg (by rw [hcancelled, hstatus]; decide), slice, hst]
    rfl
  have hheld : (filledOt cs n).data =
      (recvLoop (cs.map (RcvResult.chunk · true)) openedOt).data.drop n := by
    show (cqTxPoll { promptEnv with rcv := cs.map (RcvResult.chunk · true) } openedOt).data.drop n = _
    rw [hpoll]
    exact congrArg (List.drop n) (congrArg Reservoir.held (idle_checkDeadlines 0 _).1)
  rw [hheld, List.length_drop]
  apply Nat.sub_le_sub_right
  rcases data_recvLoop cs hstream with hfull | hall
  · exact hfull
  · rw [hall, hdata]
    exact h

theorem full_filledPosix {cs : List Chunk} (h : cqTxStreamHiwat ≤ (cs.map Chunk.bytes).flatten.length)
    (n : Nat) : cqTxStreamHiwat - n ≤ (filledPosix cs n).tx.data.length := by
  show _ ≤ ((Posix.pumpLoop (cs.map (Outcome.chunk · true))
    { Posix.cqTxStart (Posix.cqTxStreamNew (.lit "mount") 8000 none) with fd := some 3 }).1.data.drop n).length
  rw [List.length_drop]
  apply Nat.sub_le_sub_right
  rcases Posix.data_pumpLoop cs
    { Posix.cqTxStart (Posix.cqTxStreamNew (.lit "mount") 8000 none) with fd := some 3 } with hfull | hall
  · exact hfull
  · rw [hall]
    exact h

/-- Full chunks, for more than the mark. -/
def nineChunks : List Chunk := List.replicate 9 fullChunk

theorem length_nineChunks : cqTxStreamHiwat ≤ (nineChunks.map Chunk.bytes).flatten.length := by
  have hlength : fullChunk.bytes.length = cqTxReadChunk := List.length_replicate
  simp only [nineChunks, List.map_replicate, List.length_flatten, hlength]
  decide

/-- Both buffers reach the mark; and once more with 100 bytes drained, and what is left of them shifted. -/
theorem stream_buffer_highWater :
    (cqTxStreamHiwat ≤ (filledOt nineChunks 0).data.length ∧
        cqTxStreamHiwat ≤ (filledPosix nineChunks 0).tx.data.length) ∧
      (Buffered (filledOt nineChunks 0) ∧ Posix.Buffered (filledPosix nineChunks 0)) ∧
      (cqTxStreamHiwat - 100 ≤ (filledOt nineChunks 100).data.length ∧
        cqTxStreamHiwat - 100 ≤ (filledPosix nineChunks 100).tx.data.length) ∧
      Buffered (filledOt nineChunks 100) ∧ Posix.Buffered (filledPosix nineChunks 100) := by
  refine ⟨⟨?_, ?_⟩, ?_, ⟨?_, ?_⟩, ?_⟩
  · exact full_filledOt length_nineChunks 0
  · exact full_filledPosix length_nineChunks 0
  · exact stream_buffer_bounded (.lit "mount") 8000 none (fillOps nineChunks 0) (allocates_fillOps _ _)
      (fillPosixOps nineChunks 0) (allocates_fillPosixOps _ _)
  · exact full_filledOt length_nineChunks 100
  · exact full_filledPosix length_nineChunks 100
  · exact stream_buffer_bounded (.lit "mount") 8000 none (fillOps nineChunks 100) (allocates_fillOps _ _)
      (fillPosixOps nineChunks 100) (allocates_fillPosixOps _ _)

end Casquinha.Transport
