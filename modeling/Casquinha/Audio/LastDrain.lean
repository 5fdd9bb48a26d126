import Casquinha.Audio.Response
import Casquinha.Transport.Deadlines

/-!
# The last drain of a stream

When the stream dies in playback, `ServiceAudio` drains what is still buffered and frees the transaction. Both
drains of the pass stop where the compressed ring is full, and the second finds nothing that the first has
left but where it was stopped. So the pass delivers all that was received if and only if what is buffered
fits into the ring (`deliversAll_iff`); what does not fit is freed with the stream
(`tail_freed_with_stream`).
-/

set_option autoImplicit false

namespace Casquinha.Audio

open Lib Decode Transport

variable {σ : Type}

/-- The state in which a pass frees the stream `t`. -/
def Service.atFree (env : AudioEnv σ) (t : CqTransport) (s : Service σ) : Service σ :=
  { s with gStream := some (cqTxPoll env.ot t) }.drainWire.drainStreamToDec

/-- A pass that sees the stream leave `RUNNING` in playback frees it empty, and has committed all that the
stream has received behind the stripped bytes. -/
def DeliversAll (d : Mp3Decoder σ) (s : Service σ) : ServiceStep σ → Prop
  | .service env => ∀ t, s.eng.gAuSt = .play → s.gStream = some t →
      (cqTxPoll env.ot t).status ≠ .running →
        (∀ u, (s.atFree env t).gStream = some u → u.data = []) ∧
          (cqTxPoll env.ot t).drained ++ (cqTxPoll env.ot t).data =
            s.skipped ++ (s.serviceAudio d env).committed
  | _ => True

/-- What is buffered when the stream leaves `RUNNING` in playback fits into the compressed ring. -/
def LastDrainFits (s : Service σ) : ServiceStep σ → Prop
  | .service env => ∀ t, s.eng.gAuSt = .play → s.gStream = some t →
      (cqTxPoll env.ot t).status ≠ .running →
        (cqTxPoll env.ot t).data.length ≤ (cqDecringSpace s.eng.out.gDec).toNat
  | _ => True

/-! ## A pass in playback -/

/-- In playback nothing is left to tune in. -/
theorem tuneIn_of_play {env : AudioEnv σ} {s : Service σ}
    (h : (s.serviceWire env).eng.gAuSt = .play) : s.tuneIn env = s.serviceWire env := by
  have hstrip : (s.serviceWire env).stripHeader = s.serviceWire env := by
    rw [Service.stripHeader, if_neg]
    rintro ⟨hhttp, -⟩
    cases h.symm.trans hhttp
  rw [Service.tuneIn, hstrip, Service.syncStream, if_neg]
  intro hsync
  cases h.symm.trans hsync

/-- So a pass in playback is the wire and the playback. -/
theorem serviceAudio_of_play (d : Mp3Decoder σ) {env : AudioEnv σ} {s : Service σ}
    (hplay : s.eng.gAuSt = .play) (h : (s.serviceWire env).eng.gAuSt = .play) :
    s.serviceAudio d env = (s.serviceWire env).playback d env.start := by
  have hne : s.eng.gAuSt ≠ .idle := by
    rw [hplay]
    exact App.AuState.noConfusion
  rw [Service.serviceAudio, if_neg hne, tuneIn_of_play h]

/-- The wire of a pass in which the stream dies in playback. -/
theorem serviceWire_of_died {env : AudioEnv σ} {s : Service σ} {t : CqTransport}
    (hplay : s.eng.gAuSt = .play) (hstream : s.gStream = some t)
    (hover : (cqTxPoll env.ot t).status ≠ .running) :
    s.serviceWire env = (s.atFree env t).freeStream ∧ (s.serviceWire env).eng.gAuSt = .play := by
  have hst : { s with gStream := some (cqTxPoll env.ot t) }.drainWire.eng.gAuSt = .play :=
    (drainWire_frame _).1.trans hplay
  have hwire : s.serviceWire env = (s.atFree env t).freeStream := by
    rw [Service.serviceWire, Service.atFree, hstream]
    dsimp only
    rw [if_neg hover, Service.wireDied, if_pos hst]
  refine ⟨hwire, ?_⟩
  rw [hwire]
  show (streamDied (s.atFree env t).eng).gAuSt = .play
  have hfree : (s.atFree env t).eng.gAuSt = .play := (drainStreamToDec_frame _).1.trans hst
  rw [streamDied, if_pos hfree]
  exact hfree

/-- **The two drains** of the last pass: the second one moves nothing. -/
theorem atFree_eq (env : AudioEnv σ) {s : Service σ} (htidy : Tidy s.eng)
    (hplay : s.eng.gAuSt = .play) (t : CqTransport) :
    let t' := cqTxPoll env.ot t
    let n := min (cqDecringSpace s.eng.out.gDec).toNat t'.data.length
    (s.atFree env t).committed = s.committed ++ t'.data.take n ∧
      (s.atFree env t).gStream = some (cqTxDrain t' n).2 := by
  intro t' n
  -- the first drain leaves the ring full or the buffer empty
  obtain ⟨comp, hfirst⟩ := drainStreamToDec_eq (s := { s with gStream := some t' }) htidy hplay rfl
  have hwire : { s with gStream := some t' }.drainWire = { s with gStream := some t' }.drainStreamToDec :=
    if_pos hplay
  set s₁ := { s with gStream := some t' }.drainStreamToDec with hs₁
  have htidy₁ : Tidy s₁.eng := by
    rw [hfirst]
    exact tidy_of_play hplay (htidy.compSize hplay)
  have hplay₁ : s₁.eng.gAuSt = .play := by
    rw [hfirst]
    exact hplay
  have hstream₁ : s₁.gStream = some (cqTxDrain t' n).2 := by rw [hfirst]
  -- so there is nothing for the second one
  obtain ⟨comp', hsecond⟩ := drainStreamToDec_eq htidy₁ hplay₁ hstream₁
  have hspace : (cqDecringSpace s₁.eng.out.gDec).toNat =
      (cqDecringSpace s.eng.out.gDec).toNat - n := by
    rw [hfirst]
    exact space_filled comp (Nat.min_le_left _ _)
  have hleft : (cqTxDrain t' n).2.data.length = t'.data.length - n := List.length_drop
  have hzero : min (cqDecringSpace s₁.eng.out.gDec).toNat (cqTxDrain t' n).2.data.length = 0 := by
    rw [hspace, hleft]
    omega
  rw [hzero, List.take_zero, List.append_nil, cqTxDrain_zero] at hsecond
  have hfree : s.atFree env t = s₁.drainStreamToDec := by
    rw [Service.atFree, hwire]
  rw [hfree, hsecond]
  refine ⟨?_, rfl⟩
  show s₁.committed = _
  rw [hfirst]
  rfl

/-- **A pass delivers all** exactly if the last drain fits. -/
theorem deliversAll_iff (d : Mp3Decoder σ) {s : Service σ} (h : s.Kept) (a : ServiceStep σ) :
    DeliversAll d s a ↔ LastDrainFits s a := by
  cases a with
  | toggle alloc now => exact Iff.rfl
  | pls env => exact Iff.rfl
  | serverChange host port => exact Iff.rfl
  | pump => exact Iff.rfl
  | doubleBack => exact Iff.rfl
  | quit => exact Iff.rfl
  | service env =>
      refine forall_congr' fun t => forall_congr' fun hplay => forall_congr' fun hstream =>
        forall_congr' fun hover => ?_
      obtain ⟨hcommitted, hfree⟩ := atFree_eq env h.inv.tidy hplay t
      set t' := cqTxPoll env.ot t with ht'
      set n := min (cqDecringSpace s.eng.out.gDec).toNat t'.data.length with hn
      -- the pass commits what its first drain moved
      have hpass : (s.serviceAudio d env).committed = s.committed ++ t'.data.take n := by
        obtain ⟨hwire, hst⟩ := serviceWire_of_died hplay hstream hover
        rw [serviceAudio_of_play d hplay hst, (onward_playback d env.start _).committed_eq, hwire,
          ← hcommitted]
        rfl
      -- in playback the window is empty, so all that was drained before is skipped or committed
      have hdrained : t'.drained = s.skipped ++ s.committed := by
        obtain ⟨hinv, hdrained⟩ := h.accounted.stream t hstream
        rw [ht', drained_cqTxPoll env.ot hinv, hdrained, h.accounted.play hplay, List.append_nil]
      constructor
      · -- nothing was left in the buffer, so all of it was moved, and it fitted
        rintro ⟨hempty, -⟩
        have hdata : t'.data.drop n = [] := hempty _ hfree
        rw [List.drop_eq_nil_iff] at hdata
        omega
      · -- all of it fits, so all of it is moved
        intro hfits
        have hall : t'.data.length ≤ n := by omega
        refine ⟨?_, ?_⟩
        · intro u hu
          cases hfree.symm.trans hu
          show t'.data.drop n = []
          rw [List.drop_of_length_le hall]
        · rw [hpass, hdrained, List.take_of_length_le hall, List.append_assoc]

/-- **No received audio is dropped at the end of a stream** in a run exactly if in every pass that sees the
stream leave `RUNNING` in playback what is buffered fits into the compressed ring. A pass is one step here. That
it is enough that the bytes fit holds as well when pump passes interrupt it, since they only make room; that it
is necessary holds of the passes that none interrupts. -/
theorem last_drain_iff (d : Mp3Decoder σ) (dec : σ) (host : CStr) (port : Int)
    (steps : List (ServiceStep σ)) :
    Meets (serviceStep d) (DeliversAll d) (Service.launched dec host port) steps ↔
      Meets (serviceStep d) LastDrainFits (Service.launched dec host port) steps := by
  apply meets_congr_of_inv Service.Kept
  · intro s a s' h hstep
    exact h.step hstep
  · intro s a h
    exact deliversAll_iff d h a
  · exact kept_launched dec host port

/-! ## A tail that does not fit -/

/-- A stream that is being received, with `n` bytes in its buffer. -/
structure Receiving (n : Nat) (t : CqTransport) : Prop where
  st_eq : t.st = .receiving
  status_eq : t.status = .running
  cancelled_eq : t.cancelled = false
  streaming_eq : t.streaming = true
  length_data : t.data.length = n

/-- A poll of a stream that is received and stays so is its read loop. -/
theorem Receiving.poll {n : Nat} {t : CqTransport} (h : Receiving n t) (env : OtEnv) :
    cqTxPoll env t = CqTransport.checkDeadlines env.tick (CqTransport.recvLoop env.rcv t) := by
  rw [cqTxPoll_of_running env h.cancelled_eq h.status_eq, CqTransport.slice, h.st_eq]
  rfl

theorem append_grows (t : CqTransport) (buf : Bytes) : ∃ cap, t.append buf true = some { t with
    data := t.data ++ buf
    cap := cap } := by
  rw [CqTransport.append]
  by_cases hcap : t.cap < t.data.length + buf.length
  · exact ⟨_, if_pos hcap⟩
  · exact ⟨t.cap, if_neg hcap⟩

/-- A buffer of one chunk is below the mark at which the read loop stops. -/
theorem below_hiwat {t : CqTransport} (h : t.data.length ≤ cqTxReadChunk) :
    ¬ (t.streaming = true ∧ cqTxStreamHiwat ≤ t.data.length) := by
  rintro ⟨-, hge⟩
  have hmarks := hge.trans h
  revert hmarks
  decide

/-- A chunk comes in. -/
theorem Receiving.chunk {t : CqTransport} (h : Receiving 0 t) (env : OtEnv) {c : Chunk}
    (hrcv : env.rcv = [.chunk c true]) : Receiving c.bytes.length (cqTxPoll env t) := by
  have hlen := c.fits
  obtain ⟨cap, happend⟩ := append_grows (t.call (.rcv c.bytes)) c.bytes
  have hdata : (t.data ++ c.bytes).length = c.bytes.length := by
    rw [List.length_append, h.length_data, Nat.zero_add]
  have hloop : Receiving c.bytes.length (CqTransport.recvLoop env.rcv t) := by
    -- the first round takes the chunk, and the second finds no more
    rw [hrcv, CqTransport.recvLoop, if_neg (below_hiwat (by rw [h.length_data]; exact Nat.zero_le _))]
    dsimp only
    rw [happend]
    dsimp only
    rw [CqTransport.recvLoop, if_neg (below_hiwat (by rw [← hdata] at hlen; exact hlen))]
    exact ⟨h.st_eq, h.status_eq, h.cancelled_eq, h.streaming_eq, hdata⟩
  rw [h.poll, checkDeadlines_of_receiving hloop.streaming_eq hloop.st_eq]
  exact hloop

/-- The server releases the connection. -/
theorem Receiving.released {n : Nat} {t : CqTransport} (h : Receiving n t) (hn : n ≤ cqTxReadChunk)
    (env : OtEnv) (hrcv : env.rcv = [.look .ordrel]) :
    (cqTxPoll env t).status = .done ∧ (cqTxPoll env t).data.length = n := by
  have hhiwat := below_hiwat (h.length_data.trans_le hn)
  have hover : (CqTransport.recvLoop env.rcv t).status = .done ∧
      (CqTransport.recvLoop env.rcv t).data = t.data := by
    rw [hrcv, CqTransport.recvLoop, if_neg hhiwat]
    simp only [CqTransport.finish, CqTransport.teardown, CqTransport.call, and_self]
  rw [h.poll, CqTransport.checkDeadlines, if_neg (by rw [hover.1]; exact CqTxStatus.noConfusion)]
  exact ⟨hover.1, by rw [hover.2, h.length_data]⟩

/-- The engine is in playback, nothing is decoded, the compressed ring has room for `room` bytes, and `n`
bytes are in the buffer of the stream. -/
structure Filling (room n : Nat) (s : Service σ) : Prop where
  tidy : Tidy s.eng
  play : s.eng.gAuSt = .play
  task : s.eng.gMPDecode = true
  silent : s.eng.out.gPlaying = false
  dry : ringFill s.eng.out = 0
  live : s.eng.out.gStream = true
  space : (cqDecringSpace s.eng.out.gDec).toNat = room
  stream : ∃ t, s.gStream = some t ∧ Receiving n t

/-- Before the prebuffer mark, playback waits. -/
theorem Filling.playback {room n : Nat} {s : Service σ} (h : Filling room n s) (d : Mp3Decoder σ)
    (start : SoundStart) : s.playback d start = s := by
  have hstart : s.startOutput start = s := by
    -- the pcm ring is empty, and the stream is alive: no start before the mark
    have hmark : mayStart s.eng.out = false := by
      simp only [mayStart, h.silent, h.dry, h.live]
      decide
    rw [Service.startOutput, hmark]
    rfl
  have htrim : s.trimOrExit = s := by
    -- no trim without output, and no exit while the stream is alive
    have hlatency : latencyTrim s.eng.out = s.eng.out := by
      rw [latencyTrim, if_neg]
      rw [h.silent]
      rintro ⟨⟨⟩, -⟩
    rw [Service.trimOrExit, if_pos h.play, hlatency]
    simp only [playedOut, h.live]
    rfl
  rw [Service.playback, if_pos h.play, h.task]
  show (s.startOutput start).trimOrExit = s
  rw [hstart, htrim]

/-- **A pass** takes a chunk, and moves of it what fits. -/
theorem Filling.pass {room : Nat} {s : Service σ} (h : Filling room 0 s) (d : Mp3Decoder σ)
    (env : AudioEnv σ) {c : Chunk} (hrcv : env.ot.rcv = [.chunk c true]) :
    Filling (room - min room c.bytes.length) (c.bytes.length - min room c.bytes.length)
      (s.serviceAudio d env) := by
  obtain ⟨t, hstream, hreceiving⟩ := h.stream
  have hpolled := hreceiving.chunk env.ot hrcv
  set t' := cqTxPoll env.ot t with ht'
  -- the poll takes the chunk, and the drain moves what fits
  obtain ⟨comp, hdrain⟩ := drainStreamToDec_eq (s := { s with gStream := some t' }) h.tidy h.play rfl
  have hroom : min (cqDecringSpace s.eng.out.gDec).toNat t'.data.length =
      min room c.bytes.length := by rw [h.space, hpolled.length_data]
  have hwire : s.serviceWire env = { s with gStream := some t' }.drainStreamToDec := by
    rw [Service.serviceWire, hstream]
    dsimp only
    rw [← ht', if_pos hpolled.status_eq]
    exact if_pos h.play
  have hfilling : Filling (room - min room c.bytes.length)
      (c.bytes.length - min room c.bytes.length) (s.serviceWire env) := by
    rw [hwire, hdrain, hroom]
    refine ⟨tidy_of_play h.play (h.tidy.compSize h.play), h.play, h.task, h.silent, h.dry, h.live,
      ?_, _, rfl, ⟨hpolled.st_eq, hpolled.status_eq, hpolled.cancelled_eq, hpolled.streaming_eq, ?_⟩⟩
    · have hle : min room c.bytes.length ≤ (cqDecringSpace s.eng.out.gDec).toNat := by
        rw [h.space]
        exact Nat.min_le_left _ _
      exact (space_filled comp hle).trans (by rw [h.space])
    · show (t'.data.drop _).length = _
      rw [List.length_drop, hpolled.length_data]
  rw [serviceAudio_of_play d h.play hfilling.play, hfilling.playback]
  exact hfilling

/-- Passes that take a chunk each, while the chunks fit. -/
theorem Filling.run {s : Service σ} (d : Mp3Decoder σ) (env : AudioEnv σ) {c : Chunk}
    (hrcv : env.ot.rcv = [.chunk c true]) (k room : Nat)
    (h : Filling (k * c.bytes.length + room) 0 s) :
    ∃ s', Lib.run (serviceStep d) s (List.replicate k (.service env)) = some s' ∧
      Filling room 0 s' := by
  induction k generalizing s with
  | zero =>
      rw [Nat.zero_mul, Nat.zero_add] at h
      exact ⟨s, rfl, h⟩
  | succ k ih =>
      -- the chunk fits, so the pass leaves the buffer empty, and `k` chunks still fit
      have hfits : min ((k + 1) * c.bytes.length + room) c.bytes.length = c.bytes.length := by
        rw [Nat.min_eq_right]
        rw [Nat.succ_mul]
        omega
      have hpass := h.pass d env hrcv
      rw [hfits, Nat.sub_self] at hpass
      have hroom : (k + 1) * c.bytes.length + room - c.bytes.length = k * c.bytes.length + room := by
        rw [Nat.succ_mul]
        omega
      rw [hroom] at hpass
      obtain ⟨s', hrun, hs'⟩ := ih hpass
      exact ⟨s', hrun, hs'⟩

/-- Then 32 full chunks come in, and the pump does not run. -/
def crowded : List (ServiceStep Unit) :=
  synced ++ List.replicate 31 (.service (receive [.chunk fullChunk true])) ++
    [.service (receive [.chunk fullChunk true])]

/-- Playback has begun with two frames in the compressed ring. -/
theorem filling_synced : ∃ s,
    run (serviceStep silenceDecoder) (Service.launched () (.lit "spot") 70) synced = some s ∧
      Filling (31 * fullChunk.bytes.length + 8144) 0 s := by
  have hsome : (run (serviceStep silenceDecoder) (Service.launched () (.lit "spot") 70)
      synced).isSome := by decide +kernel
  obtain ⟨s, hs⟩ := Option.isSome_iff_exists.1 hsome
  -- two evaluations: the engine, and what the wire has left
  have hengine : ∀ s ∈ run (serviceStep silenceDecoder) (Service.launched () (.lit "spot") 70) synced,
      s.eng.gAuSt = .play ∧ s.eng.gMPDecode = true ∧ s.eng.out.gPlaying = false ∧
        ringFill s.eng.out = 0 ∧ s.eng.out.gStream = true := by
    decide +kernel
  have hwire : ∀ s ∈ run (serviceStep silenceDecoder) (Service.launched () (.lit "spot") 70) synced,
      (cqDecringSpace s.eng.out.gDec).toNat = 262096 ∧
        (s.gStream.map fun t => (t.st, t.status, t.cancelled, t.streaming)) =
          some (.receiving, .running, false, true) ∧
        (s.gStream.map fun t => t.data.length) = some 0 := by
    decide +kernel
  obtain ⟨hplay, htask, hsilent, hdry, hlive⟩ := hengine s hs
  obtain ⟨hspace, hstream, hlength⟩ := hwire s hs
  obtain ⟨t, ht, hfields⟩ := Option.map_eq_some_iff.1 hstream
  simp only [Prod.mk.injEq] at hfields
  obtain ⟨hst, hstatus, hcancelled, hstreaming⟩ := hfields
  rw [ht, Option.map_some, Option.some.injEq] at hlength
  refine ⟨s, hs, (inv_run hs).tidy, hplay, htask, hsilent, hdry, hlive, ?_, t, ht,
    ⟨hst, hstatus, hcancelled, hstreaming, hlength⟩⟩
  rw [hspace, show fullChunk.bytes.length = 8192 from List.length_replicate]

/-- **The tail of a stream is lost** when the pump is behind: the compressed ring is full, 48 bytes are in the
buffer of the stream, and the pass that sees the end of the stream frees them with it. -/
theorem tail_freed_with_stream : ∃ s t,
    run (serviceStep silenceDecoder) (Service.launched () (.lit "spot") 70) crowded = some s ∧
      s.eng.gAuSt = .play ∧ s.gStream = some t ∧ t.data.length = 48 ∧
      (cqTxPoll (receive [.look .ordrel]).ot t).status = .done ∧
      ¬ DeliversAll silenceDecoder s (.service (receive [.look .ordrel])) := by
  -- 31 chunks fit; of the last one 48 bytes do not
  obtain ⟨s₁, hrun₁, hfilling₁⟩ := filling_synced
  obtain ⟨s₂, hrun₂, hfilling₂⟩ :=
    hfilling₁.run silenceDecoder (receive [.chunk fullChunk true]) rfl
  have hlast := hfilling₂.pass silenceDecoder (receive [.chunk fullChunk true]) (c := fullChunk) rfl
  rw [show fullChunk.bytes.length = 8192 from List.length_replicate] at hlast
  set s := s₂.serviceAudio silenceDecoder (receive [.chunk fullChunk true]) with hs
  have hrun : run (serviceStep silenceDecoder) (Service.launched () (.lit "spot") 70) crowded =
      some s := by
    rw [crowded, run_append, run_append, hrun₁, Option.bind_some, hrun₂, Option.bind_some]
    rfl
  obtain ⟨t, hstream, hreceiving⟩ := hlast.stream
  obtain ⟨hdone, hdata⟩ := hreceiving.released (by decide) (receive [.look .ordrel]).ot rfl
  have hkept : s.Kept := run_invariant Service.Kept (fun _ _ _ h hstep => h.step hstep)
    (kept_launched () (.lit "spot") 70) hrun
  refine ⟨s, t, hrun, hlast.play, hstream, hreceiving.length_data, hdone, ?_⟩
  rw [deliversAll_iff silenceDecoder hkept]
  intro hfits
  have hle := hfits t hlast.play hstream (by rw [hdone]; exact CqTxStatus.noConfusion)
  rw [hdata, hlast.space] at hle
  revert hle
  decide

end Casquinha.Audio
