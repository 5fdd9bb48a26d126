import Casquinha.Audio.Engine
import Casquinha.Lib.Run

/-!
# The PCM output stage

Three parties move the PCM ring: the pump appends decoded frames, the loop asks for a trim, and the
double-back proc applies it and takes a chunk. Whatever they do in whatever order, the bytes served and
skipped so far and the bytes still in the ring are the bytes produced, in order (`output_conserved`).

What ties the parties together is the pending skip: from its request on, the ring holds that many bytes
and the target on top (`Sound.pending`). The pump only adds to that, and the double-back proc
applies the skip before it takes anything. So a skip is never clamped.
-/

set_option autoImplicit false

namespace Casquinha.Audio

open Lib Decode

/-! ## The machine -/

/-- A step of one of the parties. -/
inductive OutputStep where
  /-- The pump appends a decoded frame. -/
  | produce (pcm : Bytes)
  /-- The trim of the loop. -/
  | trim
  /-- The hardware asks for a buffer. -/
  | doubleBack
  /-- The stream has ended or begun, the channel has started or stopped. -/
  | switch (gStream gPlaying : Bool)

/-- The pump appends whole samples of two channels or pairs of samples, and never more than there is room
for. -/
def outputStep (s : Output) : OutputStep → Option Output
  | .produce pcm =>
      if 4 ∣ pcm.length ∧ pcm.length ≤ (pcmSpace s.gDec).toNat then
        some { s with gDec := pumpPut s.gDec pcm }
      else none
  | .trim => some (latencyTrim s)
  | .doubleBack => some (audioDoubleBack s).1
  | .switch gStream gPlaying =>
      some { s with
        gStream := gStream
        gPlaying := gPlaying }

/-- The output stage as `OpenAudioOutput` arms it, on whatever the memory holds. -/
def armed (comp pcm : Nat → UInt8) (channels : Nat) : Output :=
  { gDec := cqDecringInit comp (BitVec.ofNat 32 cqAudCompRing) pcm (BitVec.ofNat 32 cqAudRingBytes) 0 0
    gRingSkip := 0
    gStream := true
    gPlaying := false
    gChannels := channels
    gDBFires := 0
    gDBSilence := 0
    gTrims := 0 }

/-! ## History -/

/-- Bytes that leave the ring. -/
inductive Piece where
  | skipped (bytes : Bytes)
  | served (bytes : Bytes)

def Piece.bytes : Piece → Bytes
  | .skipped bytes => bytes
  | .served bytes => bytes

/-- What has been produced, and what has left the ring, in order. -/
structure PcmLog where
  produced : Bytes
  pieces : List Piece

namespace PcmLog

def blank : PcmLog := ⟨[], []⟩

/-- The bytes served, with the bytes skipped put back in. -/
def consumed (l : PcmLog) : Bytes := l.pieces.flatMap Piece.bytes

/-- The log after a step from `s`. -/
def note (l : PcmLog) (s : Output) : OutputStep → PcmLog
  | .produce pcm => { l with produced := l.produced ++ pcm }
  | .doubleBack =>
      { l with
        pieces := l.pieces ++ [.skipped (ringBytes s (trimSkip s)),
          .served ((audioDoubleBack s).2.dbSoundData.take (chunkTake (applyTrim s)))] }
  | .trim | .switch _ _ => l

end PcmLog

/-! ## The invariant -/

/-- The ring and its cursors as the log has them, and a pending skip that leaves the target. -/
structure Sound (x : Traced Output PcmLog) : Prop where
  size : x.state.gDec.pcmSize = BitVec.ofNat 32 cqAudRingBytes
  pcmWr : x.state.gDec.pcmWr = counter 32 0 x.log.produced.length
  pcmRd : x.state.gDec.pcmRd = counter 32 0 x.log.consumed.length
  ring : RingLog.Inv cqAudRingBytes 0 x.state.gDec.pcm
    ⟨x.log.produced, [], x.log.consumed, x.log.consumed.length, x.log.produced.length⟩
  produced : 4 ∣ x.log.produced.length
  consumed : 4 ∣ x.log.consumed.length
  pending : x.state.gRingSkip ≠ 0 → 0 < x.state.gRingSkip.toInt ∧ 4 ∣ x.state.gRingSkip.toNat ∧
    x.state.gRingSkip.toNat + cqAudRingTarget ≤ x.log.produced.length - x.log.consumed.length

theorem Sound.consumed_le {x : Traced Output PcmLog} (h : Sound x) :
    x.log.consumed.length ≤ x.log.produced.length := h.ring.taken_le_sent

theorem Sound.room {x : Traced Output PcmLog} (h : Sound x) :
    x.log.produced.length ≤ x.log.consumed.length + cqAudRingBytes := h.ring.sent_le

/-- The cursors measure the backlog. -/
theorem Sound.ringFill_eq {x : Traced Output PcmLog} (h : Sound x) :
    ringFill x.state = x.log.produced.length - x.log.consumed.length := by
  have hle := h.consumed_le
  have hroom := h.room
  rw [ringFill, h.pcmWr, h.pcmRd]
  apply toNat_counter_sub hle
  rw [cqAudRingBytes] at hroom
  omega

/-- What is in front of the read cursor is what has been produced and has not left. -/
theorem Sound.ringBytes_eq {x : Traced Output PcmLog} (h : Sound x) {n : Nat}
    (hn : n ≤ ringFill x.state) :
    ringBytes x.state n = (x.log.produced.drop x.log.consumed.length).take n := by
  have hle := h.consumed_le
  rw [h.ringFill_eq] at hn
  rw [ringBytes, h.pcmRd, toNat_counter_mod (Or.inl (by decide))]
  exact h.ring.ringRead_eq (by decide) (by simp only; omega)

/-! ## Steps -/

/-- The pump appends. -/
theorem Sound.produce {x : Traced Output PcmLog} (h : Sound x) {pcm : Bytes}
    (haligned : 4 ∣ pcm.length) (hfits : pcm.length ≤ (pcmSpace x.state.gDec).toNat) :
    Sound ⟨{ x.state with gDec := pumpPut x.state.gDec pcm },
      { x.log with produced := x.log.produced ++ pcm }⟩ := by
  have hle := h.consumed_le
  have hroom := h.room
  have hsize : x.state.gDec.pcmSize.toNat = cqAudRingBytes := by
    rw [h.size]
    rfl
  -- the free space that the pump computes is that of the log
  have hspace : pcm.length ≤
      cqAudRingBytes - (x.log.produced.length - x.log.consumed.length) := by
    rw [pcmSpace, h.pcmWr, h.pcmRd, toNat_sub_counter_sub hle (by rw [hsize]; exact hroom), hsize]
      at hfits
    exact hfits
  have hpos : (x.state.gDec.pcmWr % x.state.gDec.pcmSize).toNat =
      (0 + (x.log.produced.length + 0)) % cqAudRingBytes := by
    rw [BitVec.toNat_umod, hsize, h.pcmWr, toNat_counter_mod (Or.inl (by decide))]
    rfl
  have hring := ((h.ring.write (by decide) pcm (by simp only [List.length_nil]; omega)).publish).lookSent
    (v := (x.log.produced ++ pcm).length) (by simp [RingLog.publish, RingLog.write])
    (by simp [RingLog.publish, RingLog.write])
  refine ⟨h.size, ?_, h.pcmRd, ?_, ?_, h.consumed, ?_⟩
  · show x.state.gDec.pcmWr + BitVec.ofNat 32 pcm.length = _
    rw [h.pcmWr, counter_add, List.length_append]
  · simp only [RingLog.publish, RingLog.write, RingLog.lookSent, List.nil_append,
      List.length_nil] at hring
    show RingLog.Inv _ _ (ringWrite x.state.gDec.pcmSize.toNat x.state.gDec.pcm
      (x.state.gDec.pcmWr % x.state.gDec.pcmSize).toNat pcm) _
    rw [hsize, hpos]
    exact hring
  · simp only [List.length_append]
    exact Nat.dvd_add h.produced haligned
  · intro hskip
    obtain ⟨hpos, hdvd, hleft⟩ := h.pending hskip
    refine ⟨hpos, hdvd, hleft.trans ?_⟩
    show _ ≤ (x.log.produced ++ pcm).length - x.log.consumed.length
    rw [List.length_append]
    omega

/-- A skip of `n` bytes is asked for, and the ring holds them and the target on top. -/
theorem Sound.ask {x : Traced Output PcmLog} (h : Sound x) {t : Output} {n : Nat} (hpos : 0 < n)
    (haligned : 4 ∣ n) (hleft : n + cqAudRingTarget ≤ x.log.produced.length - x.log.consumed.length)
    (hdec : t.gDec = x.state.gDec) (hskip : t.gRingSkip = BitVec.ofNat 32 n) :
    Sound ⟨t, x.log⟩ := by
  -- the skip is less than the ring, so its sign bit is clear
  have hsmall : n < 2 ^ 31 := by
    have hroom := h.room
    simp only [cqAudRingBytes] at hroom
    omega
  have hnat : t.gRingSkip.toNat = n := by
    rw [hskip, BitVec.toNat_ofNat]
    apply Nat.mod_eq_of_lt
    omega
  refine ⟨?_, ?_, ?_, ?_, h.produced, h.consumed, ?_⟩
  · rw [hdec]
    exact h.size
  · rw [hdec]
    exact h.pcmWr
  · rw [hdec]
    exact h.pcmRd
  · rw [hdec]
    exact h.ring
  · intro _
    dsimp only
    rw [BitVec.toInt_eq_toNat_of_lt (by rw [hnat]; omega), hnat]
    exact ⟨by omega, haligned, hleft⟩

/-- The loop asks for a trim: for all that is above the target. -/
theorem Sound.trim {x : Traced Output PcmLog} (h : Sound x) :
    Sound ⟨latencyTrim x.state, x.log⟩ := by
  rw [latencyTrim]
  split
  · dsimp only
    split
    · next hdeep =>
      rw [h.ringFill_eq] at hdeep ⊢
      apply h.ask (n := x.log.produced.length - x.log.consumed.length - cqAudRingTarget)
      · simp only [cqAudTrimSlack] at hdeep
        omega
      · exact Nat.dvd_sub (Nat.dvd_sub h.produced h.consumed) ⟨131072, rfl⟩
      · omega
      · rfl
      · rfl
    · exact h
  · exact h

/-- Bytes in front of the read cursor leave, and no skip is pending any more. -/
theorem Sound.leave {x : Traced Output PcmLog} (h : Sound x) {t : Output} {n : Nat} (piece : Piece)
    (hn : n ≤ ringFill x.state) (haligned : 4 ∣ n) (hbytes : piece.bytes = ringBytes x.state n)
    (hdec : t.gDec = (advance x.state n).gDec) (hskip : t.gRingSkip = 0) :
    Sound ⟨t, { x.log with pieces := x.log.pieces ++ [piece] }⟩ := by
  have hconsumed : PcmLog.consumed { x.log with pieces := x.log.pieces ++ [piece] } =
      x.log.consumed ++ ringBytes x.state n := by
    simp [PcmLog.consumed, hbytes]
  have hlength : (ringBytes x.state n).length = n := length_ringRead _ _ _ _
  have hle := h.consumed_le
  have hfill := h.ringFill_eq
  have hpos : x.state.gDec.pcmRd.toNat % cqAudRingBytes =
      (0 + x.log.consumed.length) % cqAudRingBytes := by
    rw [h.pcmRd, toNat_counter_mod (Or.inl (by decide))]
  have htake := h.ring.take (by decide) (n := n) (by simp only; omega)
  have hseen := htake.lookTaken (v := x.log.consumed.length + n)
    (by simp only [RingLog.take]; omega)
    (by simp [RingLog.take])
  refine ⟨?_, ?_, ?_, ?_, h.produced, ?_, fun hne => absurd hskip hne⟩
  · rw [hdec]
    exact h.size
  · rw [hdec]
    exact h.pcmWr
  · rw [hdec, hconsumed, List.length_append, hlength]
    show x.state.gDec.pcmRd + BitVec.ofNat 32 n = _
    rw [h.pcmRd, counter_add]
  · rw [hdec, hconsumed, List.length_append, hlength, ringBytes, hpos]
    exact hseen
  · -- whole stereo samples leave
    rw [hconsumed, List.length_append, hlength]
    exact Nat.dvd_add h.consumed haligned

/-! ## A buffer for the hardware -/

/-- A pending skip is taken whole, and leaves the target. -/
theorem Sound.trimSkip_eq {x : Traced Output PcmLog} (h : Sound x) :
    trimSkip x.state = x.state.gRingSkip.toNat ∧
      (x.state.gRingSkip ≠ 0 → trimSkip x.state + cqAudRingTarget ≤ ringFill x.state) := by
  rw [trimSkip]
  by_cases hskip : x.state.gRingSkip = 0
  · rw [hskip]
    exact ⟨rfl, fun hne => absurd rfl hne⟩
  · obtain ⟨hpos, -, hleft⟩ := h.pending hskip
    rw [← h.ringFill_eq] at hleft
    rw [if_pos hpos, if_neg (by omega)]
    exact ⟨rfl, fun _ => hleft⟩

theorem Sound.trimSkip_aligned {x : Traced Output PcmLog} (h : Sound x) : 4 ∣ trimSkip x.state := by
  rw [h.trimSkip_eq.1]
  by_cases hskip : x.state.gRingSkip = 0
  · rw [hskip]
    exact ⟨0, rfl⟩
  · exact (h.pending hskip).2.1

/-- What `applyTrim` leaves: the read cursor behind the skip, and none pending. -/
theorem Sound.applyTrim_eq {x : Traced Output PcmLog} (h : Sound x) :
    (applyTrim x.state).gDec = (advance x.state (trimSkip x.state)).gDec ∧
      (applyTrim x.state).gRingSkip = 0 := by
  rw [applyTrim]
  split
  · exact ⟨rfl, rfl⟩
  · next hnone =>
    have hskip : x.state.gRingSkip = 0 := by
      by_contra hne
      exact hnone (h.pending hne).1
    refine ⟨?_, hskip⟩
    rw [h.trimSkip_eq.1, hskip]
    simp [advance]

/-- A chunk, or the rest of the ring. -/
theorem Sound.chunkTake_aligned {x : Traced Output PcmLog} (h : Sound x) :
    4 ∣ chunkTake x.state := by
  rw [chunkTake]
  split
  · decide
  · split
    · rw [h.ringFill_eq]
      exact Nat.dvd_sub h.produced h.consumed
    · exact ⟨0, rfl⟩

/-- **The double-back proc** skips what is pending and then serves a chunk. -/
theorem Sound.doubleBack {x : Traced Output PcmLog} (h : Sound x) :
    Sound ⟨(audioDoubleBack x.state).1, x.log.note x.state .doubleBack⟩ := by
  obtain ⟨hdec, hskip⟩ := h.applyTrim_eq
  have htrimmed := h.leave (t := applyTrim x.state) (.skipped (ringBytes x.state (trimSkip x.state)))
    (trimSkip_le _) h.trimSkip_aligned rfl hdec hskip
  -- the counter of the calls is all that differs
  have hfires : (applyTrim { x.state with gDBFires := x.state.gDBFires + 1 }).gDec =
        (applyTrim x.state).gDec ∧
      (applyTrim { x.state with gDBFires := x.state.gDBFires + 1 }).gRingSkip =
        (applyTrim x.state).gRingSkip ∧
      chunkTake (applyTrim { x.state with gDBFires := x.state.gDBFires + 1 }) =
        chunkTake (applyTrim x.state) := by
    have hsame : trimSkip { x.state with gDBFires := x.state.gDBFires + 1 } = trimSkip x.state := rfl
    simp only [applyTrim, hsame]
    split <;> exact ⟨rfl, rfl, rfl⟩
  have hserved : (audioDoubleBack x.state).2.dbSoundData.take (chunkTake (applyTrim x.state)) =
      ringBytes (applyTrim x.state) (chunkTake (applyTrim x.state)) := by
    simp only [audioDoubleBack, hfires.2.2, ringBytes, hfires.1]
    exact List.take_left' (length_ringRead _ _ _ _)
  have hlog : x.log.note x.state .doubleBack =
      { x.log with
        pieces := (x.log.pieces ++ [.skipped (ringBytes x.state (trimSkip x.state))]) ++
          [.served (ringBytes (applyTrim x.state) (chunkTake (applyTrim x.state)))] } := by
    rw [PcmLog.note, hserved, List.append_assoc]
    rfl
  rw [hlog]
  apply htrimmed.leave
  · exact chunkTake_le _
  · exact htrimmed.chunkTake_aligned
  · rfl
  · simp only [audioDoubleBack, advance, hfires.2.2, hfires.1]
  · simp only [audioDoubleBack, advance, hfires.2.1, hskip]

/-- **Every step** keeps the ring and its log together. -/
theorem Sound.step {x y : Traced Output PcmLog} {a : OutputStep} (h : Sound x)
    (hy : traced outputStep PcmLog.note x a = some y) : Sound y := by
  obtain ⟨t, ht, rfl⟩ := Option.map_eq_some_iff.1 hy
  cases a with
  | produce pcm =>
      simp only [outputStep] at ht
      split at ht
      · next hok =>
        cases ht
        exact h.produce hok.1 hok.2
      · cases ht
  | trim =>
      cases ht
      exact h.trim
  | doubleBack =>
      cases ht
      exact h.doubleBack
  | switch gStream gPlaying =>
      cases ht
      exact ⟨h.size, h.pcmWr, h.pcmRd, h.ring, h.produced, h.consumed, h.pending⟩

/-! ## Runs -/

/-- The cursors count what has been produced and what has left, whole words of four bytes, and the rest
is in the ring. -/
structure Conserved (x : Traced Output PcmLog) : Prop where
  pcmWr : x.state.gDec.pcmWr = BitVec.ofNat 32 x.log.produced.length
  pcmRd : x.state.gDec.pcmRd = BitVec.ofNat 32 x.log.consumed.length
  ordered : x.log.consumed.length ≤ x.log.produced.length ∧
    x.log.produced.length ≤ x.log.consumed.length + cqAudRingBytes
  aligned : 4 ∣ x.state.gDec.pcmWr.toNat ∧ 4 ∣ x.state.gDec.pcmRd.toNat
  conserved : x.log.consumed ++ ringBytes x.state (ringFill x.state) = x.log.produced

/-- The next buffer skips what is pending and nothing else, and a skip leaves the target. -/
structure SkipsPending (s : Output) : Prop where
  skip : trimSkip s = s.gRingSkip.toNat
  left : s.gRingSkip ≠ 0 → cqAudRingTarget ≤ ringFill (applyTrim s)

theorem Sound.conserved {x : Traced Output PcmLog} (h : Sound x) : Conserved x := by
  have hword : ∀ n, 4 ∣ n → 4 ∣ (counter 32 0 n).toNat := by
    intro n hn
    rw [counter, BitVec.toNat_ofNat, Nat.zero_add]
    exact (Nat.dvd_mod_iff (by decide)).2 hn
  refine ⟨?_, ?_, ⟨h.consumed_le, h.room⟩, ⟨?_, ?_⟩, ?_⟩
  · rw [h.pcmWr, counter, Nat.zero_add]
  · rw [h.pcmRd, counter, Nat.zero_add]
  · rw [h.pcmWr]
    exact hword _ h.produced
  · rw [h.pcmRd]
    exact hword _ h.consumed
  · have hpre : x.log.consumed <+: x.log.produced := h.ring.taken_prefix
    rw [h.ringBytes_eq (Nat.le_refl _), h.ringFill_eq, ← List.length_drop, List.take_length]
    conv_lhs => rw [List.prefix_iff_eq_take.1 hpre]
    simp only [List.length_take, Nat.min_eq_left h.consumed_le]
    exact List.take_append_drop _ _

theorem Sound.skipsPending {x : Traced Output PcmLog} (h : Sound x) : SkipsPending x.state := by
  refine ⟨h.trimSkip_eq.1, ?_⟩
  intro hskip
  have hleft := h.trimSkip_eq.2 hskip
  have htrimmed := h.leave (t := applyTrim x.state) (.skipped (ringBytes x.state (trimSkip x.state)))
    (trimSkip_le _) h.trimSkip_aligned rfl h.applyTrim_eq.1 h.applyTrim_eq.2
  have hlength : (ringBytes x.state (trimSkip x.state)).length = trimSkip x.state :=
    length_ringRead _ _ _ _
  have hconsumed : PcmLog.consumed
      { x.log with
        pieces := x.log.pieces ++ [.skipped (ringBytes x.state (trimSkip x.state))] } =
      x.log.consumed ++ ringBytes x.state (trimSkip x.state) := by
    simp [PcmLog.consumed, Piece.bytes]
  rw [htrimmed.ringFill_eq, hconsumed, List.length_append, hlength]
  rw [h.ringFill_eq] at hleft
  dsimp only
  omega

/-- **The output stage conserves PCM.** In every run the cursors are in order and aligned, the bytes served
with the skipped ones put back in and the bytes in the ring are those produced; and every buffer skips
exactly what a trim has asked for and then has the target left. Behind what it serves, a buffer is filled up
with zeros, and it is marked ready either way: that is in the definition of `audioDoubleBack`. -/
theorem output_conserved (comp pcm : Nat → UInt8) (channels : Nat) (steps : List OutputStep) :
    Meets (traced outputStep PcmLog.note)
      (fun x a => Conserved x ∧ (a = .doubleBack → SkipsPending x.state))
      ⟨armed comp pcm channels, .blank⟩ steps := by
  apply meets_of_invariant Sound
  · intro x a y h hy
    exact h.step hy
  · intro x a h
    exact ⟨h.conserved, fun _ => h.skipsPending⟩
  · refine ⟨rfl, rfl, rfl, RingLog.Inv.empty _ _ _, ⟨0, rfl⟩, ⟨0, rfl⟩, ?_⟩
    intro hskip
    exact absurd rfl hskip

end Casquinha.Audio
