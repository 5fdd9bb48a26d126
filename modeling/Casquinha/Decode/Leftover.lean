import Casquinha.Decode.Resync

/-!
# What a pass leaves behind at the end of a stream

With `eof` set, nothing more in the compressed ring and PCM space for a frame, a pass leaves the stage
alone in two situations (`LeftAlone`). The stage is empty; or it holds at most 8192 bytes and no whole frame
at its head. A deeper stage is realigned or flushed, and a whole frame at the head is decoded
(`stage_pump_lt`).

The second situation is meant for the cut-off frame at the end of a stream. Junk in front of the last
frames is in the same situation, and nothing will make the stage deeper: the frames behind the junk stay
where they are (`short_junk_swallows`).
-/

set_option autoImplicit false

namespace Casquinha.Decode

open Lib

variable {w : Nat} {σ : Type}

/-- The decoder consumes something of a buffer that begins with a whole frame. -/
def Mp3Decoder.Advances (d : Mp3Decoder σ) : Prop :=
  ∀ s buf, 1 ≤ walkFrames buf 2 → 0 < (d.decodeFrame s buf).2.consumed

theorem silenceDecoder_advances : silenceDecoder.Advances := by
  intro s buf hwalk
  obtain ⟨f, hf, hfits⟩ := (one_le_walkFrames_iff buf).1 hwalk
  have hpos := (frameBytes_bounds hf).1
  simp only [silenceDecoder, hf, if_pos hfits, silence]
  omega

/-- Staged bytes that a pass with `eof` set does not touch. -/
def LeftAlone (stage : Bytes) : Prop :=
  stage = [] ∨ stage.length ≤ 8192 ∧ GateHolds true stage

instance (stage : Bytes) : Decidable (LeftAlone stage) := inferInstanceAs (Decidable (_ ∨ _))

/-! ## Rounds -/

/-- No round gives bytes back. -/
theorem used_le_pumpRound (d : Mp3Decoder σ) (p : Pass w σ) : p.used ≤ (pumpRound d p).1.used := by
  rw [pumpRound]
  split
  · exact Nat.le_refl _
  · split
    · exact Nat.le_refl _
    · next hdry =>
      split
      · rw [pumpHeld]
        split
        · split
          · split
            · exact Nat.le_add_right _ _
            · exact Nat.le_refl _
          · exact Nat.le_of_not_le hdry
        · exact Nat.le_refl _
      · simp only [pumpDecode]
        split
        · exact Nat.le_refl _
        · split <;> exact Nat.le_add_right _ _

theorem used_le_pumpLoop (d : Mp3Decoder σ) :
    ∀ (fuel : Nat) (p : Pass w σ), p.used ≤ (pumpLoop d fuel p).used := by
  intro fuel
  induction fuel with
  | zero => exact fun p => Nat.le_refl _
  | succ fuel ih =>
      intro p
      have hround := used_le_pumpRound d p
      rw [pumpLoop]
      cases hres : pumpRound d p with
      | mk p' go =>
          rw [hres] at hround
          cases go with
          | false => exact hround
          | true => exact Nat.le_trans hround (ih p')

/-- The loop uses up at least what its first round does. -/
theorem used_pumpRound_le_pumpLoop (d : Mp3Decoder σ) (fuel : Nat) (p : Pass w σ) :
    (pumpRound d p).1.used ≤ (pumpLoop d (fuel + 1) p).used := by
  rw [pumpLoop]
  cases hres : pumpRound d p with
  | mk p' go =>
      cases go with
      | false => exact Nat.le_refl _
      | true => exact used_le_pumpLoop d fuel p'

/-- A confirmed frame at the head of a buffer that holds two frames of any size opens the gate. -/
theorem RealFrame.two_le_walkFrames {buf : Bytes} (h : RealFrame buf 0) (hlen : 2882 ≤ buf.length) :
    2 ≤ walkFrames buf 2 := by
  obtain ⟨a, b, ha, hb, hco⟩ := h
  have hfirst := frameBytes_bounds ha
  have hsecond := frameBytes_bounds hb
  rw [walkFrames, cqMp3Walk, walkLoop, ha]
  simp only
  rw [if_neg (by omega), walkLoop, hb]
  simp only
  rw [if_neg (by omega), if_pos hco, walkLoop]

theorem RealFrame.not_gateHolds {rest : Bytes} {eof : Bool} (h : RealFrame rest 0)
    (hlen : 2882 ≤ rest.length) : ¬ GateHolds eof rest := by
  have hwalk := h.two_le_walkFrames hlen
  rw [GateHolds]
  split <;> omega

/-- **The resync moves**: behind a gate that holds a deep stage, the sync does not answer with the head. -/
theorem sync_pos_of_gate {rest : Bytes} {eof : Bool} {off : Nat} {f : CqMp3Frame}
    (hgate : GateHolds eof rest) (hdeep : 8192 < rest.length)
    (hsync : cqMp3Sync rest = some (off, f)) : 0 < off := by
  apply Nat.pos_of_ne_zero
  rintro rfl
  exact (sync_some hsync).1.not_gateHolds (by omega) hgate

/-- A decoder that gets a whole frame takes something of it. -/
theorem pumpDecode_used {d : Mp3Decoder σ} (hd : d.Advances) {p : Pass w σ} (hne : p.rest ≠ [])
    (hwalk : 1 ≤ walkFrames p.rest 2) : p.used < (pumpDecode d p).1.used := by
  have hlen : p.rest.length ≠ 0 := fun hzero => hne (List.length_eq_zero_iff.1 hzero)
  have hconsumed := hd p.dec p.rest hwalk
  simp only [pumpDecode, cqMp3decFrame, if_neg hlen]
  rw [if_neg (by omega)]
  split <;> simp only <;> omega

/-- With PCM space, a round uses something of a deep stage. -/
theorem pumpRound_deep {d : Mp3Decoder σ} (hd : d.Advances) {p : Pass w σ} (hroom : PcmRoom p.ring)
    (hdeep : 8192 < p.rest.length) : p.used < (pumpRound d p).1.used := by
  have hlen : p.rest.length = p.ring.stage.length - p.used := List.length_drop
  have hdry : ¬ p.ring.stage.length ≤ p.used := by omega
  rw [pumpRound, if_neg (not_not.2 hroom), if_neg hdry]
  by_cases hgate : GateHolds p.ring.eof p.rest
  · -- a resync skips something, a flush everything
    rw [if_pos hgate, pumpHeld, if_pos hdeep]
    cases hsync : cqMp3Sync p.rest with
    | none => exact Nat.lt_of_not_le hdry
    | some answer =>
        obtain ⟨off, f⟩ := answer
        have hoff := sync_pos_of_gate hgate hdeep hsync
        simp only [if_pos hoff]
        omega
  · -- a whole frame is at the head
    have hwalk : 1 ≤ walkFrames p.rest 2 := by
      rw [GateHolds] at hgate
      split at hgate <;> omega
    have hne : p.rest ≠ [] := by
      intro hnil
      rw [hnil] at hdeep
      exact absurd hdeep (Nat.not_lt_zero _)
    rw [if_neg hgate]
    exact pumpDecode_used hd hne hwalk

/-- A round does nothing with bytes that are left alone. -/
theorem pumpRound_leftAlone {d : Mp3Decoder σ} {p : Pass w σ} (heof : p.ring.eof = true)
    (halone : LeftAlone p.rest) : pumpRound d p = (p, false) := by
  rcases halone with hnil | ⟨hshort, hgate⟩
  · have hdry : p.ring.stage.length ≤ p.used := List.drop_eq_nil_iff.1 hnil
    rw [pumpRound, if_pos hdry]
    split <;> rfl
  · rw [← heof] at hgate
    exact pumpRound_held hshort hgate

/-- With PCM space, a round uses something of bytes that are not. -/
theorem pumpRound_not_leftAlone {d : Mp3Decoder σ} (hd : d.Advances) {p : Pass w σ}
    (heof : p.ring.eof = true) (hroom : PcmRoom p.ring) (halone : ¬ LeftAlone p.rest) :
    p.used < (pumpRound d p).1.used := by
  by_cases hdeep : 8192 < p.rest.length
  · exact pumpRound_deep hd hroom hdeep
  · -- a short stage is touched only when a whole frame is at its head
    have hne : p.rest ≠ [] := fun hnil => halone (Or.inl hnil)
    have hdry : ¬ p.ring.stage.length ≤ p.used :=
      fun hle => hne (List.drop_eq_nil_iff.2 hle)
    have hgate : ¬ GateHolds true p.rest :=
      fun hgate => halone (Or.inr ⟨Nat.le_of_not_lt hdeep, hgate⟩)
    have hwalk : 1 ≤ walkFrames p.rest 2 := by
      rw [GateHolds, if_pos rfl] at hgate
      omega
    rw [pumpRound, if_neg (not_not.2 hroom), if_neg hdry, heof, if_neg hgate]
    exact pumpDecode_used hd hne hwalk

/-! ## Passes -/

/-- The stage after a pass: what the top-up has made of it, less what the rounds have used up. -/
theorem stage_pump (d : Mp3Decoder σ) (s : σ) (r : CqDecring w) :
    (cqDecringPump d s r).ring.stage = (pumpTopUp r).stage.drop
      (pumpLoop d ((pumpTopUp r).stage.length + 1) (pumpStart s r)).used := by
  have hframe := (pumpLoop_frame d ((pumpTopUp r).stage.length + 1) (pumpStart s r)).1
  show (pumpLoop d ((pumpTopUp r).stage.length + 1) (pumpStart s r)).ring.stage.drop _ = _
  rw [hframe]
  rfl

/-- **A pass uses something** of a topped-up stage that is not left alone. -/
theorem stage_pump_lt {d : Mp3Decoder σ} (hd : d.Advances) (s : σ) {r : CqDecring w}
    (heof : r.eof = true) (hroom : PcmRoom r) (halone : ¬ LeftAlone (pumpTopUp r).stage) :
    (cqDecringPump d s r).ring.stage.length < (pumpTopUp r).stage.length := by
  have hstart : (pumpStart s r).ring.eof = true ∧ PcmRoom (pumpStart s r).ring := by
    rw [pumpStart, pumpTopUp_spec]
    exact ⟨heof, hroom⟩
  have hround := pumpRound_not_leftAlone hd hstart.1 hstart.2 halone
  have hloop := used_pumpRound_le_pumpLoop d (pumpTopUp r).stage.length (pumpStart s r)
  have hne : (pumpTopUp r).stage ≠ [] := fun hnil => halone (Or.inl hnil)
  have hpos := List.length_pos_iff.2 hne
  rw [stage_pump, List.length_drop]
  omega

/-- **A pass is its top-up** when it leaves the topped-up stage alone. -/
theorem pump_eq_topUp (d : Mp3Decoder σ) (s : σ) {r : CqDecring w} (heof : r.eof = true)
    (halone : LeftAlone (pumpTopUp r).stage) :
    (cqDecringPump d s r).ring = pumpTopUp r ∧ (cqDecringPump d s r).dec = s := by
  have hstop : pumpRound d (pumpStart s r) = (pumpStart s r, false) := by
    refine pumpRound_leftAlone ?_ halone
    rw [pumpStart, pumpTopUp_spec]
    exact heof
  rw [cqDecringPump, pumpLoop, hstop]
  exact ⟨rfl, rfl⟩

/-- **A pass changes nothing** when there is nothing to top up and the stage is left alone. -/
theorem pump_leftAlone (d : Mp3Decoder σ) (s : σ) {r : CqDecring w} (htake : topUpTake r = 0)
    (heof : r.eof = true) (halone : LeftAlone r.stage) :
    (cqDecringPump d s r).ring = r ∧ (cqDecringPump d s r).dec = s := by
  have htop : pumpTopUp r = r := by rw [pumpTopUp, htake, if_pos rfl]
  have hpass := pump_eq_topUp d s heof (htop.symm ▸ halone)
  rw [htop] at hpass
  exact hpass

/-- At the end of a stream: a pass changes nothing exactly when the stage is left alone. -/
theorem pump_eq_self_iff {d : Mp3Decoder σ} (hd : d.Advances) (s : σ) {r : CqDecring w}
    (heof : r.eof = true) (hempty : r.compWr = r.compRd) (hroom : PcmRoom r) :
    (cqDecringPump d s r).ring = r ↔ LeftAlone r.stage := by
  obtain ⟨htake, htop⟩ := pumpTopUp_of_eq hempty
  constructor
  · intro hsame
    by_contra halone
    rw [← htop] at halone
    have hlt := stage_pump_lt hd s heof hroom halone
    rw [hsame, htop] at hlt
    exact Nat.lt_irrefl _ hlt
  · intro halone
    exact (pump_leftAlone d s htake heof halone).1

/-! ## What is played out -/

/-- Bytes at the end of a stream that leave no frame behind: coherent frames one after the other, and then
bytes in which nothing can be confirmed. Junk in front of the first frame needs a stage of more than 8192
bytes, which the sync realigns. -/
inductive Playable : Bytes → Prop where
  /-- Nothing can be confirmed. -/
  | rest {xs : Bytes} (hnone : ∀ off, ¬ RealFrame xs off) : Playable xs
  /-- A frame, and behind it the end or a coherent header. -/
  | frame {version samplerate : Nat} {b xs : Bytes} (hb : IsFrame version samplerate b)
      (hnext : NextOk version samplerate xs) (hplay : Playable xs) : Playable (b ++ xs)
  /-- Junk that a resync skips. -/
  | junk {xs : Bytes} {off : Nat} {f : CqMp3Frame} (hdeep : 8192 < xs.length) (hwalk : walkFrames xs 2 = 0)
      (hsync : cqMp3Sync xs = some (off, f)) (hplay : Playable (xs.drop off)) : Playable xs

/-- What a round leaves of its stage is the end of it. -/
theorem rest_pumpRound (d : Mp3Decoder σ) (p : Pass w σ) :
    (pumpRound d p).1.rest = p.rest.drop ((pumpRound d p).1.used - p.used) := by
  have hused := used_le_pumpRound d p
  rw [Pass.rest, (pumpRound_frame d p).1, Pass.rest, List.drop_drop]
  congr 1
  omega

/-- A frame that the gate does not let through is all but the last one. -/
theorem length_le_of_held {version samplerate : Nat} {b xs : Bytes} (hb : IsFrame version samplerate b)
    (hnext : NextOk version samplerate xs) {eof : Bool} (hgate : GateHolds eof (b ++ xs)) :
    (b ++ xs).length ≤ 8192 := by
  have hbounds := hb.length_bounds
  rw [List.length_append]
  rcases hnext with rfl | ⟨-, g, hg, hv, hr⟩
  · rw [List.length_nil]
    omega
  · have hbytes := frameBytes_bounds hg
    by_cases hfits : g.frameBytes ≤ xs.length
    · -- the frame behind it is whole, so there are two
      exfalso
      have hc : IsFrame version samplerate (xs.take g.frameBytes) := by
        refine ⟨g, ?_, ?_, hv, hr⟩
        · rw [cqMp3Parse_take hbytes.1]
          exact hg
        · rw [List.length_take]
          omega
      have hwalk := (walkFrames_frame hb).2 _ (xs.drop g.frameBytes) hc (List.take_append_drop _ _).symm
      rw [GateHolds, hwalk] at hgate
      split at hgate <;> omega
    · omega

/-- **Every round leaves playable bytes playable.** -/
theorem Playable.round {d : Mp3Decoder σ} (hd : d.Bounded)
    (hexact : ∀ version samplerate, FrameExact d version samplerate) {p : Pass w σ} (h : Playable p.rest) :
    Playable (pumpRound d p).1.rest := by
  generalize hxs : p.rest = xs at h
  cases h with
  | rest hnone =>
      -- any end of such bytes is such again
      apply Playable.rest
      intro off
      rw [rest_pumpRound, hxs, realFrame_drop]
      exact hnone _
  | frame hb hnext hplay =>
      by_cases hroom : PcmRoom p.ring
      · by_cases hgate : GateHolds p.ring.eof p.rest
        · -- the last staged frame waits for its successor
          have hshort := length_le_of_held hb hnext (hxs ▸ hgate)
          rw [pumpRound_held (hxs ▸ hshort) hgate, hxs]
          exact .frame hb hnext hplay
        · rw [pumpRound_decode (hexact _ _) hroom hxs hb hnext hgate]
          rw [(decodeFrame_rest hd hxs hroom).1]
          exact hplay
      · rw [pumpRound, if_pos hroom, hxs]
        exact .frame hb hnext hplay
  | junk hdeep hwalk hsync hplay =>
      by_cases hroom : PcmRoom p.ring
      · have hpos : 0 < p.rest.length := by rw [hxs]; omega
        have hgate : GateHolds p.ring.eof p.rest := by
          rw [GateHolds, hxs, hwalk]
          split <;> omega
        have hoff := sync_pos_of_gate (hxs ▸ hgate) hdeep hsync
        rw [pumpRound_resync d ⟨hroom, used_lt_of_rest hpos, hgate⟩ (hxs ▸ hdeep) (hxs ▸ hsync) hoff]
        show Playable (p.ring.stage.drop (p.used + _))
        rw [← List.drop_drop]
        rw [Pass.rest] at hxs
        rw [hxs]
        exact hplay
      · rw [pumpRound, if_pos hroom, hxs]
        exact .junk hdeep hwalk hsync hplay

/-! ## The end of a stream -/

namespace Spsc

/-- The end is raised, and every committed byte is staged. -/
def Complete (s : Spsc w σ) : Prop := s.ring.eof = true ∧ s.ring.compWr = s.ring.compRd

/-- The committed bytes that the pump has not used up. -/
def remaining (s : Spsc w σ) : Bytes := s.staged ++ s.compLog.sent.drop s.compLog.taken.length

end Spsc

/-- The step behind which the stream is complete, as its state tells. -/
def Completes (s : Spsc w σ) : SpscStep → Prop
  | .eof => s.ring.eof = false ∧ s.ring.compWr = s.ring.compRd
  | .topUp v =>
      s.ring.eof = true ∧ s.ring.compWr ≠ s.ring.compRd ∧ v = s.compLog.sent.length ∧
        backlog s.ring ≤ cqDecringStage - s.ring.stage.length
  | _ => False

instance (s : Spsc w σ) (a : SpscStep) : Decidable (Completes s a) :=
  match a with
  | .eof | .topUp _ => inferInstanceAs (Decidable (_ ∧ _))
  | .claim _ | .fill _ | .commit | .round _ _ | .finish | .read _ _ => isFalse id

/-- Nothing is written behind the end of the stream, and when the stream is complete its remaining bytes are
playable. -/
def EndsPlayable (s : Spsc w σ) (a : SpscStep) : Prop :=
  ((∃ xs, a = .fill xs) ∨ a = .commit → s.ring.eof = false) ∧ (Completes s a → Playable s.remaining)

/-- With the stream complete, what is staged is playable. -/
structure Spsc.Ends (s : Spsc w σ) : Prop where
  inv : s.Inv
  divide : SizesDivide s.ring
  playable : s.Complete → Playable s.staged

/-- When everything is staged nothing else remains. -/
theorem Spsc.Complete.remaining_eq {s : Spsc w σ} (h : s.Inv) (hend : s.ring.compWr = s.ring.compRd) :
    s.remaining = s.staged := by
  rw [Spsc.remaining, taken_eq_sent h hend, List.drop_length, List.append_nil]

/-- A top-up that leaves nothing in the compressed ring has staged all that remained. -/
theorem staged_afterTopUp {s : Spsc w σ} (hpass : s.pass = none) {v : Nat} (hinv : (s.afterTopUp v).Inv)
    (hend : (s.afterTopUp v).ring.compWr = (s.afterTopUp v).ring.compRd) :
    (s.afterTopUp v).staged = s.remaining ∧
      s.compLog.taken.length + topUpTake (s.topUpView v) = s.compLog.sent.length := by
  have hall := taken_eq_sent hinv hend
  have hwhole : s.staged = s.ring.stage := by simp [Spsc.staged, Spsc.used, hpass]
  have hstage := pumpTopUp_spec (s.topUpView v)
  have hlen := length_ringRead (s.topUpView v).compSize.toNat (s.topUpView v).comp
    ((s.topUpView v).compRd % (s.topUpView v).compSize).toNat (topUpTake (s.topUpView v))
  generalize ringRead _ _ _ _ = xs at hstage hlen
  rw [Spsc.afterTopUp, hstage] at hall ⊢
  simp only [Spsc.topUpView, List.drop_left, RingLog.take, RingLog.lookSent] at hall ⊢
  rw [Spsc.remaining, hwhole, ← hall, List.drop_left, List.length_append, hlen]
  exact ⟨rfl, rfl⟩

/-- The top-up that completes a stream is known by the state before it. -/
theorem completes_of_topUp {s : Spsc w σ} (h : s.Inv) (hpass : s.pass = none) {v : Nat}
    (hv : Visible true s.compLog.seenSent v s.compLog.sent.length) (hinv : (s.afterTopUp v).Inv)
    (heof : s.ring.eof = true) (hopen : s.ring.compWr ≠ s.ring.compRd)
    (hend : (s.afterTopUp v).ring.compWr = (s.afterTopUp v).ring.compRd) : Completes s (.topUp v) := by
  obtain ⟨-, htake⟩ := staged_afterTopUp hpass hinv hend
  have htaken := h.comp.taken_le_sent
  have hsent := h.comp.sent_le
  have hsize := s.ring.compSize.isLt
  have hseen := h.comp.taken_le.trans (hv.2 rfl)
  have hle := hv.1
  have hbacklog : backlog s.ring = s.compLog.sent.length - s.compLog.taken.length := by
    rw [backlog, h.compWr, h.compRd, toNat_counter_sub htaken (by omega)]
  have hpos : backlog s.ring ≠ 0 := fun hzero => hopen (backlog_eq_zero_iff.1 hzero)
  -- it has taken as much as it saw and had room for
  have htaking : topUpTake (s.topUpView v) =
      min (v - s.compLog.taken.length) (cqDecringStage - s.ring.stage.length) :=
    topUpTake_spec rfl h.compRd hseen (by omega)
  rw [htaking] at htake
  exact ⟨heof, hopen, by omega, by omega⟩

/-- **Every step** that meets the condition keeps the end playable. -/
theorem Spsc.Ends.step {d : Mp3Decoder σ} (hd : d.Bounded)
    (hexact : ∀ version samplerate, FrameExact d version samplerate) {s t : Spsc w σ} {a : SpscStep}
    (h : s.Ends) (hok : EndsPlayable s a) (ht : s.step true d a = some t) : t.Ends := by
  have hinv := h.inv.step hd (Spsc.Addressed.of_divide h.divide) ht
  obtain ⟨hcomp, hpcm, -, -⟩ := Spsc.step_sizes ht
  refine ⟨hinv, ⟨hcomp ▸ h.divide.comp_dvd, hpcm ▸ h.divide.pcm_dvd⟩, ?_⟩
  cases Spsc.stepped_of_step ht with
  | claim => exact h.playable
  | fill =>
      rintro ⟨heof, -⟩
      have hfalse := hok.1 (Or.inl ⟨_, rfl⟩)
      cases hfalse.symm.trans heof
  | commit =>
      rintro ⟨heof, -⟩
      have hfalse := hok.1 (Or.inr rfl)
      cases hfalse.symm.trans heof
  | eof =>
      rintro ⟨-, hend⟩
      cases heof : s.ring.eof with
      | false =>
          have hplay := hok.2 ⟨heof, hend⟩
          rw [Spsc.Complete.remaining_eq h.inv hend] at hplay
          exact hplay
      | true => exact h.playable ⟨heof, hend⟩
  | topUp hpass hv =>
      rintro ⟨heof, hend⟩
      rw [(staged_afterTopUp hpass hinv hend).1]
      have heof' : s.ring.eof = true := (Spsc.afterTopUp_keeps s _).1.symm.trans heof
      by_cases hcomplete : s.ring.compWr = s.ring.compRd
      · rw [Spsc.Complete.remaining_eq h.inv hcomplete]
        exact h.playable ⟨heof', hcomplete⟩
      · exact hok.2 (completes_of_topUp h.inv hpass hv hinv heof' hcomplete hend)
  | @round v eof used progress hpass hv heof =>
      rintro ⟨hraised, hend⟩
      have hframe := pumpRound_frame d (s.roundView ⟨used, progress, false⟩ v eof)
      obtain ⟨-, -, -, hwr, hrd⟩ := hframe
      have hplay := h.playable ⟨hraised, hwr.symm.trans (hend.trans hrd)⟩
      rw [← rest_roundPass (roundPass_of_pass d hpass hv heof)] at hplay
      exact hplay.round hd hexact
  | finish hpass =>
      rintro hcomplete
      have hplay := h.playable hcomplete
      rw [Spsc.staged, Spsc.used, hpass] at hplay
      exact hplay
  | read => exact h.playable

/-! ## Frames left behind -/

/-- At the end of a stream, a stage in which a pass changes nothing holds no frame that can be
confirmed. -/
def NoFrameLeft (d : Mp3Decoder σ) (s : Spsc w σ) : Prop :=
  s.pass = none → s.Complete → PcmRoom s.ring → (cqDecringPump d s.dec s.ring).ring = s.ring →
    ∀ off, ¬ RealFrame s.ring.stage off

/-- Playable bytes that a pass leaves alone are at their end. -/
theorem Playable.of_leftAlone {xs : Bytes} (h : Playable xs) (halone : LeftAlone xs) (off : Nat) :
    ¬ RealFrame xs off := by
  rcases halone with rfl | ⟨hshort, hgate⟩
  · exact fun hreal => absurd hreal.lt_length (Nat.not_lt_zero off)
  · cases h with
    | rest hnone => exact hnone off
    | @frame version samplerate b ys hb _ _ =>
        -- a whole frame at the head opens the gate
        obtain ⟨f, hf, hbytes, -⟩ := hb.parse_append ys
        have hwalk : 1 ≤ walkFrames (b ++ ys) 2 :=
          (one_le_walkFrames_iff _).2 ⟨f, hf, by rw [List.length_append]; omega⟩
        rw [GateHolds, if_pos rfl] at hgate
        omega
    | junk hdeep _ _ _ => omega

/-- A run without a `cq_decring_eof` completes nothing. -/
theorem meets_endsPlayable {d : Mp3Decoder σ} {s : Spsc w σ} (heof : s.ring.eof = false) {steps : List SpscStep}
    (h : Meets (Spsc.step true d) (fun _ a => a ≠ .eof) s steps) :
    Meets (Spsc.step true d) EndsPlayable s steps := by
  refine meets_of_meets (fun u => u.ring.eof = false) ?_ ?_ heof h
  · intro u a t hu hne ht
    cases Spsc.stepped_of_step ht with
    | eof => exact absurd rfl hne
    | topUp => exact (Spsc.afterTopUp_keeps u _).1.trans hu
    | claim | fill | commit | round | finish | read => exact hu
  · intro u a hu hne
    refine ⟨fun _ => hu, ?_⟩
    intro hcompletes
    cases a with
    | eof => exact absurd rfl hne
    | topUp v => cases hu.symm.trans hcompletes.1
    | claim | fill | commit | round | finish | read => exact False.elim hcompletes

/-- Deep junk, two frames, and the beginning of a third one. -/
def junked : Bytes := List.replicate 8193 0 ++ (shortFrame ++ (shortFrame ++ shortFrame.take 10))

theorem length_junked : junked.length = 8251 := by
  simp only [junked, List.length_append, List.length_replicate]
  rfl

theorem playable_junked : Playable junked := by
  obtain ⟨f, hsync⟩ := sync_zeros_frames 8193 isFrame_shortFrame isFrame_shortFrame (shortFrame.take 10)
  have hdeep : 8192 < junked.length := by
    rw [length_junked]
    decide
  have hnext : NextOk 2 24000 (shortFrame.take 10) :=
    Or.inr ⟨by decide, ⟨2, 8, 24000, 1, 576, 24⟩, by decide +kernel⟩
  refine .junk hdeep (walkFrames_zeros _ (by decide) 2) hsync ?_
  rw [junked, List.drop_left' List.length_replicate]
  refine .frame isFrame_shortFrame (isFrame_shortFrame.nextOk _) (.frame isFrame_shortFrame hnext (.rest ?_))
  intro off hreal
  have hoff : off < 10 := hreal.lt_length
  have hnone : ∀ i : Fin 10, ¬ RealFrame (shortFrame.take 10) i.val := by decide +kernel
  exact hnone ⟨off, hoff⟩ hreal

/-- `xs` is staged, and the end is raised. -/
def lastPass (xs : Bytes) : Spsc 32 Unit := { firstPass xs with ring := cqDecringEof (firstPass xs).ring }

theorem step_firstPass (xs : Bytes) : (firstPass xs).step true silenceDecoder .eof = some (lastPass xs) := rfl

theorem roundPass_lastPass {xs : Bytes} (hfit : xs.length ≤ 32768) :
    ∃ p, (lastPass xs).roundPass silenceDecoder (.round 0 true) = some p ∧ p.rest = xs ∧
      p.ring.eof = true ∧ (pcmSpace p.ring).toNat = 16384 ∧ p.ring.resyncs = 0 := by
  obtain ⟨-, hstage, hspace, hresyncs, -⟩ := run_firstPass hfit
  exact ⟨_, roundPass_of_pass silenceDecoder rfl ⟨le_refl _, fun _ => le_refl _⟩ (fun _ => rfl), hstage, rfl,
    hspace, hresyncs⟩

/-- **The rounds behind the end**: the junk is skipped, two frames are decoded, and the rest stays staged. -/
theorem rounds_junked : ∃ s,
    run (Spsc.step true silenceDecoder) (lastPass junked) (List.replicate 4 (.round 0 true) ++ [.finish]) = some s ∧
      s.ring.stage = shortFrame.take 10 ∧ s.ring.resyncs = 1 := by
  obtain ⟨p, hp, hrest, heof, hspace, hresyncs⟩ := roundPass_lastPass (show junked.length ≤ 32768 by
    rw [length_junked]
    decide)
  obtain ⟨s₁, q, s₂, r, hs₁, -, hs₂, hr, -, -, hrest₂, heof₂, hroom₂, hresyncs₂, -⟩ :=
    rounds_junk_frame hp hrest (by rw [hspace]; decide)
  -- the second frame is decoded because the stream has ended
  have hcut : walkFrames (shortFrame.take 10) 1 = 0 := by decide +kernel
  have hnext : NextOk 2 24000 (shortFrame.take 10) :=
    Or.inr ⟨by decide, ⟨2, 8, 24000, 1, 576, 24⟩, by decide +kernel⟩
  have hopen₂ : ¬ GateHolds r.ring.eof r.rest := by
    rw [GateHolds, hrest₂, (walkFrames_frame isFrame_shortFrame).1 hcut, heof₂, heof]
    decide
  obtain ⟨s₃, u, hs₃, hu, hrest₃, heof₃, -, hresyncs₃, -⟩ :=
    round_decode silenceDecoder_bounded (silenceDecoder_exact 2 24000) hr hrest₂ isFrame_shortFrame hnext
      hroom₂ hopen₂
  -- what is left is no whole frame
  have hheld : pumpRound silenceDecoder u = (u, false) := by
    apply pumpRound_leftAlone (heof₃.trans (heof₂.trans heof))
    rw [hrest₃]
    exact Or.inr ⟨by decide, by decide +kernel⟩
  obtain ⟨s₄, hs₄, hring, hpass, -⟩ := step_roundPass hu
  rw [hheld] at hring hpass
  obtain ⟨s₅, hs₅, hstage₅, hresyncs₅⟩ : ∃ s₅, s₄.step true silenceDecoder .finish = some s₅ ∧
      s₅.ring.stage = s₄.ring.stage.drop u.used ∧ s₅.ring.resyncs = s₄.ring.resyncs := by
    simp only [Spsc.step, hpass]
    exact ⟨_, rfl, rfl, rfl⟩
  refine ⟨s₅, ?_, ?_, ?_⟩
  · rw [run_append, List.replicate_succ, run_cons, hs₁, Option.bind_some, List.replicate_succ, run_cons, hs₂,
      Option.bind_some, List.replicate_succ, run_cons, hs₃, Option.bind_some, List.replicate_succ, run_cons,
      hs₄, Option.bind_some, List.replicate_zero, run_nil, Option.bind_some, run_cons, hs₅]
    rfl
  · rw [hstage₅, hring]
    exact hrest₃
  · rw [hresyncs₅, hring]
    show u.ring.resyncs = 1
    omega

/-- The steps of the run. -/
def junkedSteps : List SpscStep := stageSteps junked ++ (.eof :: (List.replicate 4 (.round 0 true) ++ [.finish]))

/-- **Short junk swallows the frames behind it**: once the stream is complete, a pass changes nothing of a stage
of at most 8192 bytes that does not begin with a whole frame. -/
theorem short_junk_swallows (d : Mp3Decoder σ) {s : Spsc w σ} (hpass : s.pass = none) (hcomplete : s.Complete)
    (hroom : PcmRoom s.ring) (hshort : s.ring.stage.length ≤ 8192) (hjunk : walkFrames s.ring.stage 2 = 0)
    {off : Nat} (hreal : RealFrame s.ring.stage off) : ¬ NoFrameLeft d s := by
  have hgate : GateHolds true s.ring.stage := by
    rw [GateHolds, hjunk, if_pos rfl]
    exact Nat.one_pos
  have hsame := (pump_leftAlone d s.dec (pumpTopUp_of_eq hcomplete.2).1 hcomplete.1
    (Or.inr ⟨hshort, hgate⟩)).1
  exact fun hnone => hnone hpass hcomplete hroom hsame off hreal

end Casquinha.Decode
