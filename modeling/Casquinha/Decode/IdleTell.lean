import Casquinha.Decode.Leftover
import Casquinha.Decode.Resync

/-!
# The pump's idle tell

`cq_decring_pump` returns 0 for a pass without progress, and its callers stop pumping then. Progress is
noted by the top-up and by a decoder call that has consumed something. A pass without progress leaves both
rings as they were (`pumpLoop_noProgress`), but the gate's branch notes nothing when it skips or flushes
staged bytes. `OnlyDrops` says when that is all that a pass does: a pass tells the truth in all other states
(`truthful_iff`).

Such a state is left by a pass that stages junk while the PCM ring is full (`junkDrained`).
-/

set_option autoImplicit false

namespace Casquinha.Decode

open Lib

variable {w : Nat} {σ : Type}

/-- The cursors of the compressed ring, the stage and the PCM ring are the same. -/
structure Untouched (r r' : CqDecring w) : Prop where
  compWr_eq : r'.compWr = r.compWr
  compRd_eq : r'.compRd = r.compRd
  stage_eq : r'.stage = r.stage
  pcm_eq : r'.pcm = r.pcm
  pcmWr_eq : r'.pcmWr = r.pcmWr
  pcmRd_eq : r'.pcmRd = r.pcmRd

/-- A pass that reports no progress has done nothing. -/
def Truthful (d : Mp3Decoder σ) (s : σ) (r : CqDecring w) : Prop :=
  (cqDecringPump d s r).progress = false → Untouched r (cqDecringPump d s r).ring

/-- Behind a resync by `off` bytes the pass ends: the gate holds there too, or the decoder wants more
bytes. -/
def EndsBehind (d : Mp3Decoder σ) (s : σ) (r : CqDecring w) (off : Nat) : Prop :=
  GateHolds r.eof (r.stage.drop off) ∨ (cqMp3decFrame d s (r.stage.drop off)).2.consumed ≤ 0

/-- Nothing can be topped up, the gate holds a deep stage and there is room for PCM; the sync finds no frame,
or one behind which the pass ends. -/
structure OnlyDrops (d : Mp3Decoder σ) (s : σ) (r : CqDecring w) : Prop where
  no_topUp : r.compWr = r.compRd ∨ cqDecringStage ≤ r.stage.length
  room : PcmRoom r
  gate : GateHolds r.eof r.stage
  deep : 8192 < r.stage.length
  ends : ∀ off f, cqMp3Sync r.stage = some (off, f) → EndsBehind d s r off

/-- The top-up takes nothing from an empty compressed ring, or into a full stage. -/
theorem topUpTake_eq_zero_iff {r : CqDecring w} :
    topUpTake r = 0 ↔ r.compWr = r.compRd ∨ cqDecringStage ≤ r.stage.length := by
  have havail : (r.compWr - r.compRd).toNat = 0 ↔ r.compWr = r.compRd := by
    constructor
    · intro hzero
      have hdiff : r.compWr - r.compRd = 0#w := BitVec.eq_of_toNat_eq hzero
      rw [← BitVec.sub_add_cancel r.compWr r.compRd, hdiff, BitVec.zero_add]
    · intro heq
      rw [heq, BitVec.sub_self]
      rfl
  rw [← havail]
  simp only [topUpTake]
  split <;> omega

/-! ## Rounds without progress -/

/-- A round makes progress, or it leaves the flag and the PCM ring as they are. -/
theorem pumpRound_progress (d : Mp3Decoder σ) (p : Pass w σ) :
    (pumpRound d p).1.progress = true ∨
      ((pumpRound d p).1.progress = p.progress ∧ (pumpRound d p).1.ring.pcm = p.ring.pcm ∧
        (pumpRound d p).1.ring.pcmWr = p.ring.pcmWr) := by
  rw [pumpRound]
  split
  · exact Or.inr ⟨rfl, rfl, rfl⟩
  · split
    · exact Or.inr ⟨rfl, rfl, rfl⟩
    · split
      · -- the gate's branch does not touch the flag
        right
        rw [pumpHeld]
        split
        · split
          · split <;> exact ⟨rfl, rfl, rfl⟩
          · exact ⟨rfl, rfl, rfl⟩
        · exact ⟨rfl, rfl, rfl⟩
      · simp only [pumpDecode]
        split
        · exact Or.inr ⟨rfl, rfl, rfl⟩
        · left
          split <;> rfl

/-- A loop without progress started without, and has put nothing into the PCM ring. -/
theorem pumpLoop_noProgress {d : Mp3Decoder σ} :
    ∀ (fuel : Nat) (p : Pass w σ), (pumpLoop d fuel p).progress = false →
      p.progress = false ∧ (pumpLoop d fuel p).ring.pcm = p.ring.pcm ∧
        (pumpLoop d fuel p).ring.pcmWr = p.ring.pcmWr := by
  intro fuel
  induction fuel with
  | zero => exact fun p h => ⟨h, rfl, rfl⟩
  | succ fuel ih =>
      intro p h
      have hround : (pumpRound d p).1.progress = false → p.progress = false ∧
          (pumpRound d p).1.ring.pcm = p.ring.pcm ∧ (pumpRound d p).1.ring.pcmWr = p.ring.pcmWr := by
        intro hfalse
        rcases pumpRound_progress d p with htrue | ⟨hsame, hpcm, hwr⟩
        · cases htrue.symm.trans hfalse
        · exact ⟨hsame.symm.trans hfalse, hpcm, hwr⟩
      rw [pumpLoop] at h ⊢
      cases hres : pumpRound d p with
      | mk p' go =>
          rw [hres] at h hround
          cases go with
          | false => exact hround h
          | true =>
              obtain ⟨hp', hpcm, hwr⟩ := ih p' h
              obtain ⟨hp, hpcm', hwr'⟩ := hround hp'
              exact ⟨hp, hpcm.trans hpcm', hwr.trans hwr'⟩

/-- Progress is kept to the end of the loop. -/
theorem progress_pumpLoop (d : Mp3Decoder σ) (fuel : Nat) {p : Pass w σ} (hp : p.progress = true) :
    (pumpLoop d fuel p).progress = true := by
  cases hend : (pumpLoop d fuel p).progress with
  | true => rfl
  | false => cases hp.symm.trans (pumpLoop_noProgress fuel p hend).1

/-! ## The gate with a deep stage -/

/-- With PCM space the gate holds a stage from which it may drop something. -/
structure HoldsDeep (p : Pass w σ) : Prop where
  room : PcmRoom p.ring
  gate : GateHolds p.ring.eof p.rest
  deep : 8192 < p.rest.length

/-- What the gate does with a deep stage: it skips to the frame that the sync finds and goes on, or it
flushes everything. -/
theorem HoldsDeep.pumpRound_eq (d : Mp3Decoder σ) {p : Pass w σ} (h : HoldsDeep p) :
    (cqMp3Sync p.rest = none ∧ (pumpRound d p).1.used = p.ring.stage.length ∧
      (pumpRound d p).1.progress = p.progress ∧ (pumpRound d p).2 = false) ∨
    ∃ off f, cqMp3Sync p.rest = some (off, f) ∧ 0 < off ∧
      pumpRound d p =
        ({ p with
          ring :=
            { p.ring with
              resyncs := p.ring.resyncs + 1
              resyncBytes := p.ring.resyncBytes + off }
          used := p.used + off }, true) := by
  have hlen : p.rest.length = p.ring.stage.length - p.used := List.length_drop
  have hdeep := h.deep
  have hround : pumpRound d p = pumpHeld p := by
    rw [pumpRound, if_neg (not_not.2 h.room), if_neg (by omega), if_pos h.gate]
  rw [hround, pumpHeld, if_pos hdeep]
  cases hsync : cqMp3Sync p.rest with
  | none => exact Or.inl ⟨rfl, rfl, rfl, rfl⟩
  | some answer =>
      obtain ⟨off, f⟩ := answer
      have hoff := sync_pos_of_gate h.gate hdeep hsync
      right
      refine ⟨off, f, rfl, hoff, ?_⟩
      simp only [if_pos hoff]

/-- A flush ends the loop, and is no progress. -/
theorem HoldsDeep.pumpLoop_flush (d : Mp3Decoder σ) (fuel : Nat) {p : Pass w σ} (h : HoldsDeep p)
    (hsync : cqMp3Sync p.rest = none) :
    (pumpLoop d (fuel + 1) p).used = p.ring.stage.length ∧
      (pumpLoop d (fuel + 1) p).progress = p.progress := by
  rcases h.pumpRound_eq d with ⟨-, hround⟩ | ⟨off, f, hfound, -⟩
  · rw [pumpLoop]
    cases hres : pumpRound d p with
    | mk p' go =>
        rw [hres] at hround
        obtain ⟨hused, hsame, hstop⟩ := hround
        cases hstop
        exact ⟨hused, hsame⟩
  · cases hsync.symm.trans hfound

/-- The round hands the decoder bytes that it consumes something of. -/
structure Decodes (d : Mp3Decoder σ) (p : Pass w σ) : Prop where
  room : PcmRoom p.ring
  staged : p.used < p.ring.stage.length
  gate : ¬ GateHolds p.ring.eof p.rest
  consumes : 0 < (cqMp3decFrame d p.dec p.rest).2.consumed

/-- Any other round makes progress by decoding, or it ends the loop with nothing used. -/
theorem pumpRound_of_not_holdsDeep (d : Mp3Decoder σ) {p : Pass w σ} (h : ¬ HoldsDeep p) :
    (Decodes d p ∧ (pumpRound d p).1.progress = true) ∨
      (¬ Decodes d p ∧ (pumpRound d p).1.used = p.used ∧ (pumpRound d p).1.progress = p.progress ∧
        (pumpRound d p).2 = false) := by
  rw [pumpRound]
  split
  · next hroom => exact Or.inr ⟨fun hdec => hroom hdec.room, rfl, rfl, rfl⟩
  · next hroom =>
    split
    · next hdry => exact Or.inr ⟨fun hdec => Nat.not_lt.2 hdry hdec.staged, rfl, rfl, rfl⟩
    · next hdry =>
      split
      · next hgate =>
        have hshallow : ¬ 8192 < p.rest.length := fun hdeep => h ⟨not_not.1 hroom, hgate, hdeep⟩
        rw [pumpHeld, if_neg hshallow]
        exact Or.inr ⟨fun hdec => hdec.gate hgate, rfl, rfl, rfl⟩
      · next hgate =>
        simp only [pumpDecode]
        split
        · next hstop => exact Or.inr ⟨fun hdec => Int.not_lt.2 hstop hdec.consumes, rfl, rfl, rfl⟩
        · next hgo =>
          left
          refine ⟨⟨not_not.1 hroom, Nat.lt_of_not_le hdry, hgate, Int.not_le.1 hgo⟩, ?_⟩
          split <;> rfl

/-- At a confirmed frame the gate may hold a shallow stage only. -/
theorem RealFrame.not_holdsDeep {p : Pass w σ} (h : RealFrame p.rest 0) : ¬ HoldsDeep p := by
  rintro ⟨-, hgate, hdeep⟩
  exact h.not_gateHolds (by omega) hgate

/-- Where the first round does not drop anything, the loop makes progress or uses nothing. -/
theorem pumpLoop_of_not_holdsDeep {d : Mp3Decoder σ} (fuel : Nat) {p : Pass w σ} (h : ¬ HoldsDeep p) :
    (Decodes d p ∧ (pumpLoop d (fuel + 1) p).progress = true) ∨
      (¬ Decodes d p ∧ (pumpLoop d (fuel + 1) p).used = p.used ∧
        (pumpLoop d (fuel + 1) p).progress = p.progress) := by
  have hround := pumpRound_of_not_holdsDeep d h
  rw [pumpLoop]
  cases hres : pumpRound d p with
  | mk p' go =>
      rw [hres] at hround
      rcases hround with ⟨hdec, hprogress⟩ | ⟨hnot, hused, hsame, hstop⟩
      · left
        cases go with
        | false => exact ⟨hdec, hprogress⟩
        | true => exact ⟨hdec, progress_pumpLoop d fuel hprogress⟩
      · cases hstop
        exact Or.inr ⟨hnot, hused, hsame⟩

/-! ## Passes -/

/-- A pass that has nothing to top up. -/
theorem pumpStart_of_take (s : σ) {r : CqDecring w} (h : topUpTake r = 0) :
    pumpStart s r =
      { ring := r
        dec := s
        used := 0
        progress := false
        fed := []
        decoded := [] } := by
  have htop : pumpTopUp r = r := by rw [pumpTopUp, h, if_pos rfl]
  rw [pumpStart, htop, h]
  rfl

/-- The pass behind the resync that its first round makes. -/
def resynced (s : σ) (r : CqDecring w) (off : Nat) : Pass w σ :=
  { ring :=
      { r with
        resyncs := r.resyncs + 1
        resyncBytes := r.resyncBytes + off }
    dec := s
    used := 0 + off
    progress := false
    fed := []
    decoded := [] }

theorem rest_resynced (s : σ) (r : CqDecring w) (off : Nat) :
    (resynced s r off).rest = r.stage.drop off := by
  rw [Pass.rest, resynced, Nat.zero_add]

/-- Behind the resync the pass ends, unless the next round decodes. -/
theorem endsBehind_iff {d : Mp3Decoder σ} {s : σ} {r : CqDecring w} {off : Nat} (hroom : PcmRoom r)
    (hoff : off < r.stage.length) : EndsBehind d s r off ↔ ¬ Decodes d (resynced s r off) := by
  have hrest := rest_resynced s r off
  constructor
  · rintro (hgate | hstop) hdec
    · have hopen := hdec.gate
      rw [hrest] at hopen
      exact hopen hgate
    · have hpos := hdec.consumes
      rw [hrest] at hpos
      exact Int.not_lt.2 hstop hpos
  · intro hnot
    by_contra hends
    rw [EndsBehind, not_or, Int.not_le] at hends
    apply hnot
    constructor
    · exact hroom
    · rw [resynced, Nat.zero_add]
      exact hoff
    · rw [hrest]
      exact hends.1
    · rw [hrest]
      exact hends.2

/-- A pass that starts with a resync uses something without progress exactly if it ends behind it. -/
theorem pumpLoop_drops_of_sync {d : Mp3Decoder σ} {s : σ} {r : CqDecring w} {off : Nat} {f : CqMp3Frame}
    (hdeep : HoldsDeep (⟨r, s, 0, false, [], []⟩ : Pass w σ)) (hsync : cqMp3Sync r.stage = some (off, f)) :
    ((pumpLoop d (r.stage.length + 1) ⟨r, s, 0, false, [], []⟩).progress = false ∧
      (pumpLoop d (r.stage.length + 1) ⟨r, s, 0, false, [], []⟩).used ≠ 0) ↔ EndsBehind d s r off := by
  have hconfirmed := (sync_some hsync).1
  have hlt : off < r.stage.length := hconfirmed.lt_length
  obtain ⟨m, hm⟩ : ∃ m, r.stage.length = m + 1 := ⟨r.stage.length - 1, by omega⟩
  have hoff : 0 < off := sync_pos_of_gate hdeep.gate hdeep.deep hsync
  have hloop : pumpLoop d (r.stage.length + 1) ⟨r, s, 0, false, [], []⟩ =
      pumpLoop d (m + 1) (resynced s r off) := by
    rcases hdeep.pumpRound_eq d with ⟨hnone, -⟩ | ⟨off', f', hfound, -, hround⟩
    · cases hsync.symm.trans hnone
    · cases hsync.symm.trans hfound
      rw [pumpLoop, hround, hm]
      rfl
  -- at the frame that was found the gate drops nothing more
  have hnot : ¬ HoldsDeep (resynced s r off) := by
    apply RealFrame.not_holdsDeep
    rw [rest_resynced, realFrame_drop, Nat.add_zero]
    exact hconfirmed
  rw [hloop, endsBehind_iff hdeep.room hlt]
  rcases pumpLoop_of_not_holdsDeep (d := d) m hnot with ⟨hdec, hprogress⟩ | ⟨hstops, hused, hsame⟩
  · constructor
    · rintro ⟨hnone, -⟩
      cases hprogress.symm.trans hnone
    · intro hends
      exact absurd hdec hends
  · constructor
    · intro _
      exact hstops
    · intro _
      refine ⟨hsame, ?_⟩
      rw [hused, resynced, Nat.zero_add]
      exact Nat.ne_of_gt hoff

/-- The loop of such a pass uses something without progress exactly if the pass only drops bytes. -/
theorem pumpLoop_drops_iff {d : Mp3Decoder σ} {s : σ} {r : CqDecring w} (htake : topUpTake r = 0) :
    ((pumpLoop d (r.stage.length + 1) (pumpStart s r)).progress = false ∧
      (pumpLoop d (r.stage.length + 1) (pumpStart s r)).used ≠ 0) ↔ OnlyDrops d s r := by
  rw [pumpStart_of_take s htake]
  by_cases hdeep : HoldsDeep (⟨r, s, 0, false, [], []⟩ : Pass w σ)
  · have hpre : ∀ hends, OnlyDrops d s r :=
      OnlyDrops.mk (topUpTake_eq_zero_iff.1 htake) hdeep.room hdeep.gate hdeep.deep
    cases hsync : cqMp3Sync r.stage with
    | none =>
        have hflush := hdeep.pumpLoop_flush d r.stage.length hsync
        constructor
        · intro _
          apply hpre
          intro off f hfound
          cases hsync.symm.trans hfound
        · intro _
          refine ⟨hflush.2, ?_⟩
          rw [hflush.1]
          exact Nat.ne_of_gt (Nat.zero_lt_of_lt hdeep.deep)
    | some answer =>
        obtain ⟨off, f⟩ := answer
        rw [pumpLoop_drops_of_sync hdeep hsync]
        constructor
        · intro hends
          apply hpre
          intro off' f' hfound
          cases hsync.symm.trans hfound
          exact hends
        · intro h
          exact h.ends off f hsync
  · constructor
    · rintro ⟨hnone, hused⟩
      rcases pumpLoop_of_not_holdsDeep (d := d) r.stage.length hdeep with
        ⟨-, hprogress⟩ | ⟨-, hzero, -⟩
      · cases hprogress.symm.trans hnone
      · exact absurd hzero hused
    · intro h
      exact absurd ⟨h.room, h.gate, h.deep⟩ hdeep

@[simp] theorem pumpFinish_progress (p : Pass w σ) : (pumpFinish p).progress = p.progress := rfl

/-- A pass without progress had nothing to top up. -/
theorem take_of_noProgress {d : Mp3Decoder σ} {s : σ} {r : CqDecring w}
    (h : (cqDecringPump d s r).progress = false) : topUpTake r = 0 := by
  rw [cqDecringPump, pumpFinish_progress] at h
  have hstart := (pumpLoop_noProgress _ _ h).1
  simpa [pumpStart] using hstart

/-- Such a pass is its loop, over the ring as it is. -/
theorem cqDecringPump_of_take (d : Mp3Decoder σ) (s : σ) {r : CqDecring w} (h : topUpTake r = 0) :
    cqDecringPump d s r = pumpFinish (pumpLoop d (r.stage.length + 1) (pumpStart s r)) := by
  have htop : (pumpStart s r).ring = r := by rw [pumpStart_of_take s h]
  rw [cqDecringPump]
  simp only [htop]

/-- A pass without progress leaves both rings alone. All that it changes is in the stage. -/
theorem untouched_iff {d : Mp3Decoder σ} {s : σ} {r : CqDecring w}
    (h : (cqDecringPump d s r).progress = false) :
    Untouched r (cqDecringPump d s r).ring ↔
      r.stage.drop (pumpLoop d (r.stage.length + 1) (pumpStart s r)).used = r.stage := by
  have htake := take_of_noProgress h
  have hring : (pumpStart s r).ring = r := by rw [pumpStart_of_take s htake]
  have hpass := cqDecringPump_of_take d s htake
  rw [hpass, pumpFinish_progress] at h
  rw [hpass]
  obtain ⟨-, hpcm, hwr⟩ := pumpLoop_noProgress (r.stage.length + 1) (pumpStart s r) h
  obtain ⟨hstage, -, hrd, hcw, hcr⟩ := pumpLoop_frame d (r.stage.length + 1) (pumpStart s r)
  rw [hring] at hpcm hwr hstage hrd hcw hcr
  simp only [pumpFinish, hstage]
  constructor
  · intro hsame
    exact hsame.stage_eq
  · intro hsame
    exact ⟨hcw, hcr, hsame, hpcm, hwr, hrd⟩

theorem drop_eq_self_iff {α : Type} {n : Nat} {l : List α} : l.drop n = l ↔ n = 0 ∨ l = [] := by
  constructor
  · intro hsame
    have hlen := congrArg List.length hsame
    rw [List.length_drop] at hlen
    rw [← List.length_eq_zero_iff]
    omega
  · rintro (rfl | rfl)
    · rfl
    · exact List.drop_nil

/-- A pass is untruthful exactly if dropping staged bytes is all that it does. -/
theorem not_truthful_iff (d : Mp3Decoder σ) (s : σ) (r : CqDecring w) :
    ¬ Truthful d s r ↔ OnlyDrops d s r := by
  rw [Truthful, Classical.not_imp]
  constructor
  · rintro ⟨hnone, htouched⟩
    have htake := take_of_noProgress hnone
    rw [untouched_iff hnone, drop_eq_self_iff, not_or] at htouched
    rw [cqDecringPump_of_take d s htake, pumpFinish_progress] at hnone
    exact (pumpLoop_drops_iff htake).1 ⟨hnone, htouched.1⟩
  · intro h
    have htake := topUpTake_eq_zero_iff.2 h.no_topUp
    obtain ⟨hnone, hused⟩ := (pumpLoop_drops_iff htake).2 h
    have hpass : (cqDecringPump d s r).progress = false := by
      rw [cqDecringPump_of_take d s htake, pumpFinish_progress]
      exact hnone
    have hdeep := h.deep
    refine ⟨hpass, ?_⟩
    rw [untouched_iff hpass, drop_eq_self_iff, not_or]
    refine ⟨hused, ?_⟩
    intro hnil
    rw [hnil] at hdeep
    exact absurd hdeep (Nat.not_lt_zero 8192)

/-- **When the idle tell is truthful**: in every state but those in which a pass only drops staged bytes. -/
theorem idle_tell_truthful_iff (d : Mp3Decoder σ) (s : σ) (r : CqDecring w) :
    Truthful d s r ↔ ¬ OnlyDrops d s r := by
  rw [← not_truthful_iff, not_not]

/-! ## Junk staged while the PCM ring is full -/

/-- More junk than the tail gate holds back. -/
def junk : Bytes := List.replicate 8193 0

/-- The junk has been committed, and the PCM ring of 8 KB is full. -/
def junkRing : CqDecring 32 :=
  cqDecringCommit (fillClaim (cqDecringInit (fun _ => 0) 16384 (fun _ => 0) 8192 8192 0) 0 junk) 8193

/-- One pass has staged the junk, and the interrupt has then read all the PCM. -/
def junkDrained : CqDecring 32 :=
  { (cqDecringPump silenceDecoder () junkRing).ring with pcmRd := 8192 }

theorem length_junk : junk.length = 8193 := List.length_replicate

theorem topUpTake_junkRing : topUpTake junkRing = 8193 := by
  have havail : (junkRing.compWr - junkRing.compRd).toNat = 8193 := by
    change ((0 : BitVec 32) + BitVec.ofNat 32 8193 - 0).toNat = 8193
    decide
  have hroom : cqDecringStage - junkRing.stage.length = cqDecringStage := rfl
  simp only [topUpTake, havail, hroom]
  decide

theorem stage_topUp_junkRing : (pumpTopUp junkRing).stage = junk := by
  have hsize : junkRing.compSize.toNat = 16384 := by decide
  have hpos : (junkRing.compRd % junkRing.compSize).toNat = 0 := by decide
  rw [pumpTopUp_spec, topUpTake_junkRing]
  change [] ++ ringRead junkRing.compSize.toNat (blit (fun _ => 0) 0 junk)
    (junkRing.compRd % junkRing.compSize).toNat 8193 = _
  rw [hsize, hpos, List.nil_append, ringRead_blit _ (Nat.le_of_eq length_junk.symm) (by decide),
    ← length_junk, List.take_length]

/-- The first pass has found no room for PCM. -/
theorem ring_junkDrained : junkDrained = { pumpTopUp junkRing with pcmRd := 8192 } := by
  have hfull : ¬ PcmRoom junkRing := by
    change ¬ cqMp3decMaxSamples * 2 ≤ ((8192 : BitVec 32) - (8192 - 0)).toNat
    decide
  rw [junkDrained, pump_of_noRoom silenceDecoder () hfull]
  rfl

theorem parse_junk (i : Nat) : cqMp3Parse (junk.drop i) = none := by
  rcases Nat.lt_or_ge i 8193 with hlt | hge
  · rw [junk, ← List.append_nil (List.replicate 8193 0)]
    exact parse_zeros [] hlt
  · rw [List.drop_of_length_le (by rw [length_junk]; exact hge)]
    rfl

theorem sync_junk : cqMp3Sync junk = none := by
  cases hsync : cqMp3Sync junk with
  | none => rfl
  | some answer =>
      obtain ⟨off, f⟩ := answer
      obtain ⟨a, b, ha, -⟩ := (sync_some hsync).1
      cases (parse_junk off).symm.trans ha

theorem gateHolds_junk (eof : Bool) : GateHolds eof junk := by
  have hwalk : ¬ 1 ≤ walkFrames junk 2 := by
    rw [one_le_walkFrames_iff]
    rintro ⟨f, hf, -⟩
    cases (parse_junk 0).symm.trans hf
  rw [GateHolds]
  split <;> omega

theorem onlyDrops_junkDrained : OnlyDrops silenceDecoder () junkDrained := by
  have hstage : junkDrained.stage = junk := by
    rw [ring_junkDrained]
    exact stage_topUp_junkRing
  constructor
  · left
    rw [ring_junkDrained, pumpTopUp_spec, topUpTake_junkRing]
    change (0 : BitVec 32) + BitVec.ofNat 32 8193 = 0 + BitVec.ofNat 32 8193
    rfl
  · rw [ring_junkDrained, pumpTopUp_spec]
    change cqMp3decMaxSamples * 2 ≤ ((8192 : BitVec 32) - (8192 - 8192)).toNat
    decide
  · rw [hstage]
    exact gateHolds_junk _
  · rw [hstage, length_junk]
    decide
  · rw [hstage, sync_junk]
    rintro off f ⟨⟩

/-- **A flush is no progress**: the next pass drops the junk and reports that it has done nothing. -/
theorem junk_flush_untold : ¬ Truthful silenceDecoder () junkDrained :=
  (not_truthful_iff silenceDecoder () junkDrained).2 onlyDrops_junkDrained

end Casquinha.Decode
