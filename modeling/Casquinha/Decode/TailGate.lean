import Casquinha.Decode.Equivalence

/-!
# The tail gate at the end of a stream

The pump hands a frame to the decoder only when the next frame is staged whole, or when the stream has ended
and the frame is its last. The second case tests `eof` alone, and every round tests it anew, while the stage
has been filled at the start of the pass and only as far as it had room. A round that sees `eof` set while
committed bytes are still in the compressed ring hands over the last staged frame although its successor is
in the ring (`backlog_feeds_unconfirmed`). As long as no round comes at such a moment, the gate does what it
is for, in any interleaving (`tailGate_lawful`).
-/

set_option autoImplicit false

namespace Casquinha.Decode

open Lib

variable {w : Nat} {σ : Type}

/-! ## Decoder calls -/

/-- The pass from which a round starts, if it can take place. -/
def Spsc.roundPass (d : Mp3Decoder σ) (s : Spsc w σ) : SpscStep → Option (Pass w σ)
  | .round v eof => (s.step true d (.round v eof)).bind fun _ => s.pass.map fun q => s.roundView q v eof
  | _ => none

/-- A round that can take place starts from the pass under way, and sees `eof` set only if it is. -/
theorem roundPass_eq_some {d : Mp3Decoder σ} {s : Spsc w σ} {v : Nat} {eof : Bool} {p : Pass w σ}
    (hp : p ∈ s.roundPass d (.round v eof)) :
    (eof = true → s.ring.eof = true) ∧ ∃ q, s.pass = some q ∧ p = s.roundView q v eof := by
  obtain ⟨t, ht, hmap⟩ := Option.bind_eq_some_iff.1 hp
  obtain ⟨q, hq, rfl⟩ := Option.map_eq_some_iff.1 hmap
  cases Spsc.stepped_of_step ht with
  | round _ _ heof => exact ⟨heof, q, hq, rfl⟩

/-- While a pass is under way it can. -/
theorem roundPass_of_pass (d : Mp3Decoder σ) {s : Spsc w σ} {used : Nat} {progress : Bool} {v : Nat} {eof : Bool}
    (hpass : s.pass = some ⟨used, progress, false⟩)
    (hview : Visible true s.pcmLog.seenTaken v s.pcmLog.taken.length) (heof : eof = true → s.ring.eof = true) :
    s.roundPass d (.round v eof) = some (s.roundView ⟨used, progress, false⟩ v eof) := by
  simp only [Spsc.roundPass, Spsc.step_of_pass d hpass hview heof, hpass, Option.bind_some, Option.map_some]

/-- What a round leaves, and what the next one starts from when it goes on. -/
theorem step_roundPass {d : Mp3Decoder σ} {s : Spsc w σ} {v : Nat} {eof : Bool} {p : Pass w σ}
    (hp : s.roundPass d (.round v eof) = some p) :
    ∃ t, s.step true d (.round v eof) = some t ∧
      t.ring = { (pumpRound d p).1.ring with pcmRd := s.ring.pcmRd, eof := s.ring.eof } ∧
      t.pass = some ⟨(pumpRound d p).1.used, (pumpRound d p).1.progress, !(pumpRound d p).2⟩ ∧
      ∀ p', pumpRound d p = (p', true) →
        t.roundPass d (.round v eof) = some { p' with fed := [], decoded := [] } := by
  obtain ⟨t, ht, hmap⟩ := Option.bind_eq_some_iff.1 hp
  obtain ⟨q, hq, rfl⟩ := Option.map_eq_some_iff.1 hmap
  refine ⟨t, ht, ?_⟩
  cases Spsc.stepped_of_step ht with
  | @round _ _ used progress hpass hv heof =>
      cases hq.symm.trans hpass
      refine ⟨rfl, rfl, ?_⟩
      intro p' hgo
      have hframe := pumpRound_frame d (s.roundView ⟨used, progress, false⟩ v eof)
      rw [hgo] at hframe
      obtain ⟨-, heof', hrd, -, -⟩ := hframe
      have hpass' : (s.afterRound d ⟨used, progress, false⟩ v eof).pass = some ⟨p'.used, p'.progress, false⟩ := by
        rw [Spsc.afterRound, hgo]
        rfl
      rw [roundPass_of_pass d hpass' ⟨hv.1, fun _ => le_refl _⟩ heof, Spsc.afterRound, hgo]
      simp only [Spsc.roundView] at heof' hrd ⊢
      rw [← heof', ← hrd]

/-- The bytes that a round starts from are the staged ones. -/
theorem rest_roundPass {d : Mp3Decoder σ} {s : Spsc w σ} {a : SpscStep} {p : Pass w σ}
    (hp : p ∈ s.roundPass d a) : p.rest = s.staged := by
  cases a with
  | round v eof =>
      obtain ⟨-, q, hq, rfl⟩ := roundPass_eq_some hp
      rw [Spsc.staged, Spsc.used, hq]
      rfl
  | claim v | fill xs | commit | eof | topUp v | finish | read v k => cases hp

/-- A decoder call: the staged bytes it gets, and whether `eof` is set and the compressed ring empty
at the time. -/
structure Fed where
  buf : Bytes
  eof : Bool
  drained : Bool
deriving DecidableEq

/-- The call is on two whole coherent frames, or on the true end of the stream. -/
def Fed.Lawful (f : Fed) : Prop :=
  2 ≤ walkFrames f.buf 2 ∨ f.eof = true ∧ f.drained = true ∧ 1 ≤ walkFrames f.buf 2

instance (f : Fed) : Decidable f.Lawful := inferInstanceAs (Decidable (_ ∨ _))

/-- The decoder calls of a step. -/
def Spsc.calls (d : Mp3Decoder σ) (s : Spsc w σ) (a : SpscStep) : List Fed :=
  match s.roundPass d a with
  | none => []
  | some p => (pumpRound d p).1.fed.map fun buf => ⟨buf, s.ring.eof, s.ring.compWr == s.ring.compRd⟩

/-- Every decoder call of the step is lawful. -/
def LawfulCalls (d : Mp3Decoder σ) (s : Spsc w σ) (a : SpscStep) : Prop := ∀ f ∈ s.calls d a, f.Lawful

instance (d : Mp3Decoder σ) (s : Spsc w σ) (a : SpscStep) : Decidable (LawfulCalls d s a) :=
  inferInstanceAs (Decidable (∀ f ∈ _, _))

/-- Bytes committed and not yet staged. -/
def backlog (r : CqDecring w) : Nat := (r.compWr - r.compRd).toNat

theorem backlog_eq_zero_iff {r : CqDecring w} : backlog r = 0 ↔ r.compWr = r.compRd := by
  constructor
  · intro h
    have hzero : r.compWr - r.compRd = 0 := BitVec.eq_of_toNat_eq h
    rw [← BitVec.sub_add_cancel r.compWr r.compRd, hzero]
    exact BitVec.zero_add _
  · intro h
    rw [backlog, h, BitVec.sub_self]
    rfl

/-- The top-up takes all of them that the stage has room for. -/
theorem topUpTake_eq_min (r : CqDecring w) :
    topUpTake r = min (backlog r) (cqDecringStage - r.stage.length) := by
  simp only [topUpTake, backlog]
  split <;> omega

theorem topUpTake_le_backlog (r : CqDecring w) : topUpTake r ≤ backlog r :=
  (topUpTake_eq_min r).trans_le (Nat.min_le_left _ _)

/-- PCM space, to a round that sees the read cursor after `v` bytes. -/
def Spsc.pcmSpaceAt (s : Spsc w σ) (v : Nat) : Nat :=
  (s.ring.pcmSize - (s.ring.pcmWr - counter w s.pcmBase v)).toNat

/-- A round that sees `eof` set, and PCM space for a frame, finds every committed byte staged. -/
def EndStaged (s : Spsc w σ) : SpscStep → Prop
  | .round v true => backlog s.ring = 0 ∨ s.pcmSpaceAt v < cqMp3decMaxSamples * 2
  | _ => True

instance (s : Spsc w σ) (a : SpscStep) : Decidable (EndStaged s a) :=
  match a with
  | .round _ true => inferInstanceAs (Decidable (_ ∨ _))
  | .round _ false | .claim _ | .fill _ | .commit | .eof | .topUp _ | .finish | .read _ _ => isTrue trivial

/-! ## The gate -/

/-- A round hands over only what the gate lets through. -/
theorem pumpRound_fed (d : Mp3Decoder σ) (p : Pass w σ) :
    (pumpRound d p).1.fed = p.fed ∨
      (pumpRound d p).1.fed = p.fed ++ [p.rest] ∧ PcmRoom p.ring ∧ ¬ GateHolds p.ring.eof p.rest := by
  rw [pumpRound]
  split
  · exact Or.inl rfl
  · next hroom =>
    split
    · exact Or.inl rfl
    · split
      · left
        rw [pumpHeld]
        split
        · split
          · split <;> rfl
          · rfl
        · rfl
      · next hgate =>
        -- the gate is open, and the decoder is given what is staged
        refine Or.inr ⟨?_, not_not.1 hroom, hgate⟩
        simp only [pumpDecode]
        split
        · rfl
        · split <;> rfl

/-- And what the gate lets through is handed over. -/
theorem pumpRound_fed_of_open (d : Mp3Decoder σ) {p : Pass w σ} (hroom : PcmRoom p.ring)
    (hdry : p.used < p.ring.stage.length) (hgate : ¬ GateHolds p.ring.eof p.rest) :
    (pumpRound d p).1.fed = p.fed ++ [p.rest] := by
  rw [pumpRound, if_neg (not_not.2 hroom), if_neg (Nat.not_le.2 hdry), if_neg hgate]
  simp only [pumpDecode]
  split
  · rfl
  · split <;> rfl

/-- A round at which the end is staged calls the decoder lawfully. -/
theorem lawfulCalls_of_endStaged {d : Mp3Decoder σ} {s : Spsc w σ} {a : SpscStep} (hok : EndStaged s a) :
    LawfulCalls d s a := by
  intro f hf
  rw [Spsc.calls] at hf
  cases hp : s.roundPass d a with
  | none =>
      rw [hp] at hf
      exact absurd hf List.not_mem_nil
  | some p =>
      rw [hp] at hf
      obtain ⟨buf, hbuf, rfl⟩ := List.mem_map.1 hf
      cases a with
      | round v eof =>
          obtain ⟨heof, q, -, rfl⟩ := roundPass_eq_some hp
          rcases pumpRound_fed d (s.roundView q v eof) with hnone | ⟨hfed, hroom, hgate⟩
          · rw [hnone] at hbuf
            exact absurd hbuf List.not_mem_nil
          · rw [hfed] at hbuf
            cases List.mem_singleton.1 hbuf
            cases eof with
            | false =>
                -- two whole frames are confirmed
                left
                exact Nat.le_of_not_lt hgate
            | true =>
                -- there is room, so nothing is left in the compressed ring
                right
                have hdrained := backlog_eq_zero_iff.1 (hok.resolve_right (Nat.not_lt.2 hroom))
                exact ⟨heof rfl, beq_iff_eq.2 hdrained, Nat.le_of_not_lt hgate⟩
      | claim v | fill xs | commit | eof | topUp v | finish | read v k => cases hp

/-- **The tail gate in any interleaving.** When no round that sees `eof` set and PCM space for a frame comes
while committed bytes are still in the compressed ring, every decoder call of the run is on two whole
coherent frames or on the true end of the stream. -/
theorem tailGate_lawful (d : Mp3Decoder σ) (s : Spsc w σ) (steps : List SpscStep)
    (hstaged : Meets (Spsc.step true d) EndStaged s steps) :
    Meets (Spsc.step true d) (LawfulCalls d) s steps :=
  meets_of_meets (fun _ => True) (fun _ _ _ _ _ _ => trivial) (fun _ _ _ hok => lawfulCalls_of_endStaged hok)
    trivial hstaged

/-- Three short frames in two pieces. The first pass holds the first frame. The second one does not see all that
is committed, nor that the end is raised, and decodes that frame; it sees the end when there is no PCM space.
The third pass has everything staged. -/
def threeFrameSteps : List SpscStep :=
  [.claim 0, .fill (shortFrame ++ shortFrame.take 10), .commit, .topUp 34, .round 0 false, .finish,
    .claim 34, .fill (shortFrame.drop 10 ++ shortFrame), .commit, .eof, .topUp 50, .round 0 false,
    .round 0 true, .finish, .read 1152 1152, .topUp 72, .round 1152 true, .read 2304 1152, .round 2304 true,
    .round 2304 true, .finish]

theorem tailGate_lawful_sample :
    (run (Spsc.step true silenceDecoder) (Spsc.init shortFrameRing ()) threeFrameSteps).map
        (fun s => (s.ring.frames, s.ring.stage)) = some (3, []) ∧
      Meets (Spsc.step true silenceDecoder) (LawfulCalls silenceDecoder) (Spsc.init shortFrameRing ())
        threeFrameSteps :=
  ⟨by decide +kernel,
    tailGate_lawful silenceDecoder (Spsc.init shortFrameRing ()) threeFrameSteps (by decide +kernel)⟩

/-- The end is raised over a piece that a pass under way has not staged: a frame goes without its successor. -/
example :
    ¬ Meets (Spsc.step true silenceDecoder) (LawfulCalls silenceDecoder) (Spsc.init shortFrameRing ())
      [.claim 0, .fill shortFrame, .commit, .topUp 24, .claim 24, .fill shortFrame, .commit, .eof,
        .round 0 true] := by decide +kernel

/-- Without PCM space a pass does nothing but top up. -/
theorem pump_of_noRoom (d : Mp3Decoder σ) (s : σ) {r : CqDecring w} (h : ¬ PcmRoom r) :
    cqDecringPump d s r = pumpFinish (pumpStart s r) := by
  have hroom : ¬ PcmRoom (pumpStart s r).ring := by
    rw [pumpStart, pumpTopUp_spec]
    exact h
  have hstop : pumpRound d (pumpStart s r) = (pumpStart s r, false) := by rw [pumpRound, if_pos hroom]
  rw [cqDecringPump, pumpLoop, hstop]

/-- The flags and cursors a pass leaves are those its rounds saw. -/
theorem cqDecringPump_frame (d : Mp3Decoder σ) (s : σ) (r : CqDecring w) :
    (cqDecringPump d s r).ring.eof = r.eof ∧ (cqDecringPump d s r).ring.compWr = r.compWr ∧
      (cqDecringPump d s r).ring.compRd = (pumpTopUp r).compRd := by
  obtain ⟨-, he, -, hw, hr⟩ :=
    pumpLoop_frame d ((pumpStart s r).ring.stage.length + 1) (pumpStart s r)
  have htop : (pumpStart s r).ring.eof = r.eof ∧ (pumpStart s r).ring.compWr = r.compWr := by
    rw [pumpStart, pumpTopUp_spec]
    exact ⟨rfl, rfl⟩
  simp only [cqDecringPump, pumpFinish]
  exact ⟨he.trans htop.1, hw.trans htop.2, hr⟩


/-! ## A backlog behind the end of the stream -/

/-- A put uses up the PCM space it needs. -/
theorem toNat_pcmSpace_pumpPut {r : CqDecring w} (pcm : Bytes)
    (h : pcm.length ≤ (pcmSpace r).toNat) :
    (pcmSpace (pumpPut r pcm)).toNat = (pcmSpace r).toNat - pcm.length := by
  have hspace : pcmSpace (pumpPut r pcm) = pcmSpace r - BitVec.ofNat w pcm.length := by
    simp only [pcmSpace, pumpPut]
    grind
  have hlt : pcm.length < 2 ^ w := lt_of_le_of_lt h (pcmSpace r).isLt
  have hlen : (BitVec.ofNat w pcm.length).toNat = pcm.length := by
    rw [BitVec.toNat_ofNat, Nat.mod_eq_of_lt hlt]
  rw [hspace, BitVec.toNat_sub_of_le (by rw [BitVec.le_def, hlen]; exact h), hlen]

/-- Decoding one frame: the rest of the stage, and the PCM space it takes at most. -/
theorem decodeFrame_rest {d : Mp3Decoder σ} (hd : d.Bounded) {p : Pass w σ} {b rest : Bytes}
    (hrest : p.rest = b ++ rest) (hroom : PcmRoom p.ring) :
    (p.decodeFrame d b).rest = rest ∧
      (pcmSpace p.ring).toNat ≤
        (pcmSpace (p.decodeFrame d b).ring).toNat + cqMp3decMaxSamples * 2 := by
  have hdrop : p.ring.stage.drop (p.used + b.length) = rest := by
    rw [← List.drop_drop, ← @List.drop_left _ b rest, ← hrest]
    rfl
  have hlen : (d.decodeFrame p.dec b).2.pcm.length ≤ cqMp3decMaxSamples * 2 := by
    rw [Mp3Out.length_pcm]
    exact Nat.mul_le_mul_right 2 (hd.samples_le _ _)
  have hput := toNat_pcmSpace_pumpPut (d.decodeFrame p.dec b).2.pcm (hlen.trans hroom)
  simp only [Pass.decodeFrame, Pass.rest]
  split
  · exact ⟨hdrop, Nat.le_add_right _ _⟩
  · exact ⟨hdrop, by rw [hput]; omega⟩

variable {version samplerate : Nat}

/-- A pass is under way, `eof` is set, and there are bytes in the compressed ring. A round may see the PCM read
cursor after `v` bytes. -/
structure EndedPass (v : Nat) (s : Spsc w σ) : Prop where
  pass : ∃ used progress, s.pass = some ⟨used, progress, false⟩
  visible : Visible true s.pcmLog.seenTaken v s.pcmLog.taken.length
  eof : s.ring.eof = true
  backlog : s.ring.compWr ≠ s.ring.compRd

/-- A round on a whole frame with a proper continuation decodes it. -/
theorem EndedPass.round {d : Mp3Decoder σ} (hd : d.Bounded) (hexact : FrameExact d version samplerate)
    {v : Nat} {s : Spsc w σ} (h : EndedPass v s) {b rest : Bytes} (hb : IsFrame version samplerate b)
    (hnext : NextOk version samplerate rest) (hstaged : s.staged = b ++ rest)
    (hgate : ¬ GateHolds true s.staged) (hroom : cqMp3decMaxSamples * 2 ≤ s.pcmSpaceAt v) :
    ∃ t, s.step true d (.round v true) = some t ∧ EndedPass v t ∧ t.staged = rest ∧
      s.pcmSpaceAt v ≤ t.pcmSpaceAt v + cqMp3decMaxSamples * 2 := by
  obtain ⟨used, progress, hpass⟩ := h.pass
  have hstep := Spsc.step_of_pass d hpass h.visible (fun _ : true = true => h.eof)
  have hrest := rest_roundPass (roundPass_of_pass d hpass h.visible (fun _ : true = true => h.eof))
  generalize (⟨used, progress, false⟩ : InPass) = q at hstep hrest
  have hround := pumpRound_decode hexact (p := s.roundView q v true) hroom (hrest.trans hstaged) hb hnext
    (by rw [hrest]; exact hgate)
  obtain ⟨hrest', hspace⟩ := decodeFrame_rest hd (hrest.trans hstaged) hroom
  have hframe := pumpRound_frame d (s.roundView q v true)
  rw [hround] at hframe
  obtain ⟨hkeep, -, hrd, hwr, hcomp⟩ := hframe
  refine ⟨_, hstep, ?_, ?_, ?_⟩
  · rw [Spsc.afterRound, hround]
    refine ⟨⟨_, _, rfl⟩, ⟨h.visible.1, fun _ => le_refl _⟩, h.eof, ?_⟩
    exact fun heq => h.backlog (hwr.symm.trans (heq.trans hcomp))
  · rw [Spsc.afterRound, hround]
    exact hrest'
  · rw [Spsc.afterRound, hround]
    have hrd' : ((s.roundView q v true).decodeFrame d b).ring.pcmRd = counter w s.pcmBase v := hrd
    rw [pcmSpace, pcmSpace, hrd'] at hspace
    exact hspace

/-- A round on one whole frame behind the end of the stream, with bytes still in the compressed ring, hands it
over without its successor. -/
theorem EndedPass.unlawful (d : Mp3Decoder σ) {v : Nat} {s : Spsc w σ} (h : EndedPass v s)
    (hwalk : walkFrames s.staged 2 = 1) (hroom : cqMp3decMaxSamples * 2 ≤ s.pcmSpaceAt v) :
    ¬ LawfulCalls d s (.round v true) := by
  obtain ⟨used, progress, hunderway⟩ := h.pass
  have hpass := roundPass_of_pass d hunderway h.visible (fun _ : true = true => h.eof)
  have hrest := rest_roundPass hpass
  generalize (⟨used, progress, false⟩ : InPass) = q at hpass hrest
  -- the gate asks for one frame, and the stage is not dry
  have hgate : ¬ GateHolds (s.roundView q v true).ring.eof (s.roundView q v true).rest := by
    rw [hrest, GateHolds, hwalk]
    show ¬ 1 < 1
    omega
  have hdry : (s.roundView q v true).used < (s.roundView q v true).ring.stage.length := by
    by_contra hdry
    rw [← hrest, Pass.rest, List.drop_of_length_le (Nat.le_of_not_lt hdry)] at hwalk
    cases hwalk
  have hfed : (pumpRound d (s.roundView q v true)).1.fed = [s.staged] := by
    have hopen : PcmRoom (s.roundView q v true).ring := hroom
    rw [pumpRound_fed_of_open d hopen hdry hgate, hrest]
    rfl
  intro hlawful
  rcases hlawful ⟨s.staged, s.ring.eof, s.ring.compWr == s.ring.compRd⟩ (by simp [Spsc.calls, hpass, hfed]) with
    htwo | ⟨-, hdrained, -⟩
  · simp only [hwalk] at htwo
    omega
  · exact h.backlog (beq_iff_eq.1 hdrained)

/-- **A backlog behind `eof` feeds an unconfirmed frame.** `eof` is set, whole frames of a stream are staged and
behind them a piece of the next one, and the rest of that one is still in the compressed ring. The rounds
work through the frames, and the one on the last frame hands it over without its successor. -/
theorem backlog_feeds_unconfirmed {d : Mp3Decoder σ} (hd : d.Bounded)
    (hexact : FrameExact d version samplerate) {v : Nat} {last tail : Bytes}
    (hlast : IsFrame version samplerate last) (hpart : walkFrames tail 1 = 0) (frames : List Bytes) :
    ∀ {s : Spsc w σ}, EndedPass v s → (∀ b ∈ frames, IsFrame version samplerate b) →
      s.staged = frames.flatten ++ (last ++ tail) →
      (frames.length + 1) * (cqMp3decMaxSamples * 2) ≤ s.pcmSpaceAt v →
      ∃ t, run (Spsc.step true d) s (List.replicate frames.length (.round v true)) = some t ∧
        ¬ LawfulCalls d t (.round v true) := by
  induction frames with
  | nil =>
      intro s h _ hstaged hspace
      rw [List.flatten_nil, List.nil_append] at hstaged
      refine ⟨s, rfl, h.unlawful d ?_ (by simpa using hspace)⟩
      rw [hstaged]
      exact (walkFrames_frame hlast).1 hpart
  | cons b frames ih =>
      intro s h hframes hstaged hspace
      have hb := hframes b List.mem_cons_self
      have hrest : ∀ c ∈ frames, IsFrame version samplerate c :=
        fun c hc => hframes c (List.mem_cons_of_mem _ hc)
      rw [List.length_cons, Nat.add_mul (frames.length + 1) 1] at hspace
      rw [List.flatten_cons, List.append_assoc] at hstaged
      -- behind this frame stands another whole one, which lets it through the gate
      obtain ⟨c, rest', hc, hnext⟩ : ∃ c rest', IsFrame version samplerate c ∧
          frames.flatten ++ (last ++ tail) = c ++ rest' := by
        cases frames with
        | nil => exact ⟨last, tail, hlast, rfl⟩
        | cons c frames =>
            exact ⟨c, frames.flatten ++ (last ++ tail), hrest c List.mem_cons_self, by simp⟩
      have hgate : ¬ GateHolds true s.staged := by
        rw [GateHolds, hstaged, (walkFrames_frame hb).2 c rest' hc hnext, if_pos rfl]
        omega
      obtain ⟨t, ht, hended, hstaged', hspace'⟩ :=
        h.round hd hexact hb (hnext ▸ hc.nextOk rest') hstaged hgate (by omega)
      obtain ⟨u, hrun, hunlawful⟩ := ih hended hrest hstaged' (by omega)
      refine ⟨u, ?_, hunlawful⟩
      rw [List.length_cons, List.replicate_succ, run_cons, ht, Option.bind_some, hrun]

/-- A mono MPEG 1 frame of 417 bytes. -/
def longFrame : Bytes := [0xFF, 0xFB, 0x90, 0xC0] ++ List.replicate 413 0

/-- 158 frames in a row: 350 bytes more than the stage holds. -/
def longStream : Bytes := (List.replicate 158 longFrame).flatten

/-- A compressed ring of 128 KB and a PCM ring of 1 MB. -/
def longRing : CqDecring 32 := cqDecringInit (fun _ => 0) 131072 (fun _ => 0) 1048576 0 0

theorem length_longFrame : longFrame.length = 417 := by
  rw [longFrame, List.length_append, List.length_replicate]
  rfl

theorem length_longStream : longStream.length = 65886 := by
  simp only [longStream, List.length_flatten, List.map_replicate, length_longFrame,
    List.sum_replicate_nat]

theorem isFrame_longFrame : IsFrame 1 44100 longFrame := by
  refine ⟨⟨1, 128, 44100, 1, 1152, 417⟩, ?_, length_longFrame.symm, rfl, rfl⟩
  decide +kernel

/-- What the stage holds of the stream: 157 frames and 67 bytes of the last one. -/
theorem take_longStream : longStream.take cqDecringStage =
    (List.replicate 156 longFrame).flatten ++ (longFrame ++ longFrame.take 67) := by
  have hsplit : longStream =
      ((List.replicate 156 longFrame).flatten ++ longFrame) ++ longFrame := by
    rw [longStream, show (158 : Nat) = 156 + 1 + 1 from rfl, List.replicate_succ',
      List.replicate_succ', List.flatten_append, List.flatten_append, List.flatten_singleton]
  have hlen : ((List.replicate 156 longFrame).flatten ++ longFrame).length = 65469 := by
    simp only [List.length_append, List.length_flatten, List.map_replicate, length_longFrame,
      List.sum_replicate_nat]
  rw [hsplit, List.take_append, hlen, List.take_of_length_le (by rw [hlen]; decide),
    List.append_assoc]
  rfl


theorem longRing_fresh : Fresh longRing :=
  { comp_empty := rfl
    pcm_empty := rfl
    stage_empty := rfl
    comp_pos := by decide
    pcm_pos := by decide }

theorem longRing_divide : SizesDivide longRing := ⟨by decide, by decide⟩

/-- `xs` has been committed and the end of the stream raised. -/
def ended (xs : Bytes) : Spsc 32 Unit :=
  { (Spsc.init longRing ()).put xs with ring := cqDecringEof ((Spsc.init longRing ()).put xs).ring }

theorem run_ended {xs : Bytes} (hfit : xs.length ≤ 131072) :
    run (Spsc.step true silenceDecoder) (Spsc.init longRing ()) [.claim 0, .fill xs, .commit, .eof] =
      some (ended xs) := by
  have hput := Spsc.steps_put silenceDecoder (Spsc.Inv.init longRing_fresh ()) rfl hfit
  have hsplit : [SpscStep.claim 0, .fill xs, .commit, .eof] =
      [.claim (Spsc.init longRing ()).compLog.taken.length, .fill xs, .commit] ++ [.eof] := rfl
  rw [hsplit, run_append, hput]
  rfl

/-- The pass that begins then fills its stage and leaves the rest in the compressed ring. -/
theorem endedPass_topUp {xs : Bytes} (hfit : xs.length ≤ 131072) (hmore : cqDecringStage < xs.length) :
    (ended xs).step true silenceDecoder (.topUp xs.length) = some ((ended xs).afterTopUp xs.length) ∧
      EndedPass 0 ((ended xs).afterTopUp xs.length) ∧
      ((ended xs).afterTopUp xs.length).staged = xs.take cqDecringStage ∧
      ((ended xs).afterTopUp xs.length).pcmSpaceAt 0 = 1048576 := by
  obtain ⟨hinv, hdvd⟩ := Spsc.Inv.run_of_divide silenceDecoder_bounded longRing_fresh longRing_divide ()
    (run_ended hfit)
  have hstage : ((ended xs).afterTopUp xs.length).ring.stage = xs.take cqDecringStage :=
    Spsc.stage_afterTopUp hinv (Spsc.Addressed.of_divide hdvd)
  have hview : Visible true (ended xs).compLog.seenSent xs.length (ended xs).compLog.sent.length :=
    ⟨le_refl _, fun _ => Nat.zero_le _⟩
  have hstep : (ended xs).step true silenceDecoder (.topUp xs.length) =
      some ((ended xs).afterTopUp xs.length) := if_pos hview
  have hkeep : ((ended xs).afterTopUp xs.length).ring.eof = true ∧
      ((ended xs).afterTopUp xs.length).pcmSpaceAt 0 = 1048576 := by
    rw [Spsc.pcmSpaceAt, Spsc.afterTopUp, pumpTopUp_spec]
    refine ⟨rfl, ?_⟩
    show (1048576#32 - (0#32 - counter 32 0 0)).toNat = 1048576
    decide
  refine ⟨hstep, ⟨⟨_, _, rfl⟩, ⟨le_refl _, fun _ => le_refl _⟩, hkeep.1, ?_⟩, hstage, hkeep.2⟩
  intro hequal
  -- equal cursors would say that all of it is staged
  have hall := taken_eq_sent (hinv.topUp (Spsc.Addressed.of_divide hdvd) (hview.2 rfl) hview.1) hequal
  have htaken : ((ended xs).afterTopUp xs.length).compLog.taken =
      ((ended xs).afterTopUp xs.length).ring.stage := rfl
  have hsent : ((ended xs).afterTopUp xs.length).compLog.sent = xs := rfl
  rw [htaken, hsent, hstage] at hall
  have hlen := congrArg List.length hall
  rw [List.length_take] at hlen
  omega

/-- The stream is committed and its end raised, and the pass that begins then hands over the last staged frame
while the rest of its successor is in the compressed ring. -/
theorem tailGate_unlawful : ∃ s,
    run (Spsc.step true silenceDecoder) (Spsc.init longRing ())
        ([.claim 0, .fill longStream, .commit, .eof] ++
          (.topUp longStream.length :: List.replicate 156 (.round 0 true))) = some s ∧
      ¬ LawfulCalls silenceDecoder s (.round 0 true) := by
  have hfit : longStream.length ≤ 131072 := by
    rw [length_longStream]
    decide
  have hmore : cqDecringStage < longStream.length := by
    rw [length_longStream]
    decide
  obtain ⟨hstep, hended, hstaged, hspace⟩ := endedPass_topUp hfit hmore
  have hpart : walkFrames (longFrame.take 67) 1 = 0 := by
    apply walkFrames_cut isFrame_longFrame (List.take_prefix 67 longFrame)
    rw [List.length_take, length_longFrame]
    decide
  have hframes : ∀ b ∈ List.replicate 156 longFrame, IsFrame 1 44100 b := by
    intro b hb
    rw [List.eq_of_mem_replicate hb]
    exact isFrame_longFrame
  obtain ⟨t, hrun, hunlawful⟩ := backlog_feeds_unconfirmed silenceDecoder_bounded
    (silenceDecoder_exact 1 44100) isFrame_longFrame hpart (List.replicate 156 longFrame) hended hframes
    (hstaged.trans take_longStream) (by rw [hspace, List.length_replicate]; decide)
  rw [List.length_replicate] at hrun
  refine ⟨t, ?_, hunlawful⟩
  rw [run_append, run_ended hfit, Option.bind_some, run_cons, hstep, Option.bind_some, hrun]

end Casquinha.Decode
