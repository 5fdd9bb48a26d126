import Casquinha.Decode.CutHeader
import Casquinha.Decode.TailGate

/-!
# What resync and flush throw away

A deep stage that the gate holds back is realigned: a resync skips what `cq_mp3_sync` has passed over, and a
flush drops the whole stage when it gives up. The producer, the pump and the interrupt interleave as in
`Spsc`, and the producer writes the stream in pieces of any size.

A resync skips rejected offsets only, and what is rejected is no real frame of the stream
(`Rejected.stable`). A flush drops the offsets that `cq_mp3_sync` has not decided with the others. It drops
nothing but junk, whatever the stream goes on with, exactly if nothing in the flushed stage may still turn
out to be a frame (`drops_only_junk_iff`).
-/

set_option autoImplicit false

namespace Casquinha.Decode

open Lib

variable {w : Nat} {σ : Type}

/-! ## The gate's branch -/

/-- The round comes to a gate that holds. -/
def AtGate (p : Pass w σ) : Prop :=
  PcmRoom p.ring ∧ p.used < p.ring.stage.length ∧ GateHolds p.ring.eof p.rest

instance (p : Pass w σ) : Decidable (AtGate p) := inferInstanceAs (Decidable (_ ∧ _))

/-- The bytes that a round uses up at the gate, without the decoder. -/
def discarded (d : Mp3Decoder σ) (p : Pass w σ) : Nat :=
  if AtGate p then (pumpRound d p).1.used - p.used else 0

/-- The round flushes the stage. -/
def Flushes (p : Pass w σ) : Prop :=
  AtGate p ∧ 8192 < p.rest.length ∧ cqMp3Sync p.rest = none

instance (p : Pass w σ) : Decidable (Flushes p) := inferInstanceAs (Decidable (_ ∧ _))

/-- A flush uses up the whole stage. -/
theorem pumpRound_flush (d : Mp3Decoder σ) {p : Pass w σ} (h : Flushes p) :
    pumpRound d p = ({ p with
      ring := { p.ring with flushes := p.ring.flushes + 1 }
      used := p.ring.stage.length }, false) := by
  obtain ⟨⟨hroom, hdry, hholds⟩, hdeep, hsync⟩ := h
  rw [pumpRound, if_neg (not_not.2 hroom), if_neg (Nat.not_le.2 hdry), if_pos hholds, pumpHeld, if_pos hdeep,
    hsync]

/-- A resync goes on at the frame that the sync has found. -/
theorem pumpRound_resync (d : Mp3Decoder σ) {p : Pass w σ} (hgate : AtGate p) (hdeep : 8192 < p.rest.length)
    {off : Nat} {f : CqMp3Frame} (hsync : cqMp3Sync p.rest = some (off, f)) (hoff : 0 < off) :
    pumpRound d p = ({ p with
      ring :=
        { p.ring with
          resyncs := p.ring.resyncs + 1
          resyncBytes := p.ring.resyncBytes + off }
      used := p.used + off }, true) := by
  obtain ⟨hroom, hdry, hholds⟩ := hgate
  rw [pumpRound, if_neg (not_not.2 hroom), if_neg (Nat.not_le.2 hdry), if_pos hholds, pumpHeld, if_pos hdeep,
    hsync]
  exact if_pos hoff

/-- **What a round discards**: everything, in a flush; else what a resync has passed over, or nothing. -/
theorem discarded_cases (d : Mp3Decoder σ) (p : Pass w σ) :
    (Flushes p ∧ discarded d p = p.rest.length) ∨
      (¬ Flushes p ∧ ∀ j < discarded d p, Rejected p.rest j) := by
  by_cases hgate : AtGate p
  · obtain ⟨hroom, hdry, hholds⟩ := id hgate
    have hlen : p.rest.length = p.ring.stage.length - p.used := List.length_drop
    have hround : pumpRound d p = pumpHeld p := by
      rw [pumpRound, if_neg (not_not.2 hroom), if_neg (Nat.not_le.2 hdry), if_pos hholds]
    rw [discarded, if_pos hgate, hround, pumpHeld, Flushes]
    by_cases hdeep : 8192 < p.rest.length
    · rw [if_pos hdeep]
      cases hsync : cqMp3Sync p.rest with
      -- no answer: the whole rest goes
      | none =>
          left
          exact ⟨⟨hgate, hdeep, rfl⟩, hlen.symm⟩
      | some answer =>
          obtain ⟨off, f⟩ := answer
          right
          refine ⟨?_, ?_⟩
          · rintro ⟨-, -, ⟨⟩⟩
          · simp only
            intro j hj
            apply (sync_some hsync).2
            split at hj <;> simp only at hj <;> omega
    · right
      rw [if_neg hdeep]
      refine ⟨fun hflush => hdeep hflush.2.1, ?_⟩
      intro j hj
      simp only at hj
      omega
  · right
    rw [discarded, if_neg hgate]
    exact ⟨fun hflush => hgate hflush.1, fun j hj => absurd hj (Nat.not_lt_zero j)⟩

/-! ## Positions in the stream -/

/-- The position of the next staged byte in the stream. -/
def Spsc.position (s : Spsc w σ) : Nat := s.compLog.taken.length - s.staged.length

/-- The producer writes `stream`, in pieces. -/
def Feeds (stream : Bytes) (s : Spsc w σ) : SpscStep → Prop
  | .fill xs => s.compLog.sent ++ xs <+: stream
  | _ => True

instance (stream : Bytes) (s : Spsc w σ) (a : SpscStep) : Decidable (Feeds stream s a) :=
  match a with
  | .fill xs => inferInstanceAs (Decidable (s.compLog.sent ++ xs <+: stream))
  | .claim _ | .commit | .eof | .topUp _ | .round _ _ | .finish | .read _ _ => isTrue trivial

/-- Where a discarded byte stands in the stream, no real frame starts. -/
def DropsOnlyJunk (d : Mp3Decoder σ) (stream : Bytes) (s : Spsc w σ) (a : SpscStep) : Prop :=
  ∀ p ∈ s.roundPass d a, ∀ j < discarded d p, ¬ RealFrame stream (s.position + j)

/-- A stage is flushed only when nothing in it may still turn out to be a frame. -/
def FlushesSettled (d : Mp3Decoder σ) (s : Spsc w σ) (a : SpscStep) : Prop :=
  ∀ p ∈ s.roundPass d a, Flushes p → ∀ j < p.rest.length, ¬ MayStart p.rest j

instance (d : Mp3Decoder σ) (s : Spsc w σ) (a : SpscStep) : Decidable (FlushesSettled d s a) :=
  inferInstanceAs (Decidable (∀ p ∈ s.roundPass d a, _))

/-! ## The invariant -/

/-- The rings are in order, and what has been written is the beginning of the stream. -/
structure Spsc.Streams (stream : Bytes) (s : Spsc w σ) : Prop where
  inv : s.Inv
  divide : SizesDivide s.ring
  feed : s.compLog.sent ++ s.compLog.pending <+: stream

/-- What the pump has taken is the beginning of the stream. -/
theorem Spsc.Streams.taken {stream : Bytes} {s : Spsc w σ} (h : s.Streams stream) :
    s.compLog.taken <+: stream :=
  h.inv.comp.taken_prefix.trans ((List.prefix_append _ _).trans h.feed)

/-- The staged bytes are the last ones taken. -/
theorem Spsc.Inv.taken_eq {s : Spsc w σ} (h : s.Inv) :
    ∃ gone, s.compLog.taken = gone ++ s.staged ∧ s.position = gone.length := by
  obtain ⟨gone, hgone⟩ := (List.drop_suffix s.used s.ring.stage).trans h.stage_suffix
  refine ⟨gone, hgone.symm, ?_⟩
  rw [Spsc.position, ← hgone, List.length_append, Spsc.staged]
  omega

/-- A stream that begins with what has been taken goes on from its position with the staged bytes. -/
theorem Spsc.Inv.staged_prefix {s : Spsc w σ} (h : s.Inv) {stream : Bytes}
    (hpre : s.compLog.taken <+: stream) : s.staged <+: stream.drop s.position := by
  obtain ⟨gone, htaken, hposition⟩ := h.taken_eq
  obtain ⟨later, rfl⟩ := hpre
  rw [hposition, htaken, List.append_assoc, List.drop_left]
  exact List.prefix_append _ _

/-- **Every step** of a run that feeds the stream keeps the invariant. -/
theorem Spsc.Streams.step {d : Mp3Decoder σ} (hd : d.Bounded) {stream : Bytes} {s t : Spsc w σ}
    {a : SpscStep} (h : s.Streams stream) (hok : Feeds stream s a) (ht : s.step true d a = some t) :
    t.Streams stream := by
  obtain ⟨hcomp, hpcm, -, -⟩ := Spsc.step_sizes ht
  have hfeed : t.compLog.sent ++ t.compLog.pending <+: stream := by
    apply h.inv.written_step h.feed _ ht
    rintro xs rfl
    exact hok
  refine ⟨h.inv.step hd (Spsc.Addressed.of_divide h.divide) ht, ⟨?_, ?_⟩, hfeed⟩
  · rw [hcomp]
    exact h.divide.comp_dvd
  · rw [hpcm]
    exact h.divide.pcm_dvd

/-! ## Only junk -/

/-- **What a round drops is junk in every stream** that goes on from the bytes taken exactly if it is settled in
a flush. -/
theorem dropsOnlyJunk_iff {d : Mp3Decoder σ} {s : Spsc w σ} (h : s.Inv) (a : SpscStep) :
    (∀ stream, s.compLog.taken <+: stream → DropsOnlyJunk d stream s a) ↔ FlushesSettled d s a := by
  constructor
  · intro hjunk p hp hflush j hj hmay
    have hrest := rest_roundPass hp
    obtain ⟨gone, htaken, hposition⟩ := h.taken_eq
    -- the stage can go on so that a real frame starts there
    obtain ⟨more, hreal⟩ := (mayStart_iff hj).1 hmay
    have hpre : s.compLog.taken <+: s.compLog.taken ++ more := List.prefix_append _ _
    apply hjunk _ hpre p hp j
    · rcases discarded_cases d p with ⟨-, hall⟩ | ⟨hnot, -⟩
      · rw [hall]
        exact hj
      · exact absurd hflush hnot
    · rw [← realFrame_drop, hposition, htaken, List.append_assoc, List.drop_left, ← hrest]
      exact hreal
  · intro hsettled stream hpre p hp j hj
    have hrest := rest_roundPass hp
    have hstaged := h.staged_prefix hpre
    rw [← realFrame_drop]
    rcases discarded_cases d p with ⟨hflush, hall⟩ | ⟨-, hrej⟩
    · -- in a flush the stage itself says that no frame can start here
      rw [hall] at hj
      rw [← hrest] at hstaged
      obtain ⟨more, hmore⟩ := hstaged
      rw [← hmore]
      intro hreal
      exact hsettled p hp hflush j hj ((mayStart_iff hj).2 ⟨more, hreal⟩)
    · have hrejected := hrej j hj
      rw [hrest] at hrejected
      exact hrejected.stable hstaged

/-- **Resync and flush drop only junk** in a run that feeds a stream when every stage is settled that is flushed.
That is exactly what it takes for any stream that begins with the bytes the pump has taken. -/
theorem drops_only_junk_iff {d : Mp3Decoder σ} (hd : d.Bounded) {r : CqDecring w} (hr : Fresh r)
    (hdvd : SizesDivide r) (dec : σ) (stream : Bytes) (steps : List SpscStep)
    (hfeeds : Meets (Spsc.step true d) (Feeds stream) (Spsc.init r dec) steps) :
    (Meets (Spsc.step true d) (FlushesSettled d) (Spsc.init r dec) steps →
      Meets (Spsc.step true d) (DropsOnlyJunk d stream) (Spsc.init r dec) steps) ∧
    (Meets (Spsc.step true d)
        (fun s a => ∀ other, s.compLog.taken <+: other → DropsOnlyJunk d other s a) (Spsc.init r dec) steps ↔
      Meets (Spsc.step true d) (FlushesSettled d) (Spsc.init r dec) steps) := by
  have hinit : (Spsc.init r dec).Streams stream := ⟨Spsc.Inv.init hr dec, hdvd, List.nil_prefix⟩
  have hkeep : ∀ (s : Spsc w σ) (a : SpscStep) (t : Spsc w σ), s.Streams stream → Feeds stream s a →
      s.step true d a = some t → t.Streams stream := fun s a t h hok ht => h.step hd hok ht
  constructor
  · intro hsettled
    -- the stream that is fed is one of those
    apply meets_of_meets (Spsc.Streams stream) ?_ ?_ hinit (meets_and hfeeds hsettled)
    · intro s a t h hok ht
      exact hkeep s a t h hok.1 ht
    · intro s a h hok
      exact (dropsOnlyJunk_iff h.inv a).2 hok.2 stream h.taken
  · exact meets_congr_of_meets (Spsc.Streams stream) hkeep (fun s a h => dropsOnlyJunk_iff h.inv a) hinit hfeeds

/-! ## A run with a resync and a flush -/

/-- Junk in front of frames holds the gate. -/
theorem gateHolds_zeros (eof : Bool) {n : Nat} (rest : Bytes) (hn : 0 < n) :
    GateHolds eof (List.replicate n 0 ++ rest) := by
  rw [GateHolds, walkFrames_zeros rest hn]
  split <;> omega

/-- A compressed ring of 32 KB and a PCM ring of 16 KB. -/
def spliceRing : CqDecring 32 := cqDecringInit (fun _ => 0) 32768 (fun _ => 0) 16384 0 0

theorem spliceRing_fresh : Fresh spliceRing :=
  { comp_empty := rfl
    pcm_empty := rfl
    stage_empty := rfl
    comp_pos := by decide
    pcm_pos := by decide }

theorem spliceRing_divide : SizesDivide spliceRing := ⟨by decide, by decide⟩

/-- The producer puts `xs` and a pass begins. -/
def stageSteps (xs : Bytes) : List SpscStep := (Spsc.init spliceRing ()).stageSteps xs

def firstPass (xs : Bytes) : Spsc 32 Unit := ((Spsc.init spliceRing ()).put xs).afterTopUp (0 + xs.length)

theorem run_firstPass {xs : Bytes} (hfit : xs.length ≤ 32768) :
    run (Spsc.step true silenceDecoder) (Spsc.init spliceRing ()) (stageSteps xs) = some (firstPass xs) ∧
      (firstPass xs).ring.stage = xs ∧ (firstPass xs).pcmSpaceAt 0 = 16384 ∧
      (firstPass xs).ring.resyncs = 0 ∧ (firstPass xs).ring.flushes = 0 := by
  have hroom : (Spsc.init spliceRing ()).ring.stage.length + xs.length ≤ cqDecringStage := by
    show 0 + xs.length ≤ 65536
    omega
  obtain ⟨hrun, hstage⟩ := Spsc.run_stageSteps silenceDecoder_bounded (Spsc.Inv.init spliceRing_fresh ())
    spliceRing_divide rfl rfl rfl hfit hroom
  obtain ⟨-, hsize, hwr, hresyncs, hflushes⟩ :=
    Spsc.afterTopUp_keeps ((Spsc.init spliceRing ()).put xs) (0 + xs.length)
  refine ⟨hrun, hstage, ?_, hresyncs, hflushes⟩
  rw [Spsc.pcmSpaceAt, firstPass, hsize, hwr]
  show (16384#32 - (0#32 - counter 32 0 0)).toNat = 16384
  decide

/-- Its first round starts from `xs`, with room for PCM. -/
theorem roundPass_firstPass {xs : Bytes} (hfit : xs.length ≤ 32768) :
    ∃ p, (firstPass xs).roundPass silenceDecoder (.round 0 false) = some p ∧ p.rest = xs ∧
      p.ring.eof = false ∧ (pcmSpace p.ring).toNat = 16384 ∧ p.ring.resyncs = 0 ∧ p.ring.flushes = 0 := by
  obtain ⟨-, hstage, hspace, hresyncs, hflushes⟩ := run_firstPass hfit
  exact ⟨_, roundPass_of_pass silenceDecoder rfl ⟨le_refl _, fun _ => le_refl _⟩
    (fun h => absurd h (by decide)), hstage, rfl, hspace, hresyncs, hflushes⟩

/-- The producer delivers the beginning of the stream. -/
theorem feeds_stageSteps {xs stream : Bytes} (hpre : xs <+: stream) :
    Meets (Spsc.step true silenceDecoder) (Feeds stream) (Spsc.init spliceRing ()) (stageSteps xs) := by
  refine ⟨trivial, fun t ht => ⟨?_, fun u _ => ⟨trivial, fun v _ => ⟨trivial, fun _ _ => trivial⟩⟩⟩⟩
  -- nothing has been sent before
  cases ht
  exact hpre

/-- Producer steps meet every condition on rounds. -/
theorem meets_stageSteps {d : Mp3Decoder Unit} {ok : Spsc 32 Unit → SpscStep → Prop}
    (hok : ∀ s a, s.roundPass d a = none → ok s a) (s : Spsc 32 Unit) (xs : Bytes) :
    Meets (Spsc.step true d) ok s (stageSteps xs) := by
  apply meets_of_forall
  intro a ha u
  apply hok
  simp only [stageSteps, Spsc.stageSteps, List.mem_cons, List.not_mem_nil, or_false] at ha
  rcases ha with rfl | rfl | rfl | rfl <;> rfl

/-- Junk, two frames, and junk again. -/
def spliced : Bytes := List.replicate 8193 0 ++ (shortFrame ++ (shortFrame ++ List.replicate 8193 0))

theorem isFrame_shortFrame : IsFrame 2 24000 shortFrame := ⟨⟨2, 8, 24000, 1, 576, 24⟩, by decide +kernel⟩

/-- A frame with nothing but zeros behind it is none that may be confirmed, nor is anything behind its head. -/
theorem settled_frame_zeros {n : Nat} (hn : 4 ≤ n) :
    ∀ j < (shortFrame ++ List.replicate n 0).length, ¬ MayStart (shortFrame ++ List.replicate n 0) j := by
  have hlen : shortFrame.length = 24 := rfl
  intro j hj
  by_cases hhead : j = 0
  · subst hhead
    rintro ⟨a, ha, b, hb, -⟩
    obtain ⟨f, hf, hbytes, -⟩ := isFrame_shortFrame.parse_append (List.replicate n 0)
    rw [parse_headerSoFar, List.drop_zero, completed_of_le rfl (by rw [List.length_append]; omega), hf] at ha
    cases ha
    -- the frame ends where the zeros begin
    rw [Nat.zero_add, hbytes, List.drop_left, completed] at hb
    have hzeros := parse_zeros ((headerSoFar (shortFrame ++ List.replicate n 0) 0).drop
      (List.replicate n (0 : UInt8)).length) (show 0 < n by omega)
    rw [List.drop_zero] at hzeros
    cases hzeros.symm.trans hb
  · rw [List.length_append, List.length_replicate, hlen] at hj
    by_cases hframe : j < 24
    · have hbytes : ∀ i : Fin 24, i.val ≠ 0 → shortFrame[i.val]? ≠ none ∧ shortFrame[i.val]? ≠ some 0xFF := by
        decide
      obtain ⟨hsome, hne⟩ := hbytes ⟨j, hframe⟩ hhead
      obtain ⟨x, hx⟩ := Option.ne_none_iff_exists'.1 hsome
      apply not_mayStart_of_ne (x := x)
      · rw [List.getElem?_append_left (by omega)]
        exact hx
      · rintro rfl
        exact hne hx
    · apply not_mayStart_of_ne (x := 0)
      · rw [List.getElem?_append_right (by omega), List.getElem?_replicate, if_pos (by omega)]
      · decide

/-- A stage with something left is not dry. -/
theorem used_lt_of_rest {p : Pass w σ} (h : 0 < p.rest.length) : p.used < p.ring.stage.length := by
  rw [Pass.rest, List.length_drop] at h
  omega

/-- The round behind a resync starts from the frame that the sync has found. -/
theorem round_resync {d : Mp3Decoder σ} {s : Spsc w σ} {v : Nat} {eof : Bool} {p : Pass w σ}
    (hp : s.roundPass d (.round v eof) = some p) (hgate : AtGate p) (hdeep : 8192 < p.rest.length) {off : Nat}
    {f : CqMp3Frame} (hsync : cqMp3Sync p.rest = some (off, f)) (hoff : 0 < off) :
    ∃ t q, s.step true d (.round v eof) = some t ∧ t.roundPass d (.round v eof) = some q ∧
      q.rest = p.rest.drop off ∧ q.ring.eof = p.ring.eof ∧ pcmSpace q.ring = pcmSpace p.ring ∧
      q.ring.resyncs = p.ring.resyncs + 1 ∧ q.ring.flushes = p.ring.flushes := by
  obtain ⟨t, ht, -, -, hnext⟩ := step_roundPass hp
  have hround := pumpRound_resync d hgate hdeep hsync hoff
  refine ⟨t, _, ht, hnext _ hround, ?_, rfl, rfl, rfl, rfl⟩
  simp only [Pass.rest, List.drop_drop]

/-- The round behind a frame starts from what follows it. -/
theorem round_decode {version samplerate : Nat} {d : Mp3Decoder σ} (hd : d.Bounded)
    (hexact : FrameExact d version samplerate) {s : Spsc w σ} {v : Nat} {eof : Bool} {p : Pass w σ}
    (hp : s.roundPass d (.round v eof) = some p) {b rest : Bytes} (hrest : p.rest = b ++ rest)
    (hb : IsFrame version samplerate b) (hnext : NextOk version samplerate rest) (hroom : PcmRoom p.ring)
    (hgate : ¬ GateHolds p.ring.eof p.rest) :
    ∃ t q, s.step true d (.round v eof) = some t ∧ t.roundPass d (.round v eof) = some q ∧ q.rest = rest ∧
      q.ring.eof = p.ring.eof ∧
      (pcmSpace p.ring).toNat ≤ (pcmSpace q.ring).toNat + cqMp3decMaxSamples * 2 ∧
      q.ring.resyncs = p.ring.resyncs ∧ q.ring.flushes = p.ring.flushes := by
  obtain ⟨t, ht, -, -, hgo⟩ := step_roundPass hp
  have hround := pumpRound_decode hexact hroom hrest hb hnext hgate
  obtain ⟨hrest', hspace⟩ := decodeFrame_rest hd hrest hroom
  have hkeep : (p.decodeFrame d b).ring.eof = p.ring.eof ∧
      (p.decodeFrame d b).ring.resyncs = p.ring.resyncs ∧
      (p.decodeFrame d b).ring.flushes = p.ring.flushes := by
    simp only [Pass.decodeFrame]
    split <;> exact ⟨rfl, rfl, rfl⟩
  exact ⟨t, _, ht, hgo _ hround, hrest', hkeep.1, hspace, hkeep.2.1, hkeep.2.2⟩

/-- Zeros in front hold the pass at the gate. -/
theorem atGate_zeros {p : Pass w σ} {n : Nat} {rest : Bytes} (hrest : p.rest = List.replicate n 0 ++ rest)
    (hn : 0 < n) (hroom : PcmRoom p.ring) : AtGate p := by
  refine ⟨hroom, used_lt_of_rest ?_, ?_⟩
  · rw [hrest, List.length_append, List.length_replicate]
    omega
  · rw [hrest]
    exact gateHolds_zeros _ _ hn

/-- Two frames in front open it. -/
theorem not_gateHolds_shortFrames (eof : Bool) (rest : Bytes) :
    ¬ GateHolds eof (shortFrame ++ (shortFrame ++ rest)) := by
  rw [GateHolds, (walkFrames_frame isFrame_shortFrame).2 _ _ isFrame_shortFrame rfl]
  split <;> omega

/-- Two rounds skip deep junk and decode the first of two frames behind it. With room for two frames at the
beginning, there is room for the second one. -/
theorem rounds_junk_frame {s : Spsc w Unit} {v : Nat} {eof : Bool} {p : Pass w Unit}
    (hp : s.roundPass silenceDecoder (.round v eof) = some p) {rest : Bytes}
    (hrest : p.rest = List.replicate 8193 0 ++ (shortFrame ++ (shortFrame ++ rest)))
    (hspace : 2 * (cqMp3decMaxSamples * 2) ≤ (pcmSpace p.ring).toNat) :
    ∃ s₁ q s₂ r, s.step true silenceDecoder (.round v eof) = some s₁ ∧
      s₁.roundPass silenceDecoder (.round v eof) = some q ∧
      s₁.step true silenceDecoder (.round v eof) = some s₂ ∧
      s₂.roundPass silenceDecoder (.round v eof) = some r ∧ ¬ Flushes p ∧ ¬ Flushes q ∧
      r.rest = shortFrame ++ rest ∧ r.ring.eof = p.ring.eof ∧ PcmRoom r.ring ∧
      r.ring.resyncs = p.ring.resyncs + 1 ∧ r.ring.flushes = p.ring.flushes := by
  have hroom : PcmRoom p.ring := by
    rw [PcmRoom]
    omega
  have hdeep : 8192 < p.rest.length := by
    rw [hrest, List.length_append, List.length_replicate]
    omega
  -- the junk is skipped
  obtain ⟨f, hsync⟩ := sync_zeros_frames 8193 isFrame_shortFrame isFrame_shortFrame rest
  rw [← hrest] at hsync
  obtain ⟨s₁, q, hs₁, hq, hrest₁, heof₁, hspace₁, hresyncs₁, hflushes₁⟩ :=
    round_resync hp (atGate_zeros hrest (by decide) hroom) hdeep hsync (by decide)
  rw [hrest, List.drop_left' List.length_replicate] at hrest₁
  -- the first frame has a successor and is decoded
  have hroom₁ : PcmRoom q.ring := by
    rw [PcmRoom, hspace₁]
    exact hroom
  have hopen : ¬ GateHolds q.ring.eof q.rest := by
    rw [hrest₁]
    exact not_gateHolds_shortFrames _ _
  obtain ⟨s₂, r, hs₂, hr, hrest₂, heof₂, hspace₂, hresyncs₂, hflushes₂⟩ :=
    round_decode silenceDecoder_bounded (silenceDecoder_exact 2 24000) hq hrest₁ isFrame_shortFrame
      (isFrame_shortFrame.nextOk _) hroom₁ hopen
  refine ⟨s₁, q, s₂, r, hs₁, hq, hs₂, hr, ?_, fun h => hopen h.1.2.2, hrest₂, heof₂.trans heof₁, ?_,
    hresyncs₂.trans hresyncs₁, hflushes₂.trans hflushes₁⟩
  · intro h
    exact absurd (h.2.2.symm.trans hsync) (by simp)
  · rw [PcmRoom]
    rw [hspace₁] at hspace₂
    omega

/-- **The rounds of the pass**: a resync, a frame, and a flush of what can be no frame. -/
theorem rounds_spliced : ∃ s₁ s₂ s₃,
    (firstPass spliced).step true silenceDecoder (.round 0 false) = some s₁ ∧
      s₁.step true silenceDecoder (.round 0 false) = some s₂ ∧
      s₂.step true silenceDecoder (.round 0 false) = some s₃ ∧
      FlushesSettled silenceDecoder (firstPass spliced) (.round 0 false) ∧
      FlushesSettled silenceDecoder s₁ (.round 0 false) ∧ FlushesSettled silenceDecoder s₂ (.round 0 false) ∧
      s₃.ring.resyncs = 1 ∧ s₃.ring.flushes = 1 := by
  have hlen : spliced.length = 16434 := by
    simp only [spliced, List.length_append, List.length_replicate]
    rfl
  obtain ⟨p, hp, hrest, heof, hspace, hresyncs, hflushes⟩ :=
    roundPass_firstPass (show spliced.length ≤ 32768 by omega)
  obtain ⟨s₁, q, s₂, r, hs₁, hq, hs₂, hr, hjunk, hframe, hrest₂, heof₂, hroom₂, hresyncs₂, hflushes₂⟩ :=
    rounds_junk_frame hp hrest (by rw [hspace]; decide)
  -- the second frame has no successor, and everything behind it is zeros
  have hsettled : ∀ j < r.rest.length, ¬ MayStart r.rest j := by
    rw [hrest₂]
    exact settled_frame_zeros (by decide)
  have hdeep : 8192 < r.rest.length := by
    rw [hrest₂, List.length_append, List.length_replicate]
    omega
  have hflush : Flushes r := by
    refine ⟨⟨hroom₂, used_lt_of_rest (by omega), ?_⟩, hdeep, sync_none_of_settled hsettled⟩
    have hnone : walkFrames (List.replicate 8193 0) 1 = 0 := by
      rw [← List.append_nil (List.replicate 8193 (0 : UInt8))]
      exact walkFrames_zeros [] (by decide) 1
    rw [GateHolds, hrest₂, (walkFrames_frame isFrame_shortFrame).1 hnone, heof₂, heof]
    decide
  obtain ⟨s₃, hs₃, hring, -⟩ := step_roundPass hr
  rw [pumpRound_flush silenceDecoder hflush] at hring
  refine ⟨s₁, s₂, s₃, hs₁, hs₂, hs₃, ?_, ?_, ?_, ?_, ?_⟩
  · intro p' hp' hflush'
    cases hp.symm.trans hp'
    exact absurd hflush' hjunk
  · intro p' hp' hflush'
    cases hq.symm.trans hp'
    exact absurd hflush' hframe
  · intro p' hp' _
    cases hr.symm.trans hp'
    exact hsettled
  · rw [hring]
    show r.ring.resyncs = 1
    omega
  · rw [hring]
    show r.ring.flushes + 1 = 1
    omega

/-- The steps of the run. -/
def splicedSteps : List SpscStep := stageSteps spliced ++ List.replicate 3 (.round 0 false)

theorem drops_only_junk_sample :
    ((run (Spsc.step true silenceDecoder) (Spsc.init spliceRing ()) splicedSteps).map
        fun s => (s.ring.resyncs, s.ring.flushes)) = some (1, 1) ∧
      Meets (Spsc.step true silenceDecoder) (DropsOnlyJunk silenceDecoder spliced) (Spsc.init spliceRing ())
        splicedSteps := by
  have hlen : spliced.length ≤ 32768 := by
    simp only [spliced, List.length_append, List.length_replicate]
    decide
  obtain ⟨hrun, -⟩ := run_firstPass hlen
  obtain ⟨s₁, s₂, s₃, hs₁, hs₂, hs₃, hok, hok₁, hok₂, hresyncs, hflushes⟩ := rounds_spliced
  have hrounds : run (Spsc.step true silenceDecoder) (firstPass spliced) (List.replicate 3 (.round 0 false)) =
      some s₃ := by
    rw [List.replicate_succ, run_cons, hs₁, Option.bind_some, List.replicate_succ, run_cons, hs₂,
      Option.bind_some, List.replicate_succ, run_cons, hs₃]
    rfl
  constructor
  · rw [splicedSteps, run_append, hrun, Option.bind_some, hrounds, Option.map_some, hresyncs, hflushes]
  · refine (drops_only_junk_iff silenceDecoder_bounded spliceRing_fresh spliceRing_divide () spliced
      splicedSteps ?_).1 ?_
    · refine (meets_append hrun).2 ⟨feeds_stageSteps (List.prefix_refl _), meets_of_forall ?_ _⟩
      intro a ha u
      rw [List.eq_of_mem_replicate ha]
      exact True.intro
    · refine (meets_append hrun).2 ⟨meets_stageSteps ?_ _ _, ?_⟩
      · intro u a hnone p hp
        cases hnone.symm.trans hp
      · rw [List.replicate_succ, List.replicate_succ, List.replicate_succ]
        exact meets_cons hok hs₁ (meets_cons hok₁ hs₂ (meets_cons hok₂ hs₃ True.intro))

/-! ## A frame at the end of a deep stage -/

/-- Junk from a splice, and the stream behind it. -/
def splice : Bytes := List.replicate 8190 0 ++ (longFrame ++ longFrame)

/-- What the socket has delivered of it: the junk and the header of the first frame. -/
def delivered : Bytes := List.replicate 8190 0 ++ longFrame.take 4

theorem length_delivered : delivered.length = 8194 := by
  rw [delivered, List.length_append, List.length_replicate, List.length_take, length_longFrame]
  rfl

theorem delivered_prefix : delivered <+: splice := by
  rw [delivered, splice, List.prefix_append_right_inj]
  exact (List.take_prefix 4 longFrame).trans (List.prefix_append _ _)

/-- The scan gives up at the header: its frame is not all there. -/
theorem sync_delivered : cqMp3Sync delivered = none := by
  have hdrop : delivered.drop 8190 = longFrame.take 4 := List.drop_left' List.length_replicate
  have hparse : cqMp3Parse (longFrame.take 4) = some ⟨1, 128, 44100, 1, 1152, 417⟩ := by
    decide +kernel
  have hund : Undecided delivered 8190 := by
    rw [← hdrop] at hparse
    rw [undecided_iff_of_some hparse, length_delivered]
    decide
  refine sync_none_of_undecided hund fun j hj => ?_
  have hlen : (longFrame.take 4).length = 4 := by
    rw [List.length_take, length_longFrame]
    rfl
  exact rejected_zeros hj (by rw [hlen]; omega)

theorem realFrame_splice : RealFrame splice 8190 := by
  have hreal := isFrame_longFrame.realFrame isFrame_longFrame []
  have hdrop : splice.drop 8190 = longFrame ++ (longFrame ++ []) := by
    rw [List.append_nil]
    exact List.drop_left' List.length_replicate
  rw [← hdrop, realFrame_drop] at hreal
  exact hreal

/-- A deep stage that the scan gives up on is dropped, and with it any real frame of the stream that starts
there. -/
theorem drops_frame {xs stream : Bytes} {off : Nat} (hfit : xs.length ≤ 32768)
    (hdeep : 8192 < xs.length) (hgate : GateHolds false xs) (hsync : cqMp3Sync xs = none)
    (hoff : off < xs.length) (hreal : RealFrame stream off) :
    ∃ s, run (Spsc.step true silenceDecoder) (Spsc.init spliceRing ()) (stageSteps xs) = some s ∧
      ¬ DropsOnlyJunk silenceDecoder stream s (.round 0 false) := by
  obtain ⟨hrun, -⟩ := run_firstPass hfit
  obtain ⟨p, hp, hrest, heof, hspace, -⟩ := roundPass_firstPass hfit
  have hflush : Flushes p := by
    rw [← hrest] at hdeep hgate hsync
    refine ⟨⟨?_, used_lt_of_rest (by omega), ?_⟩, hdeep, hsync⟩
    · rw [PcmRoom, hspace]
      decide
    · rw [heof]
      exact hgate
  -- all that has been taken is staged
  have hposition : (firstPass xs).position = 0 := by
    have htaken : (firstPass xs).compLog.taken = (firstPass xs).staged := rfl
    rw [Spsc.position, htaken, Nat.sub_self]
  refine ⟨_, hrun, ?_⟩
  intro hjunk
  rcases discarded_cases silenceDecoder p with ⟨-, hall⟩ | ⟨hnot, -⟩
  · apply hjunk p hp off
    · rw [hall, hrest]
      exact hoff
    · rw [hposition, Nat.zero_add]
      exact hreal
  · exact hnot hflush

/-- **A flush drops a frame.** Junk from a splice and the header of the frame behind it have been staged. The
rest of the frame is still to come, and the round flushes the header with the junk. -/
theorem flush_drops_frame :
    Meets (Spsc.step true silenceDecoder) (Feeds splice) (Spsc.init spliceRing ())
        (stageSteps delivered) ∧
      ∃ s, run (Spsc.step true silenceDecoder) (Spsc.init spliceRing ()) (stageSteps delivered) =
          some s ∧ ¬ DropsOnlyJunk silenceDecoder splice s (.round 0 false) := by
  have hlen := length_delivered
  have hgate : GateHolds false delivered := gateHolds_zeros _ _ (by decide)
  refine ⟨feeds_stageSteps delivered_prefix, ?_⟩
  exact drops_frame (by omega) (by omega) hgate sync_delivered
    (show 8190 < delivered.length by omega) realFrame_splice

end Casquinha.Decode
