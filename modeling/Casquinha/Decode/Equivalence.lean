import Casquinha.Decode.Frames
import Casquinha.Decode.Passes

/-!
# Ring decode equals flat decode

A stream of whole coherent frames is fed through the compressed ring, in any pieces and against any
schedule of pump steps and PCM reads. At every moment the pump stands at a frame boundary of the
stream, the decoder is in the state the flat decode has there, and the PCM sent so far is the flat
decode's (`StreamInv.step`). The tail gate lets a frame through only when the decoder can confirm its
end, and it never holds enough bytes back for a resync or a flush (`pumpRound_boundary`).

Once everything is staged and the end of the stream is raised, pump passes and drains come to rest,
and at rest everything has been decoded (`ring_decode_eq_flat`).
-/

set_option autoImplicit false

namespace Casquinha.Decode

open Lib

variable {w : Nat} {σ : Type} {version samplerate : Nat}

/-! ## One round at a frame boundary -/

/-- The pass after it has decoded the frame `b`. -/
def Pass.decodeFrame (d : Mp3Decoder σ) (p : Pass w σ) (b : Bytes) : Pass w σ :=
  let call := d.decodeFrame p.dec b
  let p := { p with
    dec := call.1
    fed := p.fed ++ [p.rest]
    used := p.used + b.length
    progress := true }
  if call.2.samples ≤ 0 then p
  else { p with ring := pumpPut p.ring call.2.pcm, decoded := p.decoded ++ call.2.pcm }

/-- Past the gate, with a proper continuation, the round decodes one frame. -/
theorem pumpRound_decode {d : Mp3Decoder σ} (hexact : FrameExact d version samplerate)
    {p : Pass w σ} {b rest : Bytes} (hroom : PcmRoom p.ring) (hrest : p.rest = b ++ rest)
    (hb : IsFrame version samplerate b) (hnext : NextOk version samplerate rest)
    (hgate : ¬ GateHolds p.ring.eof p.rest) :
    pumpRound d p = (p.decodeFrame d b, true) := by
  have hpos := hb.length_bounds.1
  have hlen : p.rest.length = p.ring.stage.length - p.used := List.length_drop
  have hdry : ¬ p.ring.stage.length ≤ p.used := by
    intro hdry
    rw [hrest, List.length_append] at hlen
    omega
  have hcall : cqMp3decFrame d p.dec p.rest = d.decodeFrame p.dec b := by
    rw [hrest, hexact.cqMp3decFrame_append p.dec hb hnext]
  have hconsumed := hexact.consumed_eq p.dec b hb
  rw [pumpRound, if_neg (not_not.2 hroom), if_neg hdry, if_neg hgate, pumpDecode]
  simp only [hcall, hconsumed, Pass.decodeFrame, Int.toNat_natCast]
  rw [if_neg (by omega)]
  split <;> rfl

/-- A held gate does nothing when less than three frames are staged. -/
theorem pumpRound_held {d : Mp3Decoder σ} {p : Pass w σ} (hshort : p.rest.length ≤ 8192)
    (hgate : GateHolds p.ring.eof p.rest) : pumpRound d p = (p, false) := by
  have hheld : pumpHeld p = (p, false) := by rw [pumpHeld, if_neg (Nat.not_lt.2 hshort)]
  rw [pumpRound, if_pos hgate, hheld]
  split
  · rfl
  · split <;> rfl

/-- **A round at a frame boundary** stops, or decodes the next frame of the stream. At the end of the
stream it stops only for want of PCM space or of frames. -/
theorem pumpRound_boundary {d : Mp3Decoder σ} (hexact : FrameExact d version samplerate)
    {p : Pass w σ} (todo : List Bytes) (hframes : ∀ b ∈ todo, IsFrame version samplerate b)
    (hpre : p.rest <+: todo.flatten) (heof : p.ring.eof = true → p.rest = todo.flatten) :
    (pumpRound d p = (p, false) ∧ (p.ring.eof = true → PcmRoom p.ring → todo = [])) ∨
    ∃ b todo', todo = b :: todo' ∧ (∃ rest, p.rest = b ++ rest) ∧
      pumpRound d p = (p.decodeFrame d b, true) := by
  by_cases hroom : PcmRoom p.ring
  · cases todo with
    | nil =>
        have hnil : p.rest = [] := List.prefix_nil.1 hpre
        have hdry : p.ring.stage.length ≤ p.used := List.drop_eq_nil_iff.1 hnil
        exact Or.inl ⟨by rw [pumpRound, if_neg (not_not.2 hroom), if_pos hdry], fun _ _ => rfl⟩
    | cons b todo =>
        have hb := hframes b List.mem_cons_self
        have hbounds := hb.length_bounds
        have htodo : ∀ c ∈ todo, IsFrame version samplerate c :=
          fun c hc => hframes c (List.mem_cons_of_mem _ hc)
        rcases walkFrames_cases hframes hpre with ⟨hwalk, hlt⟩ | ⟨rest, hrest, -, hcase⟩
        · have hfalse : p.ring.eof = false := by
            rw [← Bool.not_eq_true]
            intro he
            rw [heof he, List.flatten_cons, List.length_append] at hlt
            omega
          -- less than a frame is staged, which `eof` rules out
          refine Or.inl ⟨pumpRound_held (by omega) ?_, fun he => by simp [hfalse] at he⟩
          rw [GateHolds, hwalk]
          split <;> omega
        · rcases hcase with ⟨hwalk, hlt⟩ | ⟨hwalk, c, rest', hc, rfl⟩
          · -- one whole frame: the gate wants its successor unless the stream has ended
            by_cases he : p.ring.eof = true
            · have hend : rest = todo.flatten := by
                have := heof he
                rw [hrest, List.flatten_cons] at this
                exact List.append_cancel_left this
              refine Or.inr ⟨b, todo, rfl, ⟨rest, hrest⟩, ?_⟩
              refine pumpRound_decode hexact hroom hrest hb (hend ▸ nextOk_flatten htodo) ?_
              rw [GateHolds, hwalk, if_pos he]
              omega
            · have hlen : p.rest.length = b.length + rest.length := by
                rw [hrest, List.length_append]
              refine Or.inl ⟨pumpRound_held (by omega) ?_, fun he' => absurd he' he⟩
              rw [GateHolds, hwalk, if_neg he]
              omega
          · refine Or.inr ⟨b, todo, rfl, ⟨_, hrest⟩, ?_⟩
            refine pumpRound_decode hexact hroom hrest hb (hc.nextOk _) ?_
            rw [GateHolds, hwalk]
            split <;> omega
  · exact Or.inl ⟨by rw [pumpRound, if_pos hroom], fun _ h => absurd h hroom⟩

/-! ## The stream invariant -/

namespace Spsc

/-- Staged bytes the pass under way has used up. -/
def used (s : Spsc w σ) : Nat :=
  match s.pass with
  | none => 0
  | some p => p.used

/-- Staged bytes that are not decoded yet. -/
def staged (s : Spsc w σ) : Bytes := s.ring.stage.drop s.used

end Spsc

/-- The producer feeds `data` and raises the end of the stream when all of it has been staged. -/
def FeedsStream (data : Bytes) (s : Spsc w σ) : SpscStep → Prop
  | .fill xs => s.compLog.sent ++ xs <+: data
  | .eof => s.compLog.sent = data ∧ s.ring.compWr = s.ring.compRd
  | _ => True

instance (data : Bytes) (s : Spsc w σ) (act : SpscStep) : Decidable (FeedsStream data s act) :=
  match act with
  | .fill xs => inferInstanceAs (Decidable (s.compLog.sent ++ xs <+: data))
  | .eof => inferInstanceAs (Decidable (s.compLog.sent = data ∧ s.ring.compWr = s.ring.compRd))
  | .claim _ | .commit | .topUp _ | .round _ _ | .finish | .read _ _ => isTrue trivial

/-- The pump stands at a frame boundary: the frames before it are decoded as in the flat decode from
`a`, the frames behind it are staged, in the ring, or not committed yet. -/
structure StreamInv (d : Mp3Decoder σ) (a : Flat σ) (frames : List Bytes) (s : Spsc w σ) :
    Prop where
  inv : s.Inv
  compBase : s.compBase = 0
  pcmBase : s.pcmBase = 0
  feed : s.compLog.sent ++ s.compLog.pending <+: frames.flatten
  eof : s.ring.eof = true → s.compLog.taken = frames.flatten
  boundary : ∃ done todo, frames = done ++ todo ∧ s.compLog.taken = done.flatten ++ s.staged ∧
    s.dec = (decodeFrames d a done).state ∧ s.pcmLog.sent = (decodeFrames d a done).pcm ∧
    s.ring.frames = (decodeFrames d a done).frames
  pcmTotal : s.ring.pcmTotal = s.pcmLog.sent.length
  resyncs : s.ring.resyncs = 0
  flushes : s.ring.flushes = 0

variable {d : Mp3Decoder σ} {a : Flat σ} {frames : List Bytes} {s t : Spsc w σ}

theorem StreamInv.sent_prefix (h : StreamInv d a frames s) : s.compLog.sent <+: frames.flatten :=
  (List.prefix_append _ _).trans h.feed

/-- With totals that the cursors can count, no cursor has wrapped. -/
theorem StreamInv.addressed (h : StreamInv d a frames s) (hlen : frames.flatten.length < 2 ^ w)
    (hpcm : (decodeFrames d a frames).pcm.length < 2 ^ w) : s.Addressed := by
  constructor
  · right
    have := h.sent_prefix.length_le
    rw [h.compBase]
    omega
  · right
    obtain ⟨done, todo, hsplit, -, -, hsent, -⟩ := h.boundary
    have := (pcm_prefix_decodeFrames d todo (decodeFrames d a done)).length_le
    rw [← decodeFrames_append, ← hsplit] at this
    rw [h.pcmBase, hsent]
    omega

/-- One more frame decoded: the decoder and the PCM move on as in the flat decode. -/
theorem decodeFrame_flat {p : Pass w σ} {done : List Bytes} {b : Bytes}
    (hdec : p.dec = (decodeFrames d a done).state) (hdecoded : p.decoded = []) :
    (p.decodeFrame d b).dec = (decodeFrames d a (done ++ [b])).state ∧
      (decodeFrames d a done).pcm ++ (p.decodeFrame d b).decoded =
        (decodeFrames d a (done ++ [b])).pcm ∧
      (p.ring.frames = (decodeFrames d a done).frames →
        (p.decodeFrame d b).ring.frames = (decodeFrames d a (done ++ [b])).frames) := by
  rw [decodeFrames_append]
  generalize decodeFrames d a done = f at hdec ⊢
  simp only [decodeFrames, List.foldl_cons, List.foldl_nil, Pass.decodeFrame, Flat.add, hdec,
    hdecoded]
  split
  · exact ⟨rfl, List.append_nil _, id⟩
  · refine ⟨rfl, rfl, ?_⟩
    intro h
    simp only [pumpPut, h]

/-- Decoding a frame leaves the stage alone, and counts what it puts. -/
theorem decodeFrame_ring (d : Mp3Decoder σ) {p : Pass w σ} (b : Bytes) (hdecoded : p.decoded = []) :
    (p.decodeFrame d b).ring.stage = p.ring.stage ∧ (p.decodeFrame d b).used = p.used + b.length ∧
      (p.decodeFrame d b).ring.pcmTotal = p.ring.pcmTotal + (p.decodeFrame d b).decoded.length ∧
      (p.decodeFrame d b).ring.resyncs = p.ring.resyncs ∧
      (p.decodeFrame d b).ring.flushes = p.ring.flushes := by
  simp only [Pass.decodeFrame, hdecoded]
  split <;> exact ⟨rfl, rfl, rfl, rfl, rfl⟩

theorem StreamInv.init {r : CqDecring w} (hr : Fresh r) (hcomp : r.compRd = 0) (hpcm : r.pcmRd = 0)
    (hquiet : r.frames = 0 ∧ r.pcmTotal = 0 ∧ r.resyncs = 0 ∧ r.flushes = 0 ∧ r.eof = false)
    (frames : List Bytes) (dec : σ) : StreamInv d ⟨dec, [], 0⟩ frames (Spsc.init r dec) :=
  { inv := Spsc.Inv.init hr dec
    compBase := by simp [Spsc.init, hcomp]
    pcmBase := by simp [Spsc.init, hpcm]
    feed := List.nil_prefix
    eof := fun h => absurd (hquiet.2.2.2.2.symm.trans h) (by decide)
    boundary := ⟨[], frames, rfl, by simp [Spsc.init, Spsc.staged, RingLog.empty, hr.stage_empty],
      rfl, rfl, hquiet.1⟩
    pcmTotal := hquiet.2.1
    resyncs := hquiet.2.2.1
    flushes := hquiet.2.2.2.1 }

/-- Equal cursors of the compressed ring: everything sent has been staged. -/
theorem taken_eq_sent {s : Spsc w σ} (h : s.Inv) (heq : s.ring.compWr = s.ring.compRd) :
    s.compLog.taken = s.compLog.sent := by
  have hle := h.comp.taken_le_sent
  have hsent := h.comp.sent_le
  have hsize := s.ring.compSize.isLt
  have hsub : (counter w s.compBase _ - counter w s.compBase _).toNat = _ :=
    toNat_counter_sub hle (by omega)
  rw [← h.compWr, ← h.compRd, heq, BitVec.sub_self] at hsub
  exact h.comp.taken_prefix.eq_of_length (by simp at hsub; omega)

/-- Equal cursors of the PCM ring: everything decoded has been read. -/
theorem pcm_taken_eq_sent {s : Spsc w σ} (h : s.Inv) (heq : s.ring.pcmWr = s.ring.pcmRd) :
    s.pcmLog.taken = s.pcmLog.sent := by
  have hle := h.pcm.taken_le_sent
  have hsent := h.pcm.sent_le
  have hsize := s.ring.pcmSize.isLt
  have hsub : (counter w s.pcmBase _ - counter w s.pcmBase _).toNat = _ :=
    toNat_counter_sub hle (by omega)
  rw [← h.pcmWr, ← h.pcmRd, heq, BitVec.sub_self] at hsub
  exact h.pcm.taken_prefix.eq_of_length (by simp at hsub; omega)

/-- The bytes staged behind the boundary are a piece of the frames still to come, and after the end
of the stream they are all of them. -/
theorem StreamInv.staged_prefix (h : StreamInv d a frames s) {done todo : List Bytes}
    (hsplit : frames = done ++ todo) (htaken : s.compLog.taken = done.flatten ++ s.staged) :
    s.staged <+: todo.flatten ∧ (s.ring.eof = true → s.staged = todo.flatten) := by
  have hpre : s.compLog.taken <+: frames.flatten := h.inv.comp.taken_prefix.trans h.sent_prefix
  rw [htaken, hsplit, List.flatten_append] at hpre
  refine ⟨(List.prefix_append_right_inj _).1 hpre, ?_⟩
  intro he
  have hall := h.eof he
  rw [htaken, hsplit, List.flatten_append] at hall
  exact List.append_cancel_left hall

/-- A top-up moves bytes from the ring to the end of the stage. -/
theorem StreamInv.topUp (h : StreamInv d a frames s) (hpass : s.pass = none) {v : Nat}
    (hinv : (s.afterTopUp v).Inv) : StreamInv d a frames (s.afterTopUp v) := by
  rw [Spsc.afterTopUp] at hinv ⊢
  have hall := hinv.comp.taken_prefix
  have hstage := pumpTopUp_spec (s.topUpView v)
  generalize ringRead _ _ _ _ = xs at hstage
  rw [hstage] at hinv hall ⊢
  simp only [Spsc.topUpView, List.drop_left, RingLog.take, RingLog.lookSent] at hinv hall ⊢
  obtain ⟨done, todo, hsplit, htaken, hrest⟩ := h.boundary
  -- between passes nothing of the stage is used up
  have hwhole : s.staged = s.ring.stage := by simp [Spsc.staged, Spsc.used, hpass]
  exact
    { h with
      inv := hinv
      eof := by
        intro he
        -- behind the end all of the stream has been staged, so nothing is left to take
        have hdata := h.eof he
        show s.compLog.taken ++ xs = frames.flatten
        rw [hdata] at hall ⊢
        have hlen := (hall.trans h.sent_prefix).length_le
        rw [List.length_append] at hlen
        rw [List.length_eq_zero_iff.1 (show xs.length = 0 by omega), List.append_nil]
      boundary := by
        refine ⟨done, todo, hsplit, ?_, hrest⟩
        simp only [Spsc.staged, Spsc.used, List.drop_zero]
        rw [htaken, hwhole, List.append_assoc] }

/-- A round decodes the next frame of the stream or stops. -/
theorem StreamInv.round (hexact : FrameExact d version samplerate)
    (hframes : ∀ b ∈ frames, IsFrame version samplerate b) (h : StreamInv d a frames s) {q : InPass}
    {v : Nat} (hq : s.pass = some q) {eof : Bool} (heof : eof = true → s.ring.eof = true)
    (hinv : (s.afterRound d q v eof).Inv) : StreamInv d a frames (s.afterRound d q v eof) := by
  obtain ⟨done, todo, hsplit, htaken, hdec, hpcm, hcount⟩ := h.boundary
  obtain ⟨hpre, hall⟩ := h.staged_prefix hsplit htaken
  have hpending := h.inv.pcm_pending
  have hstaged : s.staged = (s.roundView q v eof).rest := by simp [Spsc.staged, Spsc.used, hq]; rfl
  rw [hstaged] at hpre hall htaken
  have htodo : ∀ b ∈ todo, IsFrame version samplerate b :=
    fun b hb => hframes b (hsplit ▸ List.mem_append_right _ hb)
  rcases pumpRound_boundary hexact _ htodo hpre (fun he => hall (heof he)) with
    ⟨hstop, -⟩ | ⟨b, todo', rfl, ⟨rest, hrest⟩, hgo⟩
  · -- the round stops: no byte moves
    rw [Spsc.afterRound, hstop] at hinv ⊢
    exact
      { h with
        inv := hinv
        boundary := by
          refine ⟨done, todo, hsplit, ?_, hdec, ?_, hcount⟩
          · exact htaken
          · simp [Spsc.roundView, RingLog.publish, RingLog.write, RingLog.lookTaken, hpending, hpcm]
        pcmTotal := by
          simp [Spsc.roundView, RingLog.publish, RingLog.write, RingLog.lookTaken, hpending,
            h.pcmTotal] }
  · obtain ⟨hdec', hpcm', hcount'⟩ :=
      decodeFrame_flat (d := d) (a := a) (p := s.roundView q v eof) (b := b) hdec rfl
    obtain ⟨hstage, hused, htotal, hresyncs, hflushes⟩ :=
      decodeFrame_ring d (p := s.roundView q v eof) b rfl
    have hsent : ((s.pcmLog.lookTaken v).write
        ((s.roundView q v eof).decodeFrame d b).decoded).publish.sent =
          s.pcmLog.sent ++ ((s.roundView q v eof).decodeFrame d b).decoded := by
      simp [RingLog.publish, RingLog.write, RingLog.lookTaken, hpending]
    rw [Spsc.afterRound, hgo] at hinv ⊢
    exact
      { h with
        inv := hinv
        boundary := by
          refine ⟨done ++ [b], todo', by rw [hsplit, List.append_assoc]; rfl, ?_, hdec', ?_,
            hcount' hcount⟩
          · simp only [Spsc.staged, Spsc.used, hstage, hused]
            have hdrop : s.ring.stage.drop (q.used + b.length) = rest := by
              rw [← List.drop_drop, ← @List.drop_left _ b rest, ← hrest]
              rfl
            rw [htaken, hrest, List.flatten_append, List.flatten_singleton, List.append_assoc]
            exact congrArg _ (congrArg _ hdrop.symm)
          · rw [hsent, hpcm, hpcm']
        pcmTotal := by
          rw [hsent, List.length_append, ← h.pcmTotal]
          exact htotal
        resyncs := hresyncs.trans h.resyncs
        flushes := hflushes.trans h.flushes }

/-- **Every step of a feeding run keeps the stream invariant.** -/
theorem StreamInv.step (hd : d.Bounded) (hexact : FrameExact d version samplerate)
    (hframes : ∀ b ∈ frames, IsFrame version samplerate b) (hlen : frames.flatten.length < 2 ^ w)
    (hpcm : (decodeFrames d a frames).pcm.length < 2 ^ w) (h : StreamInv d a frames s)
    {act : SpscStep} (hok : FeedsStream frames.flatten s act)
    (ht : s.step true d act = some t) : StreamInv d a frames t := by
  have hinv := h.inv.step hd (h.addressed hlen hpcm) ht
  have hfeed : t.compLog.sent ++ t.compLog.pending <+: frames.flatten := by
    apply h.inv.written_step h.feed _ ht
    rintro xs rfl
    exact hok
  cases Spsc.stepped_of_step ht with
  | claim | read => exact { h with inv := hinv }
  | fill | commit =>
      exact
        { h with
          inv := hinv
          feed := hfeed }
  | eof =>
      obtain ⟨hsent, hcursors⟩ := hok
      exact
        { h with
          inv := hinv
          eof := fun _ => (taken_eq_sent h.inv hcursors).trans hsent }
  | topUp hpass =>
      -- the bytes move from the ring to the stage
      exact h.topUp hpass hinv
  | round hpass _ heof =>
      -- the one step that decodes
      exact h.round hexact hframes hpass heof hinv
  | finish hpass =>
      -- the compaction drops what the pass has used up
      obtain ⟨done, todo, hsplit, htaken, hrest⟩ := h.boundary
      exact
        { h with
          inv := hinv
          boundary := by
            refine ⟨done, todo, hsplit, ?_, hrest⟩
            rw [htaken, Spsc.staged, Spsc.used, hpass]
            rfl }

/-- Steps of the pump and of the interrupt feed nothing, so a run of them keeps the invariant. -/
theorem StreamInv.run (hd : d.Bounded) (hexact : FrameExact d version samplerate)
    (hframes : ∀ b ∈ frames, IsFrame version samplerate b) (hlen : frames.flatten.length < 2 ^ w)
    (hpcm : (decodeFrames d a frames).pcm.length < 2 ^ w) (h : StreamInv d a frames s)
    {steps : List SpscStep} (hsteps : ∀ act ∈ steps, act.Consumes)
    (ht : Lib.run (Spsc.step true d) s steps = some t) : StreamInv d a frames t := by
  have hfeeds : Meets (Spsc.step true d) (FeedsStream frames.flatten) s steps := by
    apply meets_of_forall
    intro act hact u
    have hconsumes := hsteps act hact
    cases act <;> trivial
  exact run_invariant_of_meets (StreamInv d a frames)
    (fun u act v hu hok hv => hu.step hd hexact hframes hlen hpcm hok hv) h hfeeds ht

/-! ## Coming to rest -/

/-- No pump pass is under way, and neither a pump pass nor a drain changes anything. -/
structure AtRest (d : Mp3Decoder σ) (s : Spsc w σ) : Prop where
  pass : s.pass = none
  pump : (s.pump d).ring = s.ring
  drain : s.drain.ring = s.ring

/-- The whole stream has been committed and staged, its end has been raised, and no pump pass is
under way. -/
structure Ended (d : Mp3Decoder σ) (a : Flat σ) (frames : List Bytes) (s : Spsc w σ) : Prop where
  stream : StreamInv d a frames s
  pass : s.pass = none
  staged : s.ring.compWr = s.ring.compRd
  eof : s.ring.eof = true
  pcmSize_ge : cqMp3decMaxSamples * 2 ≤ s.ring.pcmSize.toNat

/-- What a pump pass does when the compressed ring is empty. -/
theorem pump_ring {d : Mp3Decoder σ} (s : Spsc w σ) (h : s.ring.compWr = s.ring.compRd) :
    let p := pumpLoop d (s.ring.stage.length + 1) (pumpStart s.dec s.ring)
    (pumpStart s.dec s.ring).ring = s.ring ∧
      (s.pump d).ring = { p.ring with stage := p.ring.stage.drop p.used } := by
  obtain ⟨-, htop⟩ := pumpTopUp_of_eq h
  have hstart : (pumpStart s.dec s.ring).ring = s.ring := htop
  refine ⟨hstart, ?_⟩
  rw [← hstart]
  simp only [Spsc.pump, cqDecringPump, pumpFinish, hstart]

theorem Ended.pump (hd : d.Bounded) (hexact : FrameExact d version samplerate)
    (hframes : ∀ b ∈ frames, IsFrame version samplerate b) (hlen : frames.flatten.length < 2 ^ w)
    (hpcm : (decodeFrames d a frames).pcm.length < 2 ^ w) (h : Ended d a frames s) :
    Ended d a frames (s.pump d) := by
  -- a pass is a run of steps, and the invariant is known of every step
  obtain ⟨steps, hsteps, hrun⟩ := Spsc.steps_pump d h.stream.inv h.pass
  obtain ⟨hstart, hring⟩ := pump_ring (d := d) s h.staged
  obtain ⟨-, heof, -, hwr, hrd⟩ :=
    pumpLoop_frame d (s.ring.stage.length + 1) (pumpStart s.dec s.ring)
  rw [hstart] at heof hwr hrd
  exact
    { stream := h.stream.run hd hexact hframes hlen hpcm hsteps hrun
      pass := h.pass
      staged := by
        rw [hring]
        simp only [hwr, hrd]
        exact h.staged
      eof := by
        rw [hring]
        simp only [heof]
        exact h.eof
      pcmSize_ge := by
        have hsize := run_invariant (fun u => u.ring.pcmSize = s.ring.pcmSize)
          (fun u act v hu hv => (Spsc.step_sizes hv).2.1.trans hu) rfl hrun
        rw [hsize]
        exact h.pcmSize_ge }

theorem Ended.drain (hd : d.Bounded) (hexact : FrameExact d version samplerate)
    (hframes : ∀ b ∈ frames, IsFrame version samplerate b) (hlen : frames.flatten.length < 2 ^ w)
    (hpcm : (decodeFrames d a frames).pcm.length < 2 ^ w) (h : Ended d a frames s) :
    Ended d a frames s.drain := by
  obtain ⟨steps, hsteps, hrun⟩ := Spsc.steps_drain d h.stream.inv
  exact
    { stream := h.stream.run hd hexact hframes hlen hpcm hsteps hrun
      pass := h.pass
      staged := h.staged
      eof := h.eof
      pcmSize_ge := h.pcmSize_ge }

/-- A drain empties the PCM ring. -/
theorem drain_empty (s : Spsc w σ) : s.drain.ring.pcmWr = s.drain.ring.pcmRd := by
  simp only [Spsc.drain]
  rw [BitVec.ofNat_toNat, BitVec.setWidth_eq, BitVec.add_comm, BitVec.sub_add_cancel]

/-- An empty PCM ring of at least one frame has room for one. -/
theorem pcmRoom_of_empty {r : CqDecring w} (h : r.pcmWr = r.pcmRd)
    (hsize : cqMp3decMaxSamples * 2 ≤ r.pcmSize.toNat) : PcmRoom r := by
  rw [PcmRoom, pcmSpace, h, BitVec.sub_self, BitVec.sub_zero]
  exact hsize

/-- With PCM space, a pump pass decodes at least one staged frame. -/
theorem Ended.stage_lt (hd : d.Bounded) (hexact : FrameExact d version samplerate)
    (hframes : ∀ b ∈ frames, IsFrame version samplerate b) (h : Ended d a frames s)
    (hempty : s.ring.pcmWr = s.ring.pcmRd) (hne : s.ring.stage ≠ []) :
    (s.pump d).ring.stage.length < s.ring.stage.length := by
  obtain ⟨done, todo, hsplit, htaken, -⟩ := h.stream.boundary
  have hall := (h.stream.staged_prefix hsplit htaken).2 h.eof
  have hstage : s.staged = s.ring.stage := by simp [Spsc.staged, Spsc.used, h.pass]
  rw [hstage] at hall
  obtain ⟨hstart, hring⟩ := pump_ring (d := d) s h.staged
  have hrest : (pumpStart s.dec s.ring).rest = todo.flatten := by
    rw [Pass.rest, hstart]
    exact hall
  -- the first round decodes a frame, or the stream has ended
  rcases pumpRound_boundary hexact (p := pumpStart s.dec s.ring) todo
    (fun b hb => hframes b (hsplit ▸ List.mem_append_right _ hb))
    ⟨[], by rw [hrest, List.append_nil]⟩ (fun _ => hrest) with
    ⟨-, hstop⟩ | ⟨b, todo', rfl, -, hgo⟩
  · -- with room for PCM it stops on an empty stage only
    rw [hstart] at hstop
    have := hstop h.eof (pcmRoom_of_empty hempty h.pcmSize_ge)
    subst this
    exact absurd hall hne
  · -- a frame has bytes, and the rounds behind it take none back
    have hb := (hframes b (hsplit ▸ List.mem_append_right _ List.mem_cons_self)).length_bounds.1
    obtain ⟨hkeep, hused, -⟩ := decodeFrame_ring d (p := pumpStart s.dec s.ring) b rfl
    rw [hstart] at hkeep
    have hlen : s.ring.stage.length = b.length + todo'.flatten.length := by
      rw [hall, List.flatten_cons, List.length_append]
    have hzero : (pumpStart s.dec s.ring).used = 0 := rfl
    have hst := (pumpLoop_frame d s.ring.stage.length
      ((pumpStart s.dec s.ring).decodeFrame d b)).1
    obtain ⟨hle, hle'⟩ := pumpLoop_used hd s.ring.stage.length
      ((pumpStart s.dec s.ring).decodeFrame d b) (by rw [hkeep, hused, hzero]; omega)
    rw [hring, pumpLoop, hgo]
    simp only [hst, hkeep, List.length_drop]
    rw [hused, hzero] at hle
    omega

/-- With nothing staged and no PCM waiting, nothing changes any more. -/
theorem Ended.atRest (h : Ended d a frames s) (hempty : s.ring.pcmWr = s.ring.pcmRd)
    (hstage : s.ring.stage = []) : AtRest d s := by
  obtain ⟨hstart, hring⟩ := pump_ring (d := d) s h.staged
  have hstop : pumpRound d (pumpStart s.dec s.ring) = (pumpStart s.dec s.ring, false) := by
    have hroom : PcmRoom (pumpStart s.dec s.ring).ring := by
      rw [hstart]
      exact pcmRoom_of_empty hempty h.pcmSize_ge
    have hdry : (pumpStart s.dec s.ring).ring.stage.length ≤ (pumpStart s.dec s.ring).used := by
      rw [hstart, hstage]
      exact le_refl _
    rw [pumpRound, if_neg (not_not.2 hroom), if_pos hdry]
  refine ⟨h.pass, ?_, ?_⟩
  · rw [hring, pumpLoop, hstop]
    simp only [hstart]
    have hzero : (pumpStart s.dec s.ring).used = 0 := rfl
    rw [hzero, List.drop_zero]
  · have hnone : (s.ring.pcmWr - s.ring.pcmRd).toNat = 0 := by
      rw [hempty, BitVec.sub_self]
      rfl
    simp only [Spsc.drain, hnone, BitVec.add_zero]

/-- **Pump passes and drains come to rest.** -/
theorem Ended.comes_to_rest (hd : d.Bounded) (hexact : FrameExact d version samplerate)
    (hframes : ∀ b ∈ frames, IsFrame version samplerate b) (hlen : frames.flatten.length < 2 ^ w)
    (hpcm : (decodeFrames d a frames).pcm.length < 2 ^ w) (h : Ended d a frames s) :
    ∃ n, AtRest d ((fun u => (Spsc.pump d u).drain)^[n] s) := by
  have hround : ∀ {u : Spsc w σ}, Ended d a frames u → Ended d a frames (u.pump d).drain :=
    fun hu => (hu.pump hd hexact hframes hlen hpcm).drain hd hexact hframes hlen hpcm
  -- once the PCM ring is empty, every round shortens the stage
  have key : ∀ (m : Nat) (u : Spsc w σ), Ended d a frames u → u.ring.pcmWr = u.ring.pcmRd →
      u.ring.stage.length ≤ m → ∃ n, AtRest d ((fun u => (Spsc.pump d u).drain)^[n] u) := by
    intro m
    induction m with
    | zero =>
        intro u hu hempty hm
        exact ⟨0, hu.atRest hempty (List.length_eq_zero_iff.1 (Nat.le_zero.1 hm))⟩
    | succ m ih =>
        intro u hu hempty hm
        by_cases hstage : u.ring.stage = []
        · exact ⟨0, hu.atRest hempty hstage⟩
        · have hlt := hu.stage_lt hd hexact hframes hempty hstage
          obtain ⟨n, hn⟩ := ih (u.pump d).drain (hround hu) (drain_empty _)
            (by simp only [Spsc.drain]; omega)
          exact ⟨n + 1, hn⟩
  obtain ⟨n, hn⟩ := key _ (s.pump d).drain (hround h) (drain_empty _) (le_refl _)
  exact ⟨n + 1, hn⟩

/-- An ended stream stays one. -/
theorem Ended.iterate (hd : d.Bounded) (hexact : FrameExact d version samplerate)
    (hframes : ∀ b ∈ frames, IsFrame version samplerate b) (hlen : frames.flatten.length < 2 ^ w)
    (hpcm : (decodeFrames d a frames).pcm.length < 2 ^ w) (h : Ended d a frames s) (n : Nat) :
    Ended d a frames ((fun u => (Spsc.pump d u).drain)^[n] s) := by
  induction n with
  | zero => exact h
  | succ n ih =>
      rw [Function.iterate_succ_apply']
      exact (ih.pump hd hexact hframes hlen hpcm).drain hd hexact hframes hlen hpcm

/-- All of `data` has been decoded and read: the PCM and the counters are those of the flat decode, and the ring is
idle. -/
structure PlayedOut (d : Mp3Decoder σ) (dec : σ) (data : Bytes) (s : Spsc w σ) : Prop where
  taken : s.pcmLog.taken = (flatDecode d dec data).pcm
  frames : s.ring.frames = (flatDecode d dec data).frames
  pcmTotal : s.ring.pcmTotal = (flatDecode d dec data).pcm.length
  resyncs : s.ring.resyncs = 0
  flushes : s.ring.flushes = 0
  idle : cqDecringIdle s.ring = true

/-- At rest everything has been decoded and read. -/
theorem Ended.playedOut (hd : d.Bounded) (hexact : FrameExact d version samplerate)
    (hframes : ∀ b ∈ frames, IsFrame version samplerate b) {dec : σ} (h : Ended d ⟨dec, [], 0⟩ frames s)
    (hrest : AtRest d s) : PlayedOut d dec frames.flatten s := by
  have hempty : s.ring.pcmWr = s.ring.pcmRd := by
    have := drain_empty s
    rwa [hrest.drain] at this
  -- a stage that is not empty would shrink
  have hstage : s.ring.stage = [] := by
    by_contra hne
    have := h.stage_lt hd hexact hframes hempty hne
    rw [hrest.pump] at this
    exact lt_irrefl _ this
  obtain ⟨done, todo, hsplit, htaken, -, hsent, hcount⟩ := h.stream.boundary
  have hall := (h.stream.staged_prefix hsplit htaken).2 h.eof
  -- what is not decoded is staged, and nothing is staged
  have htodo : todo = [] := by
    rw [Spsc.staged, hstage, List.drop_nil] at hall
    have := length_le_flatten fun b hb => hframes b (hsplit ▸ List.mem_append_right _ hb)
    rw [← hall] at this
    exact List.length_eq_zero_iff.1 (Nat.le_zero.1 this)
  rw [htodo, List.append_nil] at hsplit
  subst hsplit
  rw [← flatDecode_flatten hexact dec hframes] at hsent hcount
  exact
    { taken := (pcm_taken_eq_sent h.stream.inv hempty).trans hsent
      frames := hcount
      pcmTotal := h.stream.pcmTotal.trans (by rw [hsent])
      resyncs := h.stream.resyncs
      flushes := h.stream.flushes
      idle := by simp [cqDecringIdle, h.staged, hstage] }

/-- **Ring decode equals flat decode.** The ring is fed `data`, a stream of whole coherent frames, by
any run of producer, pump and interrupt steps, and ends with all of it staged and its end raised.
Then pump passes and drains come to rest, and there the PCM that has been read is what the flat decode of
`data` produces, the counters agree with it, nothing was resynced or flushed, and the ring is idle. The same
holds of a run that ends at rest. -/
theorem ring_decode_eq_flat (hw : 32 ≤ w) {d : Mp3Decoder σ} (hd : d.Bounded)
    (hexact : ∀ version samplerate, FrameExact d version samplerate) (data : Bytes) {n : Nat}
    (hwalk : (cqMp3Walk data n).1 = data.length) (dec : σ) (hdata : data.length < 2 ^ 31)
    (hpcm : (flatDecode d dec data).pcm.length < 2 ^ 31) (comp pcm : Nat → UInt8)
    (compSize pcmSize : BitVec w) (hcomp : 1 ≤ compSize.toNat) (hsize : 4608 ≤ pcmSize.toNat)
    {steps : List SpscStep} {s : Spsc w σ}
    (hrun : run (Spsc.step true d) (Spsc.init (cqDecringInit comp compSize pcm pcmSize 0 0) dec)
      steps = some s)
    (hfeeds : Meets (Spsc.step true d) (FeedsStream data)
      (Spsc.init (cqDecringInit comp compSize pcm pcmSize 0 0) dec) steps)
    (hsent : s.compLog.sent = data) (hstaged : s.ring.compWr = s.ring.compRd)
    (heof : s.ring.eof = true) (hpass : s.pass = none) :
    (∃ k, AtRest d ((fun u => (Spsc.pump d u).drain)^[k] s) ∧
        PlayedOut d dec data ((fun u => (Spsc.pump d u).drain)^[k] s)) ∧
      (AtRest d s → PlayedOut d dec data s) := by
  obtain ⟨version, samplerate, frames, hframes, rfl⟩ := exists_frames_of_walk hwalk
  have hex := hexact version samplerate
  rw [flatDecode_flatten hex dec hframes] at hpcm
  have hpow : 2 ^ 31 < 2 ^ w := Nat.pow_lt_pow_right (by decide) (by omega)
  have hfresh : Fresh (cqDecringInit comp compSize pcm pcmSize 0 0) :=
    { comp_empty := rfl
      pcm_empty := rfl
      stage_empty := rfl
      comp_pos := hcomp
      pcm_pos := by simp only [cqDecringInit]; omega }
  -- the run keeps the stream invariant, and its end is the state the rest starts from
  have hstream : StreamInv d ⟨dec, [], 0⟩ frames s :=
    run_invariant_of_meets (StreamInv d ⟨dec, [], 0⟩ frames)
      (fun u act v hu hok hv => hu.step hd hex hframes (by omega) (by omega) hok hv)
      (StreamInv.init hfresh rfl rfl ⟨rfl, rfl, rfl, rfl, rfl⟩ frames dec) hfeeds hrun
  have hpcmSize := run_invariant (fun u => u.ring.pcmSize = pcmSize)
    (fun u act v hu hv => (Spsc.step_sizes hv).2.1.trans hu) rfl hrun
  have hended : Ended d ⟨dec, [], 0⟩ frames s :=
    ⟨hstream, hpass, hstaged, heof, by rw [hpcmSize]; exact hsize⟩
  obtain ⟨k, hk⟩ := hended.comes_to_rest hd hex hframes (by omega) (by omega)
  have hiterate := hended.iterate hd hex hframes (by omega) (by omega) k
  exact ⟨⟨k, hk, hiterate.playedOut hd hex hframes hk⟩, fun hrest => hended.playedOut hd hex hframes hrest⟩

/-- Two short frames go in, in two pieces. The first is decoded and read, the second is held by the tail gate, and
the end is raised. -/
def shortFrameSteps : List SpscStep :=
  [.claim 0, .fill (shortFrame ++ shortFrame.take 10), .commit, .topUp 34, .round 0 false, .finish,
    .claim 34, .fill (shortFrame.drop 10), .commit, .topUp 48, .round 0 false, .round 0 false, .finish,
    .read 1152 1152, .eof]

/-- The ring of the sample run. -/
def shortFrameRing : CqDecring 32 := cqDecringInit (fun _ => 0) 100 (fun _ => 0) 5000 0 0

/-- The end of the sample run. -/
def shortFrameFed : Spsc 32 Unit :=
  (run (Spsc.step true silenceDecoder) (Spsc.init shortFrameRing ()) shortFrameSteps).get (by decide +kernel)

theorem ring_decode_eq_flat_sample :
    ∃ k u, (fun u => (Spsc.pump silenceDecoder u).drain)^[k] shortFrameFed = u ∧ AtRest silenceDecoder u ∧
      u.ring.frames = 2 ∧ u.ring.pcmTotal = 2304 := by
  have hrun : run (Spsc.step true silenceDecoder) (Spsc.init shortFrameRing ()) shortFrameSteps =
      some shortFrameFed := (Option.some_get _).symm
  obtain ⟨k, hrest, hout⟩ := (ring_decode_eq_flat (n := 2) (w := 32) (by decide) silenceDecoder_bounded
    silenceDecoder_exact (shortFrame ++ shortFrame) (by decide +kernel) () (by decide) (by decide +kernel)
    (fun _ => 0) (fun _ => 0) 100 5000 (by decide) (by decide) hrun (by decide +kernel)
    (by decide +kernel) (by decide +kernel) (by decide +kernel) (by decide +kernel)).1
  exact ⟨k, _, rfl, hrest, hout.frames.trans (by decide +kernel), hout.pcmTotal.trans (by decide +kernel)⟩

end Casquinha.Decode
