import Casquinha.Decode.CleanStream
import Casquinha.Decode.Equivalence
import Casquinha.Decode.PumpEnds

/-!
# The decoder in the ring

`minimp3` takes the first frame of a clean stream exactly, but only of a clean stream: what the decoder does at a
frame depends on the frames behind it. The pump never shows it anything else. A decoder that sees the frame at the head
alone (`headOnly`) takes every step of such a run in the same way (`step_headOnly`), and of it the stream invariant is
known. So the ring gives the PCM of a flat decode with the decoder itself, call for call in the same scratch memory;
how much PCM that is does not depend on the scratch memory (`minimp3_ring_decode`).

On any other bytes the decoder still takes something off every buffer, so that no pass ends with work left
(`minimp3_pump_ends`).
-/

set_option autoImplicit false

namespace Casquinha.Decode

open Lib

variable {w : Nat} {σ : Type} {version samplerate : Nat}

/-- The decoder, shown no more than the whole frame at the head. -/
def headOnly (d : Mp3Decoder σ) : Mp3Decoder σ where
  decodeFrame s buf :=
    match cqMp3Parse buf with
    | none => d.decodeFrame s buf
    | some f => d.decodeFrame s (buf.take f.frameBytes)

theorem headOnly_bounded {d : Mp3Decoder σ} (h : d.Bounded) : (headOnly d).Bounded where
  consumed_nonneg := by
    intro s buf
    simp only [headOnly]
    split <;> exact h.consumed_nonneg _ _
  consumed_le := by
    intro s buf
    simp only [headOnly]
    split
    · exact h.consumed_le _ _
    · refine Int.le_trans (h.consumed_le _ _) (Int.ofNat_le.2 ?_)
      rw [List.length_take]
      exact Nat.min_le_right _ _
  samples_le := by
    intro s buf
    simp only [headOnly]
    split <;> exact h.samples_le _ _

/-- On a frame it is the decoder, whatever follows. -/
theorem headOnly_frame (d : Mp3Decoder σ) (s : σ) {b : Bytes} (hb : IsFrame version samplerate b) (rest : Bytes) :
    (headOnly d).decodeFrame s (b ++ rest) = d.decodeFrame s b := by
  obtain ⟨f, hf, hlen, -, -⟩ := hb.parse_append rest
  simp only [headOnly, hf, hlen, List.take_left]

theorem headOnly_frame_alone (d : Mp3Decoder σ) (s : σ) {b : Bytes} (hb : IsFrame version samplerate b) :
    (headOnly d).decodeFrame s b = d.decodeFrame s b := by
  have h := headOnly_frame d s hb []
  rwa [List.append_nil] at h

theorem headOnly_exact {d : Mp3Decoder σ} (h : StreamExact d version samplerate) :
    FrameExact (headOnly d) version samplerate where
  decode_append := fun s b rest hb _ => (headOnly_frame d s hb rest).trans (headOnly_frame_alone d s hb).symm
  consumed_eq := by
    intro s b hb
    rw [headOnly_frame_alone d s hb]
    exact h.consumed_eq s b hb

theorem decodeFrames_headOnly (d : Mp3Decoder σ) {frames : List Bytes}
    (hframes : ∀ b ∈ frames, IsFrame version samplerate b) (a : Flat σ) :
    decodeFrames (headOnly d) a frames = decodeFrames d a frames := by
  induction frames generalizing a with
  | nil => rfl
  | cons b frames ih =>
      rw [decodeFrames, List.foldl_cons, headOnly_frame_alone d a.state (hframes b List.mem_cons_self)]
      exact ih (fun c hc => hframes c (List.mem_cons_of_mem _ hc)) _

/-! ## What the pump shows the decoder -/

theorem cleanRest_flatten {frames : List Bytes} (h : ∀ b ∈ frames, IsFrame version samplerate b) :
    CleanRest version samplerate frames.flatten := by
  cases frames with
  | nil => exact Or.inl rfl
  | cons b frames =>
      refine Or.inr ⟨?_, b :: frames, h, List.prefix_refl _⟩
      have hlen := (h b List.mem_cons_self).length_bounds.1
      rw [List.flatten_cons, List.length_append]
      omega

/-- **Past the tail gate** a whole frame stands at the head, followed by nothing or by at least one more frame. -/
theorem clean_of_gate {todo : List Bytes} (hframes : ∀ b ∈ todo, IsFrame version samplerate b) {eof : Bool}
    {rest : Bytes} (hpre : rest <+: todo.flatten) (heof : eof = true → rest = todo.flatten)
    (hgate : ¬ GateHolds eof rest) :
    ∃ b rest', rest = b ++ rest' ∧ IsFrame version samplerate b ∧ CleanRest version samplerate rest' := by
  cases todo with
  | nil =>
      have hnil : rest = [] := List.prefix_nil.1 hpre
      subst hnil
      refine absurd ?_ hgate
      cases eof <;> decide
  | cons b todo =>
      have hb := hframes b List.mem_cons_self
      have htodo : ∀ c ∈ todo, IsFrame version samplerate c := fun c hc => hframes c (List.mem_cons_of_mem _ hc)
      rcases walkFrames_cases hframes hpre with ⟨hwalk, -⟩ | ⟨rest', rfl, hpre', hcase⟩
      · refine absurd ?_ hgate
        rw [GateHolds, hwalk]
        split <;> decide
      · refine ⟨b, rest', rfl, hb, ?_⟩
        rcases hcase with ⟨hwalk, -⟩ | ⟨-, c, rest'', hc, rfl⟩
        · -- one frame: the gate lets it through behind the end of the stream
          cases eof with
          | false =>
              refine absurd ?_ hgate
              rw [GateHolds, hwalk]
              decide
          | true =>
              have hend : rest' = todo.flatten := List.append_cancel_left (heof rfl)
              rw [hend]
              exact cleanRest_flatten htodo
        · refine Or.inr ⟨?_, todo, htodo, hpre'⟩
          have hlen := hc.length_bounds.1
          rw [List.length_append]
          omega

theorem cqMp3decFrame_headOnly {d : Mp3Decoder σ} (h : StreamExact d version samplerate) (s : σ) {b rest : Bytes}
    (hb : IsFrame version samplerate b) (hrest : CleanRest version samplerate rest) :
    cqMp3decFrame d s (b ++ rest) = cqMp3decFrame (headOnly d) s (b ++ rest) := by
  have hlen := hb.length_bounds.1
  rw [cqMp3decFrame, cqMp3decFrame, if_neg (by rw [List.length_append]; omega),
    if_neg (by rw [List.length_append]; omega), h.decode_append s b rest hb hrest, headOnly_frame d s hb rest]

/-- A round at a frame boundary of a clean stream shows the decoder no more than it needs. -/
theorem pumpRound_headOnly {d : Mp3Decoder σ} (h : StreamExact d version samplerate) {p : Pass w σ} {todo : List Bytes}
    (hframes : ∀ b ∈ todo, IsFrame version samplerate b) (hpre : p.rest <+: todo.flatten)
    (heof : p.ring.eof = true → p.rest = todo.flatten) : pumpRound d p = pumpRound (headOnly d) p := by
  rw [pumpRound, pumpRound]
  split
  · rfl
  · split
    · rfl
    · split
      · rfl
      · next hgate =>
        obtain ⟨b, rest, hrest, hb, hclean⟩ := clean_of_gate hframes hpre heof hgate
        rw [pumpDecode, pumpDecode, hrest, cqMp3decFrame_headOnly h p.dec hb hclean]

/-! ## Runs and passes -/

variable {d : Mp3Decoder σ} {a : Flat σ} {frames : List Bytes} {s : Spsc w σ}

/-- Every step of a feeding run is a step with either decoder. -/
theorem step_headOnly (h : StreamExact d version samplerate) (hframes : ∀ b ∈ frames, IsFrame version samplerate b)
    (hs : StreamInv (headOnly d) a frames s) (act : SpscStep) :
    s.step true d act = s.step true (headOnly d) act := by
  cases act with
  | round v eof =>
      obtain ⟨done, todo, hsplit, htaken, -⟩ := hs.boundary
      obtain ⟨hpre, hall⟩ := hs.staged_prefix hsplit htaken
      have htodo : ∀ b ∈ todo, IsFrame version samplerate b :=
        fun b hb => hframes b (hsplit ▸ List.mem_append_right _ hb)
      rw [Spsc.step, Spsc.step]
      split
      · next used progress hpass =>
        split
        · next hguard =>
          have hstaged : s.staged = (s.roundView ⟨used, progress, false⟩ v eof).rest := by
            simp [Spsc.staged, Spsc.used, hpass]
            rfl
          rw [hstaged] at hpre hall
          rw [Spsc.afterRound, Spsc.afterRound,
            pumpRound_headOnly h htodo hpre fun he => hall (hguard.2 he)]
        · rfl
      · rfl
  | claim | fill | commit | eof | topUp | finish | read => rfl

/-- Behind a decoded frame. -/
theorem rest_decodeFrame (d : Mp3Decoder σ) {p : Pass w σ} {b rest : Bytes} (h : p.rest = b ++ rest) :
    (p.decodeFrame d b).rest = rest ∧ (p.decodeFrame d b).ring.eof = p.ring.eof := by
  have hdrop : p.ring.stage.drop (p.used + b.length) = rest := by
    rw [← List.drop_drop, ← Pass.rest, h, List.drop_left]
  simp only [Pass.decodeFrame]
  split <;> exact ⟨hdrop, rfl⟩

/-- The rounds of a pass that starts at a frame boundary. -/
theorem pumpLoop_headOnly (h : StreamExact d version samplerate) (n : Nat) {p : Pass w σ} {todo : List Bytes}
    (hframes : ∀ b ∈ todo, IsFrame version samplerate b) (hpre : p.rest <+: todo.flatten)
    (heof : p.ring.eof = true → p.rest = todo.flatten) : pumpLoop d n p = pumpLoop (headOnly d) n p := by
  induction n generalizing p todo with
  | zero => rfl
  | succ n ih =>
      have hround := pumpRound_headOnly h hframes hpre heof
      rcases pumpRound_boundary (headOnly_exact h) todo hframes hpre heof with
        ⟨hstop, -⟩ | ⟨b, todo', rfl, ⟨rest, hrest⟩, hgo⟩
      · rw [pumpLoop, pumpLoop, hround, hstop]
      · rw [pumpLoop, pumpLoop, hround, hgo]
        -- the next round finds the rest of the stream
        obtain ⟨hrest', heof'⟩ := rest_decodeFrame (headOnly d) hrest
        rw [hrest, List.flatten_cons] at hpre heof
        apply ih (fun c hc => hframes c (List.mem_cons_of_mem _ hc))
        · rw [hrest']
          exact (List.prefix_append_right_inj b).1 hpre
        · rw [hrest', heof']
          exact fun he => List.append_cancel_left (heof he)

/-- A pass over an ended stream. -/
theorem Ended.pump_headOnly (h : StreamExact d version samplerate)
    (hframes : ∀ b ∈ frames, IsFrame version samplerate b) (hs : Ended (headOnly d) a frames s) :
    s.pump d = s.pump (headOnly d) := by
  obtain ⟨done, todo, hsplit, htaken, -⟩ := hs.stream.boundary
  obtain ⟨hpre, hall⟩ := hs.stream.staged_prefix hsplit htaken
  have hstage : s.staged = s.ring.stage := by simp [Spsc.staged, Spsc.used, hs.pass]
  have hstart : (pumpStart s.dec s.ring).ring = s.ring := (pump_ring (d := d) s hs.staged).1
  have hrest : (pumpStart s.dec s.ring).rest = s.staged := by
    rw [hstage, Pass.rest, hstart]
    rfl
  have hloop := pumpLoop_headOnly h (s.ring.stage.length + 1) (p := pumpStart s.dec s.ring)
    (fun b hb => hframes b (hsplit ▸ List.mem_append_right _ hb)) (by rw [hrest]; exact hpre)
    (by rw [hstart, hrest]; exact hall)
  have hpass : cqDecringPump d s.dec s.ring = cqDecringPump (headOnly d) s.dec s.ring := by
    simp only [cqDecringPump, hstart, hloop]
  simp only [Spsc.pump, hpass]

/-- Passes and drains. -/
theorem Ended.iterate_headOnly (hd : d.Bounded) (h : StreamExact d version samplerate)
    (hframes : ∀ b ∈ frames, IsFrame version samplerate b) (hlen : frames.flatten.length < 2 ^ w)
    (hpcm : (decodeFrames (headOnly d) a frames).pcm.length < 2 ^ w) (hs : Ended (headOnly d) a frames s) (n : Nat) :
    (fun u => (Spsc.pump d u).drain)^[n] s = (fun u => (Spsc.pump (headOnly d) u).drain)^[n] s := by
  induction n with
  | zero => rfl
  | succ n ih =>
      have hended := hs.iterate (headOnly_bounded hd) (headOnly_exact h) hframes hlen hpcm n
      rw [Function.iterate_succ_apply', Function.iterate_succ_apply', ih, hended.pump_headOnly h hframes]

theorem Ended.atRest_headOnly (h : StreamExact d version samplerate)
    (hframes : ∀ b ∈ frames, IsFrame version samplerate b) (hs : Ended (headOnly d) a frames s) :
    AtRest d s ↔ AtRest (headOnly d) s := by
  have hpump := hs.pump_headOnly h hframes
  constructor
  · rintro ⟨hpass, hring, hdrain⟩
    exact ⟨hpass, by rw [← hpump]; exact hring, hdrain⟩
  · rintro ⟨hpass, hring, hdrain⟩
    exact ⟨hpass, by rw [hpump]; exact hring, hdrain⟩

/-- The flat decode of a clean stream. -/
theorem flatLoop_clean (h : StreamExact d version samplerate) (fuel : Nat) (a : Flat σ)
    (hframes : ∀ b ∈ frames, IsFrame version samplerate b) (hfuel : frames.length < fuel) :
    flatLoop d fuel a frames.flatten = decodeFrames d a frames := by
  induction frames generalizing fuel a with
  | nil =>
      cases fuel with
      | zero => exact absurd hfuel (Nat.not_lt_zero _)
      | succ fuel => rfl
  | cons b frames ih =>
      cases fuel with
      | zero => exact absurd hfuel (Nat.not_lt_zero _)
      | succ fuel =>
          have hb := hframes b List.mem_cons_self
          have hrest : ∀ c ∈ frames, IsFrame version samplerate c :=
            fun c hc => hframes c (List.mem_cons_of_mem _ hc)
          have hpos := hb.length_bounds.1
          have hne : (b ++ frames.flatten).length ≠ 0 := by
            rw [List.length_append]
            omega
          have hcall : cqMp3decFrame d a.state (b ++ frames.flatten) = d.decodeFrame a.state b := by
            rw [cqMp3decFrame, if_neg hne, h.decode_append a.state b _ hb (cleanRest_flatten hrest)]
          rw [flatLoop, List.flatten_cons, if_neg hne]
          simp only [hcall, h.consumed_eq a.state b hb]
          rw [if_neg (by omega), Int.toNat_natCast, List.drop_left, ih fuel _ hrest (Nat.lt_of_succ_lt_succ hfuel)]
          rfl

theorem flatDecode_clean (h : StreamExact d version samplerate) (dec : σ)
    (hframes : ∀ b ∈ frames, IsFrame version samplerate b) :
    flatDecode d dec frames.flatten = decodeFrames d ⟨dec, [], 0⟩ frames :=
  flatLoop_clean h _ _ hframes (Nat.lt_succ_of_le (length_le_flatten hframes))

/-- What both decoders play out is the same. -/
theorem playedOut_headOnly (h : StreamExact d version samplerate) {dec : σ}
    (hframes : ∀ b ∈ frames, IsFrame version samplerate b) (hs : PlayedOut (headOnly d) dec frames.flatten s) :
    PlayedOut d dec frames.flatten s := by
  have hflat : flatDecode (headOnly d) dec frames.flatten = flatDecode d dec frames.flatten := by
    rw [flatDecode_flatten (headOnly_exact h) dec hframes, decodeFrames_headOnly d hframes,
      flatDecode_clean h dec hframes]
  obtain ⟨htaken, hcount, htotal, hresyncs, hflushes, hidle⟩ := hs
  rw [hflat] at htaken hcount htotal
  exact ⟨htaken, hcount, htotal, hresyncs, hflushes, hidle⟩

/-! ## The ring -/

/-- With a decoder that is exact on clean streams, the ring gives the PCM of the flat decode. -/
theorem StreamExact.ring_decode (hw : 32 ≤ w) (hd : d.Bounded)
    (hexact : ∀ version samplerate, StreamExact d version samplerate) (data : Bytes) {n : Nat}
    (hwalk : (cqMp3Walk data n).1 = data.length) (dec : σ) (hdata : data.length < 2 ^ 31)
    (hpcm : (flatDecode d dec data).pcm.length < 2 ^ 31) (comp pcm : Nat → UInt8) (compSize pcmSize : BitVec w)
    (hcomp : 1 ≤ compSize.toNat) (hsize : 4608 ≤ pcmSize.toNat) {steps : List SpscStep}
    (hrun : run (Spsc.step true d) (Spsc.init (cqDecringInit comp compSize pcm pcmSize 0 0) dec) steps = some s)
    (hfeeds : Meets (Spsc.step true d) (FeedsStream data)
      (Spsc.init (cqDecringInit comp compSize pcm pcmSize 0 0) dec) steps)
    (hstaged : s.ring.compWr = s.ring.compRd) (heof : s.ring.eof = true) (hpass : s.pass = none) :
    (∃ k, AtRest d ((fun u => (Spsc.pump d u).drain)^[k] s) ∧
        PlayedOut d dec data ((fun u => (Spsc.pump d u).drain)^[k] s)) ∧
      (AtRest d s → PlayedOut d dec data s) := by
  obtain ⟨version, samplerate, frames, hframes, rfl⟩ := exists_frames_of_walk hwalk
  have hstream := hexact version samplerate
  have hex := headOnly_exact hstream
  have hbounded := headOnly_bounded hd
  rw [flatDecode_clean hstream dec hframes, ← decodeFrames_headOnly d hframes] at hpcm
  have hpow : 2 ^ 31 < 2 ^ w := Nat.pow_lt_pow_right (by decide) (by omega)
  have hfresh : Fresh (cqDecringInit comp compSize pcm pcmSize 0 0) :=
    { comp_empty := rfl
      pcm_empty := rfl
      stage_empty := rfl
      comp_pos := hcomp
      pcm_pos := by simp only [cqDecringInit]; omega }
  have hstart : StreamInv (headOnly d) ⟨dec, [], 0⟩ frames
      (Spsc.init (cqDecringInit comp compSize pcm pcmSize 0 0) dec) :=
    StreamInv.init hfresh rfl rfl ⟨rfl, rfl, rfl, rfl, rfl⟩ frames dec
  -- the run is a run of the decoder that sees the frame at the head alone
  have hkeep : ∀ (u : Spsc w σ) act v, StreamInv (headOnly d) ⟨dec, [], 0⟩ frames u → FeedsStream frames.flatten u act →
      u.step true (headOnly d) act = some v → StreamInv (headOnly d) ⟨dec, [], 0⟩ frames v :=
    fun u act v hu hok hv => hu.step hbounded hex hframes (by omega) (by omega) hok hv
  obtain ⟨hfeeds', hsame⟩ := run_congr_of_meets (StreamInv (headOnly d) ⟨dec, [], 0⟩ frames) hkeep
    (fun u act hu _ => step_headOnly hstream hframes hu act) hstart hfeeds
  rw [hsame] at hrun
  have hinv := run_invariant_of_meets (StreamInv (headOnly d) ⟨dec, [], 0⟩ frames) hkeep hstart hfeeds' hrun
  have hpcmSize := run_invariant (fun u => u.ring.pcmSize = pcmSize)
    (fun u act v hu hv => (Spsc.step_sizes hv).2.1.trans hu) rfl hrun
  have hended : Ended (headOnly d) ⟨dec, [], 0⟩ frames s :=
    ⟨hinv, hpass, hstaged, heof, by rw [hpcmSize]; exact hsize⟩
  constructor
  · obtain ⟨k, hk⟩ := hended.comes_to_rest hbounded hex hframes (by omega) (by omega)
    have hiter := hended.iterate_headOnly hd hstream hframes (by omega) (by omega) k
    have hended' := hended.iterate hbounded hex hframes (by omega) (by omega) k
    refine ⟨k, ?_⟩
    rw [hiter]
    exact ⟨(hended'.atRest_headOnly hstream hframes).2 hk,
      playedOut_headOnly hstream hframes (hended'.playedOut hbounded hex hframes hk)⟩
  · intro hrest
    have hrest' := (hended.atRest_headOnly hstream hframes).1 hrest
    exact playedOut_headOnly hstream hframes (hended.playedOut hbounded hex hframes hrest')

/-! ## The scratch memory of a flat decode -/

section Scratch

variable {φ : Type}

/-- A call of `minimp3` in another scratch memory. -/
theorem minimp3_scratch (y : Synthesis φ) (info : Mp3decFrameInfo) {c c' : Mp3Calls φ}
    (hdec : c.dec.bare = c'.dec.bare) (buf : Bytes) :
    (cqMp3decFrame (minimp3 y info) c buf).1.dec.bare = (cqMp3decFrame (minimp3 y info) c' buf).1.dec.bare ∧
      (cqMp3decFrame (minimp3 y info) c buf).2.consumed = (cqMp3decFrame (minimp3 y info) c' buf).2.consumed ∧
      (cqMp3decFrame (minimp3 y info) c buf).2.samples = (cqMp3decFrame (minimp3 y info) c' buf).2.samples ∧
      (cqMp3decFrame (minimp3 y info) c buf).2.pcm.length =
        (cqMp3decFrame (minimp3 y info) c' buf).2.pcm.length := by
  rw [cqMp3decFrame, cqMp3decFrame]
  split
  · exact ⟨hdec, rfl, rfl, rfl⟩
  · have hcall := decodeFrame_scratch y (c.scratch 0) (c'.scratch 0) hdec buf buf.length info
    simp only [FrameOut.bare, Prod.mk.injEq] at hcall
    obtain ⟨hbare, hinfo, hsamples, hpcm⟩ := hcall
    simp only [minimp3]
    exact ⟨hbare, by rw [hinfo], by rw [hsamples], hpcm⟩

theorem flatLoop_scratch (y : Synthesis φ) (info : Mp3decFrameInfo) :
    ∀ (fuel : Nat) (buf : Bytes) {a a' : Flat (Mp3Calls φ)}, a.state.dec.bare = a'.state.dec.bare →
      a.frames = a'.frames → a.pcm.length = a'.pcm.length →
        (flatLoop (minimp3 y info) fuel a buf).frames = (flatLoop (minimp3 y info) fuel a' buf).frames ∧
          (flatLoop (minimp3 y info) fuel a buf).pcm.length =
            (flatLoop (minimp3 y info) fuel a' buf).pcm.length := by
  intro fuel
  induction fuel with
  | zero => exact fun _ _ _ _ hframes hpcm => ⟨hframes, hpcm⟩
  | succ fuel ih =>
      intro buf a a' hdec hframes hpcm
      obtain ⟨hbare, hconsumed, hsamples, hlen⟩ := minimp3_scratch y info hdec buf
      rw [flatLoop, flatLoop]
      by_cases hnil : buf.length = 0
      · rw [if_pos hnil, if_pos hnil]
        exact ⟨hframes, hpcm⟩
      · rw [if_neg hnil, if_neg hnil]
        simp only [hconsumed]
        split
        · exact ⟨hframes, hpcm⟩
        · -- either both calls return samples, or neither does
          apply ih
          all_goals
            rw [Flat.add, Flat.add, hsamples]
            split
          · exact hbare
          · exact hbare
          · exact hframes
          · exact congrArg (· + 1) hframes
          · exact hpcm
          · simp only [List.length_append, hpcm, hlen]

/-- **How much a flat decode plays** does not depend on the scratch memory of its calls. -/
theorem flatDecode_scratch (y : Synthesis φ) (info : Mp3decFrameInfo) (dec : Mp3Dec φ)
    (scratch scratch' : Nat → Mp3decScratch) (data : Bytes) :
    (flatDecode (minimp3 y info) ⟨dec, scratch⟩ data).frames =
        (flatDecode (minimp3 y info) ⟨dec, scratch'⟩ data).frames ∧
      (flatDecode (minimp3 y info) ⟨dec, scratch⟩ data).pcm.length =
        (flatDecode (minimp3 y info) ⟨dec, scratch'⟩ data).pcm.length :=
  flatLoop_scratch y info _ _ rfl rfl rfl

end Scratch

/-- **The ring decodes a clean stream as the decoder alone does.** `data` is a stream of whole coherent frames, fed to
the ring in any pieces against any interleaving of pump rounds and reads of the interrupt, to its end. Then pump passes
and drains come to rest, and there the PCM that has been read is the PCM of the flat decode whose calls find the same
scratch memory, nothing was resynced or flushed, and the ring is idle. In any other scratch memory the flat decode
gives as many frames and as much PCM. -/
theorem minimp3_ring_decode {φ : Type} (y : Synthesis φ) (info : Mp3decFrameInfo) (data : Bytes) {n : Nat}
    (hwalk : (cqMp3Walk data n).1 = data.length) (dec : Mp3Dec φ) (scratch : Nat → Mp3decScratch)
    (hdata : data.length < 2 ^ 31) (hpcm : (flatDecode (minimp3 y info) ⟨dec, scratch⟩ data).pcm.length < 2 ^ 31)
    (comp pcm : Nat → UInt8) (compSize pcmSize : BitVec 32) (hcomp : 1 ≤ compSize.toNat)
    (hsize : 4608 ≤ pcmSize.toNat) {steps : List SpscStep} {s : Spsc 32 (Mp3Calls φ)}
    (hrun : run (Spsc.step true (minimp3 y info))
      (Spsc.init (cqDecringInit comp compSize pcm pcmSize 0 0) ⟨dec, scratch⟩) steps = some s)
    (hfeeds : Meets (Spsc.step true (minimp3 y info)) (FeedsStream data)
      (Spsc.init (cqDecringInit comp compSize pcm pcmSize 0 0) ⟨dec, scratch⟩) steps)
    (hstaged : s.ring.compWr = s.ring.compRd) (heof : s.ring.eof = true) (hpass : s.pass = none) :
    (∃ k, AtRest (minimp3 y info) ((fun u => (Spsc.pump (minimp3 y info) u).drain)^[k] s) ∧
        PlayedOut (minimp3 y info) ⟨dec, scratch⟩ data ((fun u => (Spsc.pump (minimp3 y info) u).drain)^[k] s)) ∧
      (AtRest (minimp3 y info) s → PlayedOut (minimp3 y info) ⟨dec, scratch⟩ data s) ∧
      ∀ scratch' : Nat → Mp3decScratch,
        (flatDecode (minimp3 y info) ⟨dec, scratch'⟩ data).frames =
            (flatDecode (minimp3 y info) ⟨dec, scratch⟩ data).frames ∧
          (flatDecode (minimp3 y info) ⟨dec, scratch'⟩ data).pcm.length =
            (flatDecode (minimp3 y info) ⟨dec, scratch⟩ data).pcm.length := by
  obtain ⟨hcomes, hrest⟩ := StreamExact.ring_decode (by decide) (minimp3_bounded y info) (minimp3_streamExact y info)
    data hwalk ⟨dec, scratch⟩ hdata hpcm comp pcm compSize pcmSize hcomp hsize hrun hfeeds hstaged heof hpass
  exact ⟨hcomes, hrest, fun scratch' => flatDecode_scratch y info dec scratch' scratch data⟩

/-- The end of the sample run, with `minimp3` for its decoder. -/
def shortFrameFed' : Spsc 32 (Mp3Calls Unit) :=
  (run (Spsc.step true (minimp3 silentSynthesis ⟨0, 0, 0, 0, 0, 0⟩))
    (Spsc.init shortFrameRing ⟨zeroed silentSynthesis, fun _ => clearScratch⟩) shortFrameSteps).get (by decide +kernel)

theorem minimp3_ring_decode_short :
    ∃ k u, (fun u => (Spsc.pump (minimp3 silentSynthesis ⟨0, 0, 0, 0, 0, 0⟩) u).drain)^[k] shortFrameFed' = u ∧
      AtRest (minimp3 silentSynthesis ⟨0, 0, 0, 0, 0, 0⟩) u ∧ u.ring.frames = 2 ∧ u.ring.pcmTotal = 2304 := by
  have hrun : run (Spsc.step true (minimp3 silentSynthesis ⟨0, 0, 0, 0, 0, 0⟩))
      (Spsc.init shortFrameRing ⟨zeroed silentSynthesis, fun _ => clearScratch⟩) shortFrameSteps =
        some shortFrameFed' := (Option.some_get _).symm
  obtain ⟨k, hrest, hout⟩ := (minimp3_ring_decode (n := 2) silentSynthesis ⟨0, 0, 0, 0, 0, 0⟩
    (shortFrame ++ shortFrame) (by decide +kernel) (zeroed silentSynthesis) (fun _ => clearScratch) (by decide)
    (by decide +kernel) (fun _ => 0) (fun _ => 0) 100 5000 (by decide) (by decide) hrun (by decide +kernel)
    (by decide +kernel) (by decide +kernel) (by decide +kernel)).1
  exact ⟨k, _, rfl, hrest, hout.frames.trans (by decide +kernel), hout.pcmTotal.trans (by decide +kernel)⟩

/-! ## Any bytes -/

theorem minimp3_consumes {φ : Type} (y : Synthesis φ) (info : Mp3decFrameInfo) : (minimp3 y info).Consumes where
  consumed_nonneg := (minimp3_bounded y info).consumed_nonneg
  consumed_le := (minimp3_bounded y info).consumed_le
  advances := by
    intro dec buf hwalk
    refine minimp3_advances y info dec ?_
    rintro rfl
    exact absurd hwalk (by decide)

/-- A round of the real decoder stops for want of PCM space, on an empty stage, or at the gate. -/
theorem pumpRound_minimp3 {φ : Type} (y : Synthesis φ) (info : Mp3decFrameInfo) {p : Pass w (Mp3Calls φ)}
    (h : (pumpRound (minimp3 y info) p).2 = false) :
    ¬ PcmRoom p.ring ∨ (pumpRound (minimp3 y info) p).1.rest = [] ∨
      GateHolds p.ring.eof p.rest ∧ p.rest.length ≤ 8192 := by
  rw [pumpRound] at h ⊢
  by_cases hroom : PcmRoom p.ring
  · rw [if_neg (not_not.2 hroom)] at h ⊢
    by_cases hdry : p.ring.stage.length ≤ p.used
    · rw [if_pos hdry]
      exact Or.inr (Or.inl (List.drop_eq_nil_iff.2 hdry))
    · rw [if_neg hdry] at h ⊢
      by_cases hgate : GateHolds p.ring.eof p.rest
      · rw [if_pos hgate] at h ⊢
        by_cases hdeep : 8192 < p.rest.length
        · rw [pumpHeld, if_pos hdeep] at h ⊢
          cases hsync : cqMp3Sync p.rest with
          | none => exact Or.inr (Or.inl List.drop_length)
          | some found =>
              rw [hsync] at h
              simp only [sync_pos_of_gate hgate hdeep hsync, if_true] at h
              cases h
        · exact Or.inr (Or.inr ⟨hgate, Nat.le_of_not_lt hdeep⟩)
      · -- the decoder always takes something
        rw [if_neg hgate] at h
        have hne : p.rest ≠ [] := fun hnil => hdry (List.drop_eq_nil_iff.1 hnil)
        have hcall : cqMp3decFrame (minimp3 y info) p.dec p.rest = (minimp3 y info).decodeFrame p.dec p.rest := by
          rw [cqMp3decFrame, if_neg fun hzero => hne (List.length_eq_zero_iff.1 hzero)]
        have hpos := minimp3_advances y info p.dec hne
        simp only [pumpDecode, hcall] at h
        rw [if_neg (Int.not_le.2 hpos)] at h
        split at h <;> cases h
  · exact Or.inl hroom

/-- **No pass ends with work left.** Whatever is staged and whatever the rounds see, the pump over the real decoder
ends after no more rounds than there are staged bytes: without PCM space, with nothing left on the stage, or with at
most 8192 bytes that the tail gate holds back. -/
theorem minimp3_pump_ends {φ : Type} (y : Synthesis φ) (info : Mp3decFrameInfo) (dec : Mp3Calls φ) (r : CqDecring w)
    (views : Nat → BitVec w × Bool) :
    ∃ k ≤ (pumpStart dec r).ring.stage.length,
      LoopEnds (minimp3 y info) views (pumpStart dec r) k ∧
        (¬ PcmRoom (beforeRound (minimp3 y info) views (pumpStart dec r) k).ring ∨
          (rounds (minimp3 y info) views (pumpStart dec r) (k + 1)).rest = [] ∨
          GateHolds (beforeRound (minimp3 y info) views (pumpStart dec r) k).ring.eof
              (beforeRound (minimp3 y info) views (pumpStart dec r) k).rest ∧
            (beforeRound (minimp3 y info) views (pumpStart dec r) k).rest.length ≤ 8192) := by
  obtain ⟨k, hk, hends⟩ := loopEnds (minimp3_consumes y info) views (p := pumpStart dec r) (Nat.zero_le _)
  exact ⟨k, hk, hends, pumpRound_minimp3 y info hends.stops⟩

end Casquinha.Decode
