import Casquinha.Decode.Decring
import Casquinha.Decode.Walk

/-!
# Streams of whole frames

A buffer that `cqMp3Walk` covers is a concatenation of whole frames with one version and one sample
rate (`exists_frames_of_walk`). A buffer that is a piece of such a stream, from a frame boundary on,
starts with a partial frame, with one whole frame, or with two, and the walk of the tail gate says
which (`walkFrames_cases`).

`flatDecode` is the plain loop over a flat buffer. A decoder that consumes exactly the first frame
decodes a stream frame by frame, whatever follows each frame (`flatDecode_flatten`).
-/

set_option autoImplicit false

namespace Casquinha.Decode

open Lib

/-- `b` is one whole frame of the given version and sample rate. -/
def IsFrame (version samplerate : Nat) (b : Bytes) : Prop :=
  ∃ f, cqMp3Parse b = some f ∧ f.frameBytes = b.length ∧ f.version = version ∧
    f.samplerate = samplerate

/-- Nothing follows, or the header of a coherent next frame does. -/
def NextOk (version samplerate : Nat) (rest : Bytes) : Prop :=
  rest = [] ∨ 4 ≤ rest.length ∧
    ∃ g, cqMp3Parse rest = some g ∧ g.version = version ∧ g.samplerate = samplerate

variable {version samplerate : Nat} {σ : Type}

theorem IsFrame.length_bounds {b : Bytes} (h : IsFrame version samplerate b) :
    4 ≤ b.length ∧ b.length ≤ 1441 := by
  obtain ⟨f, hf, hlen, -, -⟩ := h
  rw [← hlen]
  exact frameBytes_bounds hf

/-- The header of a frame is read whatever follows. -/
theorem IsFrame.parse_append {b : Bytes} (h : IsFrame version samplerate b) (rest : Bytes) :
    ∃ f, cqMp3Parse (b ++ rest) = some f ∧ f.frameBytes = b.length ∧ f.version = version ∧
      f.samplerate = samplerate := by
  obtain ⟨f, hf, hrest⟩ := h
  exact ⟨f, by rw [cqMp3Parse_append rest (four_le_length_of_parse hf), hf], hrest⟩

theorem IsFrame.nextOk {b : Bytes} (h : IsFrame version samplerate b) (rest : Bytes) :
    NextOk version samplerate (b ++ rest) := by
  obtain ⟨f, hf, -, hv, hr⟩ := h.parse_append rest
  have := h.length_bounds.1
  exact Or.inr ⟨by rw [List.length_append]; omega, f, hf, hv, hr⟩

/-- What follows a frame in a stream of frames is coherent. -/
theorem nextOk_flatten {frames : List Bytes} (h : ∀ b ∈ frames, IsFrame version samplerate b) :
    NextOk version samplerate frames.flatten := by
  cases frames with
  | nil => exact Or.inl rfl
  | cons b frames => exact (h b List.mem_cons_self).nextOk _

/-! ## Walks -/

/-- Whole frames of one version and sample rate, cut out of the buffer. -/
theorem WholeFrom.exists_frames {buf : Bytes} {fs : List CqMp3Frame} :
    ∀ {off : Nat}, WholeFrom buf off fs →
      (∀ f ∈ fs, f.version = version ∧ f.samplerate = samplerate) →
      ∃ frames : List Bytes, (∀ b ∈ frames, IsFrame version samplerate b) ∧
        (buf.drop off).take (spanBytes fs) = frames.flatten := by
  induction fs with
  | nil => exact fun _ _ => ⟨[], fun b hb => absurd hb List.not_mem_nil, List.take_zero⟩
  | cons f fs ih =>
      rintro off ⟨hf, hfits, hwhole⟩ hall
      obtain ⟨frames, hframes, htake⟩ :=
        ih hwhole fun g hg => hall g (List.mem_cons_of_mem f hg)
      obtain ⟨hv, hr⟩ := hall f List.mem_cons_self
      have hlen : ((buf.drop off).take f.frameBytes).length = f.frameBytes := by
        rw [List.length_take, List.length_drop]
        omega
      have hframe : IsFrame version samplerate ((buf.drop off).take f.frameBytes) :=
        ⟨f, by rw [cqMp3Parse_take (frameBytes_bounds hf).1, hf], hlen.symm, hv, hr⟩
      refine ⟨(buf.drop off).take f.frameBytes :: frames, ?_, ?_⟩
      · intro b hb
        rcases List.mem_cons.1 hb with rfl | hb
        · exact hframe
        · exact hframes b hb
      · rw [spanBytes_cons, List.take_add, List.drop_drop, htake, List.flatten_cons]

/-- A buffer that the walk covers is a concatenation of whole coherent frames. -/
theorem exists_frames_of_walk {data : Bytes} {n : Nat} (h : (cqMp3Walk data n).1 = data.length) :
    ∃ (version samplerate : Nat) (frames : List Bytes), (∀ b ∈ frames, IsFrame version samplerate b) ∧
      data = frames.flatten := by
  obtain ⟨fs, ⟨hwhole, hagree⟩, -, -, hwalk⟩ := walk_covers data n
  have hspan : spanBytes fs = data.length := by
    rw [← h, hwalk]
  have hdata : (data.drop 0).take (spanBytes fs) = data := by
    rw [hspan, List.drop_zero, List.take_length]
  cases fs with
  | nil => exact ⟨0, 0, [], fun b hb => absurd hb List.not_mem_nil, hdata.symm⟩
  | cons f fs =>
      obtain ⟨frames, hframes, htake⟩ := hwhole.exists_frames (hagree f rfl)
      exact ⟨f.version, f.samplerate, frames, hframes, hdata.symm.trans htake⟩

/-- Less than the first frame: the walk counts nothing. -/
theorem walkFrames_cut {b rest : Bytes} (hb : IsFrame version samplerate b)
    (hpre : rest <+: b) (hlt : rest.length < b.length) (n : Nat) : walkFrames rest n = 0 := by
  obtain ⟨tail, rfl⟩ := hpre
  cases n with
  | zero => rfl
  | succ n =>
      rw [walkFrames, cqMp3Walk, walkLoop, List.drop_zero]
      cases hf : cqMp3Parse rest with
      | none => rfl
      | some g =>
          obtain ⟨f, hf', hlen, -, -⟩ := hb
          rw [cqMp3Parse_append tail (four_le_length_of_parse hf), hf, Option.some.injEq] at hf'
          subst hf'
          simp only [hlen]
          rw [if_pos (by omega)]

/-- One whole frame in front: the second round of the walk decides. -/
theorem walkFrames_frame {b rest : Bytes} (hb : IsFrame version samplerate b) :
    (walkFrames rest 1 = 0 → walkFrames (b ++ rest) 2 = 1) ∧
      (∀ c rest', IsFrame version samplerate c → rest = c ++ rest' →
        walkFrames (b ++ rest) 2 = 2) := by
  obtain ⟨f, hf, hlen, hv, hr⟩ := hb.parse_append rest
  have hstep : walkFrames (b ++ rest) 2 = (walkLoop (b ++ rest) 1 b.length 1 (some f)).2 := by
    rw [walkFrames, cqMp3Walk, walkLoop, List.drop_zero, hf]
    simp only [hlen, Nat.zero_add]
    rw [if_neg (by rw [List.length_append]; omega)]
  rw [hstep, walkLoop, List.drop_left]
  constructor
  · intro hzero
    rw [walkFrames, cqMp3Walk, walkLoop, List.drop_zero] at hzero
    cases hg : cqMp3Parse rest with
    | none => rfl
    | some g =>
        rw [hg] at hzero
        simp only [Nat.zero_add, walkLoop] at hzero
        -- a header without its whole frame ends the walk as no header does
        by_cases hfit : rest.length < g.frameBytes
        · simp only
          rw [if_pos (by rw [List.length_append]; omega)]
        · rw [if_neg hfit] at hzero
          exact absurd hzero Nat.one_ne_zero
  · rintro c rest' hc rfl
    obtain ⟨g, hg, hglen, hgv, hgr⟩ := hc.parse_append rest'
    have hco : Coherent g f := ⟨hgv.trans hv.symm, hgr.trans hr.symm⟩
    rw [hg]
    simp only [hglen, walkLoop]
    rw [if_neg (by simp only [List.length_append]; omega), if_pos hco]

/-- **What the tail gate sees at a frame boundary.** A piece of a stream of frames holds less than its
first frame; or that frame and less than the next one; or two whole frames. -/
theorem walkFrames_cases {b rest : Bytes} {todo : List Bytes}
    (hframes : ∀ c ∈ b :: todo, IsFrame version samplerate c) (hpre : rest <+: (b :: todo).flatten) :
    (walkFrames rest 2 = 0 ∧ rest.length < b.length) ∨
    ∃ rest', rest = b ++ rest' ∧ rest' <+: todo.flatten ∧
      (walkFrames rest 2 = 1 ∧ rest'.length < 1441 ∨
        walkFrames rest 2 = 2 ∧ ∃ c rest'', IsFrame version samplerate c ∧ rest' = c ++ rest'') := by
  have hb := hframes b List.mem_cons_self
  rw [List.flatten_cons] at hpre
  rcases lt_or_ge rest.length b.length with hlt | hge
  · exact Or.inl ⟨walkFrames_cut hb
      (List.prefix_of_prefix_length_le hpre (List.prefix_append _ _) (by omega)) hlt 2, hlt⟩
  · obtain ⟨rest', rfl⟩ := List.prefix_of_prefix_length_le (List.prefix_append b todo.flatten) hpre hge
    have hpre' : rest' <+: todo.flatten := (List.prefix_append_right_inj b).1 hpre
    refine Or.inr ⟨rest', rfl, hpre', ?_⟩
    cases todo with
    | nil =>
        have hnil : rest' = [] := List.prefix_nil.1 hpre'
        subst hnil
        exact Or.inl ⟨(walkFrames_frame hb).1 rfl, by decide⟩
    | cons c todo =>
        have hc := hframes c (List.mem_cons_of_mem _ List.mem_cons_self)
        rw [List.flatten_cons] at hpre'
        rcases lt_or_ge rest'.length c.length with hlt | hge
        · have hpart := List.prefix_of_prefix_length_le hpre' (List.prefix_append _ _) (Nat.le_of_lt hlt)
          have hbound := hc.length_bounds.2
          exact Or.inl ⟨(walkFrames_frame hb).1 (walkFrames_cut hc hpart hlt 1), by omega⟩
        · obtain ⟨rest'', rfl⟩ :=
            List.prefix_of_prefix_length_le (List.prefix_append c todo.flatten) hpre' hge
          exact Or.inr ⟨(walkFrames_frame hb).2 c rest'' hc rfl, c, rest'', hc, rfl⟩

/-! ## Flat decoding -/

/-- What a decode has produced: the decoder's state, the PCM and the number of frames. -/
structure Flat (σ : Type) where
  state : σ
  pcm : Bytes
  frames : Nat

/-- Account for one decoder call. -/
def Flat.add (a : Flat σ) (call : σ × Mp3Out) : Flat σ :=
  if call.2.samples ≤ 0 then { a with state := call.1 }
  else { state := call.1, pcm := a.pcm ++ call.2.pcm, frames := a.frames + 1 }

/-- Call `cq_mp3dec_frame` on the flat buffer until it is empty or nothing is consumed. -/
def flatLoop (d : Mp3Decoder σ) : Nat → Flat σ → Bytes → Flat σ
  | 0, a, _ => a
  | fuel + 1, a, buf =>
      if buf.length = 0 then a
      else
        let call := cqMp3decFrame d a.state buf
        if call.2.consumed ≤ 0 then { a with state := call.1 }
        else flatLoop d fuel (a.add call) (buf.drop call.2.consumed.toNat)

/-- The flat decode of a buffer. -/
def flatDecode (d : Mp3Decoder σ) (s : σ) (data : Bytes) : Flat σ :=
  flatLoop d (data.length + 1) ⟨s, [], 0⟩ data

/-- Decode frame by frame, each on its own. -/
def decodeFrames (d : Mp3Decoder σ) (a : Flat σ) (frames : List Bytes) : Flat σ :=
  frames.foldl (fun a b => a.add (d.decodeFrame a.state b)) a

/-- The decoder consumes exactly the first frame, and looks at nothing else, when the frame is whole
and is followed by nothing or by a coherent header. -/
structure FrameExact (d : Mp3Decoder σ) (version samplerate : Nat) : Prop where
  decode_append : ∀ s b rest, IsFrame version samplerate b → NextOk version samplerate rest →
    d.decodeFrame s (b ++ rest) = d.decodeFrame s b
  consumed_eq : ∀ s b, IsFrame version samplerate b →
    (d.decodeFrame s b).2.consumed = b.length

/-- The call on a frame with a proper continuation. -/
theorem FrameExact.cqMp3decFrame_append {d : Mp3Decoder σ} (h : FrameExact d version samplerate)
    (s : σ) {b rest : Bytes} (hb : IsFrame version samplerate b)
    (hrest : NextOk version samplerate rest) :
    cqMp3decFrame d s (b ++ rest) = d.decodeFrame s b := by
  have := hb.length_bounds.1
  rw [cqMp3decFrame, if_neg (by rw [List.length_append]; omega), h.decode_append s b rest hb hrest]

theorem length_le_flatten {frames : List Bytes} (h : ∀ b ∈ frames, IsFrame version samplerate b) :
    frames.length ≤ frames.flatten.length := by
  induction frames with
  | nil => simp
  | cons b frames ih =>
      have hb := (h b List.mem_cons_self).length_bounds.1
      have := ih fun c hc => h c (List.mem_cons_of_mem _ hc)
      rw [List.flatten_cons, List.length_append, List.length_cons]
      omega

theorem flatLoop_flatten {d : Mp3Decoder σ} (h : FrameExact d version samplerate)
    (frames : List Bytes) :
    ∀ (fuel : Nat) (a : Flat σ), (∀ b ∈ frames, IsFrame version samplerate b) →
      frames.length < fuel → flatLoop d fuel a frames.flatten = decodeFrames d a frames := by
  induction frames with
  | nil =>
      intro fuel a _ hf
      obtain ⟨fuel, rfl⟩ : ∃ k, fuel = k + 1 := ⟨fuel - 1, by simp at hf; omega⟩
      rfl
  | cons b frames ih =>
      intro fuel a hall hf
      obtain ⟨fuel, rfl⟩ : ∃ k, fuel = k + 1 := ⟨fuel - 1, by simp at hf; omega⟩
      have hb := hall b List.mem_cons_self
      have hrest : ∀ c ∈ frames, IsFrame version samplerate c :=
        fun c hc => hall c (List.mem_cons_of_mem _ hc)
      have hpos := hb.length_bounds.1
      rw [flatLoop, List.flatten_cons, if_neg (by rw [List.length_append]; omega)]
      simp only [h.cqMp3decFrame_append a.state hb (nextOk_flatten hrest), h.consumed_eq _ b hb]
      rw [if_neg (by omega), Int.toNat_natCast, List.drop_left,
        ih fuel _ hrest (by simpa using hf)]
      rfl

/-- A stream of whole frames decodes frame by frame. -/
theorem flatDecode_flatten {d : Mp3Decoder σ} (h : FrameExact d version samplerate) (s : σ)
    {frames : List Bytes} (hall : ∀ b ∈ frames, IsFrame version samplerate b) :
    flatDecode d s frames.flatten = decodeFrames d ⟨s, [], 0⟩ frames :=
  flatLoop_flatten h frames _ _ hall (Nat.lt_succ_of_le (length_le_flatten hall))

theorem decodeFrames_append (d : Mp3Decoder σ) (a : Flat σ) (xs ys : List Bytes) :
    decodeFrames d a (xs ++ ys) = decodeFrames d (decodeFrames d a xs) ys :=
  List.foldl_append

theorem pcm_prefix_add (a : Flat σ) (call : σ × Mp3Out) : a.pcm <+: (a.add call).pcm := by
  rw [Flat.add]
  split
  · exact List.prefix_refl _
  · exact List.prefix_append _ _

/-- Decoding more frames only adds PCM at the end. -/
theorem pcm_prefix_decodeFrames (d : Mp3Decoder σ) (frames : List Bytes) :
    ∀ a : Flat σ, a.pcm <+: (decodeFrames d a frames).pcm := by
  induction frames with
  | nil => exact fun a => List.prefix_refl _
  | cons b frames ih =>
      intro a
      refine List.IsPrefix.trans (pcm_prefix_add a _) (ih _)

/-! ## Silence -/

/-- The silence of a frame. -/
def silence (f : CqMp3Frame) : Mp3Out :=
  { samples := f.samples
    channels := f.channels
    consumed := f.frameBytes
    pcm := List.replicate (f.samples * f.channels * 2) 0
    length_pcm := by simp }

/-- A decoder for frames without audio data: it reads the header of a whole frame, consumes the frame
and returns its silence. -/
def silenceDecoder : Mp3Decoder Unit :=
  ⟨fun s buf =>
    match cqMp3Parse buf with
    | none => (s, .nothing)
    | some f => if f.frameBytes ≤ buf.length then (s, silence f) else (s, .nothing)⟩

theorem silenceDecoder_bounded : silenceDecoder.Bounded := by
  have hcall : ∀ s buf, (silenceDecoder.decodeFrame s buf).2 = .nothing ∨
      ∃ f, cqMp3Parse buf = some f ∧ f.frameBytes ≤ buf.length ∧
        (silenceDecoder.decodeFrame s buf).2 = silence f := by
    intro s buf
    simp only [silenceDecoder]
    split
    · exact Or.inl rfl
    · next f hf =>
      split
      · next hle => exact Or.inr ⟨f, hf, hle, rfl⟩
      · exact Or.inl rfl
  constructor
  · intro s buf
    rcases hcall s buf with h | ⟨f, -, -, h⟩ <;> rw [h]
    · exact le_refl _
    · exact Int.natCast_nonneg _
  · intro s buf
    rcases hcall s buf with h | ⟨f, -, hle, h⟩ <;> rw [h]
    · exact Int.natCast_nonneg _
    · exact Int.ofNat_le.2 hle
  · intro s buf
    rcases hcall s buf with h | ⟨f, hf, -, h⟩ <;> rw [h]
    · exact Nat.zero_le _
    · exact samples_channels_le hf

theorem silenceDecoder_exact (version samplerate : Nat) :
    FrameExact silenceDecoder version samplerate := by
  have hcall : ∀ s b rest, IsFrame version samplerate b → ∃ f, f.frameBytes = b.length ∧
      cqMp3Parse b = some f ∧ silenceDecoder.decodeFrame s (b ++ rest) = (s, silence f) := by
    rintro s b rest ⟨f, hf, hlen, -⟩
    refine ⟨f, hlen, hf, ?_⟩
    have happend := cqMp3Parse_append rest (four_le_length_of_parse hf)
    simp only [silenceDecoder, happend, hf, List.length_append]
    rw [if_pos (by omega)]
  constructor
  · intro s b rest hb _
    obtain ⟨f, -, hf, h⟩ := hcall s b rest hb
    obtain ⟨g, -, hg, h'⟩ := hcall s b [] hb
    rw [List.append_nil] at h'
    rw [h, h', Option.some.inj (hf.symm.trans hg)]
  · intro s b hb
    obtain ⟨f, hlen, -, h⟩ := hcall s b [] hb
    rw [List.append_nil] at h
    rw [h, ← hlen]
    rfl

/-- A mono MPEG 2 frame of 24 bytes. -/
def shortFrame : Bytes := [0xFF, 0xF3, 0x14, 0xC0] ++ List.replicate 20 0

/-! ## Junk in front of frames -/

/-- A frame in front of another one is real. -/
theorem IsFrame.realFrame {b c : Bytes} (hb : IsFrame version samplerate b)
    (hc : IsFrame version samplerate c) (rest : Bytes) : RealFrame (b ++ (c ++ rest)) 0 := by
  obtain ⟨f, hf, hlen, hv, hr⟩ := hb.parse_append (c ++ rest)
  obtain ⟨g, hg, -, hgv, hgr⟩ := hc.parse_append rest
  refine ⟨f, g, hf, ?_, hgv.trans hv.symm, hgr.trans hr.symm⟩
  rw [Nat.zero_add, hlen, List.drop_left]
  exact hg

/-- A header does not begin with a zero. -/
theorem parse_zeros {n i : Nat} (rest : Bytes) (hi : i < n) :
    cqMp3Parse ((List.replicate n 0 ++ rest).drop i) = none := by
  obtain ⟨k, hk⟩ : ∃ k, n - i = k + 1 := ⟨n - i - 1, by omega⟩
  rw [List.drop_append_of_le_length (by rw [List.length_replicate]; omega), List.drop_replicate, hk,
    List.replicate_succ, List.cons_append]
  generalize List.replicate k (0 : UInt8) ++ rest = tail
  match tail with
  | [] => rfl
  | [_] => rfl
  | [_, _] => rfl
  | _ :: _ :: _ :: _ => rfl

theorem walkFrames_zeros {n : Nat} (rest : Bytes) (hn : 0 < n) (k : Nat) :
    walkFrames (List.replicate n 0 ++ rest) k = 0 := by
  cases k with
  | zero => rfl
  | succ k => rw [walkFrames, cqMp3Walk, walkLoop, parse_zeros rest hn]

/-- Zeros are rejected, up to the last three bytes of the buffer. -/
theorem rejected_zeros {n j : Nat} {rest : Bytes} (hj : j < n) (hlen : j + 4 ≤ n + rest.length) :
    Rejected (List.replicate n 0 ++ rest) j := by
  have hnone : cqMp3Parse ((List.replicate n 0 ++ rest).drop j) = none := parse_zeros rest hj
  constructor
  · rintro ⟨a, b, ha, -⟩
    rw [hnone] at ha
    cases ha
  · rw [undecided_iff_of_none hnone, List.length_append, List.length_replicate]
    omega

/-- The scan skips zeros in front of two frames. -/
theorem sync_zeros_frames (n : Nat) {b c : Bytes} (hb : IsFrame version samplerate b)
    (hc : IsFrame version samplerate c) (rest : Bytes) :
    ∃ f, cqMp3Sync (List.replicate n 0 ++ (b ++ (c ++ rest))) = some (n, f) := by
  have hdrop : (List.replicate n 0 ++ (b ++ (c ++ rest))).drop n = b ++ (c ++ rest) :=
    List.drop_left' List.length_replicate
  obtain ⟨f, hf, -⟩ := hb.parse_append (c ++ rest)
  have hbounds := hb.length_bounds.1
  refine ⟨f, sync_eq_some_iff.2 ⟨?_, ?_, ?_⟩⟩
  · have hreal := hb.realFrame hc rest
    rw [← hdrop, realFrame_drop, Nat.add_zero] at hreal
    exact hreal
  · rw [hdrop]
    exact hf
  · intro j hj
    exact rejected_zeros hj (by rw [List.length_append]; omega)

end Casquinha.Decode
