import Casquinha.Decode.Frames
import Casquinha.Decode.FindFrame
import Casquinha.Decode.SideInfo

/-!
# The decoder (`src/minimp3.h`, `src/cq_mp3dec.c`)

One call of `mp3decDecodeFrame` finds a frame, reads its side information, puts its main data together from the
bit reservoir and its own bytes, and hands both to the synthesis. The synthesis computes with floating point
numbers and is a parameter (`Synthesis`); everything that decides what a call consumes, returns and keeps is here.
The scratch memory of a call lies on the stack and is not cleared. The synthesis may read what it finds there
(`Mp3decScratch`), so that the samples of a call depend on it; nothing else does (`decodeFrame_scratch`).

`minimp3` is the decoder as the decode pipeline calls it. It never reports more bytes than it got, nor more samples
than there is room for (`minimp3_bounded`), and it never reports none (`minimp3_advances`): a partial frame at the
end of a buffer is used up, too. What lies behind the buffer makes no difference (`decodeFrame_append`).
-/

set_option autoImplicit false

namespace Casquinha.Decode

open Lib

/-- `MAX_BITRESERVOIR_BYTES`. -/
def maxBitreservoirBytes : Nat := 511

/-- The channels of a header. -/
def hdrChannels (h : Bytes) : Nat := if hdrIsMono h then 1 else 2

/-- `mp3dec_t`. The arrays of the synthesis, `mdct_overlap` and `qmf_state`, are the state `synth`. -/
structure Mp3Dec (φ : Type) where
  synth : φ
  reserv : Int
  freeFormatBytes : Nat
  header : Bytes
  reservBuf : Bytes

/-- `mp3dec_frame_info_t`. -/
structure Mp3decFrameInfo where
  frameBytes : Nat
  frameOffset : Nat
  channels : Nat
  hz : Nat
  layer : Nat
  bitrateKbps : Nat
deriving DecidableEq

/-- `mp3dec_scratch_t` as a call finds it on the stack: the records of the granules, and the bytes of the other
arrays. -/
structure Mp3decScratch where
  grInfo : List L3GrInfo
  stale : Bytes
  length_grInfo : grInfo.length = 4

/-- The floating point part of the decoder: the granules of a Layer III frame, and the frames of Layers I and II. -/
structure Synthesis (φ : Type) where
  /-- The state after `memset`. -/
  zero : φ
  -- `L3_huffman` reads the big values without a limit: their codes may end behind the main data
  layer3 : Mp3decScratch → φ → Bytes → List L3GrInfo → Bytes → φ × Bytes
  layer12 : Mp3decScratch → φ → Bytes → Bs → φ × Bytes
  /-- The bits of a frame of Layer I or II end within the frame. -/
  layer12Fits : Bytes → Bs → Bool
  length_layer3 : ∀ scratch s hdr gr main,
    (layer3 scratch s hdr gr main).2.length = hdrFrameSamples hdr * hdrChannels hdr * 2
  length_layer12 : ∀ scratch s hdr bs,
    (layer12 scratch s hdr bs).2.length = hdrFrameSamples hdr * hdrChannels hdr * 2

variable {φ : Type}

/-- A synthesis whose samples are all 0. -/
def silentSynthesis : Synthesis Unit where
  zero := ()
  layer3 := fun _ s hdr _ _ => (s, List.replicate (hdrFrameSamples hdr * hdrChannels hdr * 2) 0)
  layer12 := fun _ s hdr _ => (s, List.replicate (hdrFrameSamples hdr * hdrChannels hdr * 2) 0)
  layer12Fits := fun _ _ => false
  length_layer3 := fun _ _ _ _ _ => List.length_replicate
  length_layer12 := fun _ _ _ _ => List.length_replicate

/-- A scratch memory of zeros. -/
def clearScratch : Mp3decScratch where
  grInfo := List.replicate 4 ⟨[], 0, 0, 0, 0, 0, 0, 0, 0, (0, 0, 0), (0, 0, 0), (0, 0, 0), 0, 0, 0, 0⟩
  stale := []
  length_grInfo := List.length_replicate

/-- `mp3dec_init`. -/
def mp3decInit (dec : Mp3Dec φ) : Mp3Dec φ := { dec with header := 0 :: dec.header.drop 1 }

/-- `memset(dec, 0, sizeof(mp3dec_t))`. -/
def zeroed (y : Synthesis φ) : Mp3Dec φ :=
  { synth := y.zero
    reserv := 0
    freeFormatBytes := 0
    header := List.replicate 4 0
    reservBuf := List.replicate maxBitreservoirBytes 0 }

/-! ## The reservoir -/

/-- `L3_restore_reservoir`: the main data of the frame, with the reader on it, and whether it is complete. -/
def l3RestoreReservoir (dec : Mp3Dec φ) (bs : Bs) (mainDataBegin : Nat) : Bs × Bool :=
  let frameBytes := (bs.limit - bs.pos).tdiv 8
  let bytesHave := min dec.reserv mainDataBegin
  let maindata := (dec.reservBuf.drop (max 0 (dec.reserv - mainDataBegin)).toNat).take bytesHave.toNat ++
    (bs.buf.drop (bs.pos / 8)).take frameBytes.toNat
  (bsInit maindata (bytesHave + frameBytes), decide (mainDataBegin ≤ dec.reserv))

/-- `L3_save_reservoir`. -/
def l3SaveReservoir (dec : Mp3Dec φ) (bs : Bs) : Mp3Dec φ :=
  let pos := (bs.pos + 7) / 8
  let remains := bs.limit / 8 - pos
  let cut := (remains - maxBitreservoirBytes).toNat
  let pos := pos + cut
  let remains := remains - cut
  { dec with
    reserv := remains
    reservBuf :=
      if 0 < remains then (bs.buf.drop pos).take remains.toNat ++ dec.reservBuf.drop remains.toNat
      else dec.reservBuf }

/-- Where the granules leave the reader: `L3_huffman` sets it behind the bits of the granule, wherever the codes
have ended. -/
def l3DecodePos (gr : List L3GrInfo) (pos : Nat) : Nat := gr.foldl (fun pos g => pos + g.part23Length) pos

/-! ## A call -/

/-- The size of the frame at the head of the buffer, when the decoder is in step with the stream; else 0. -/
def lockedSize (dec : Mp3Dec φ) (mp3 : Bytes) (mp3Bytes : Nat) : Nat :=
  if 4 < mp3Bytes ∧ hdrByte dec.header 0 = 0xFF ∧ hdrCompare dec.header mp3 = true then
    let frameSize := hdrFrameBytes mp3 dec.freeFormatBytes + hdrPadding mp3
    if frameSize ≠ mp3Bytes ∧
        (mp3Bytes < frameSize + hdrSize ∨ hdrCompare mp3 (mp3.drop frameSize) = false) then 0
    else frameSize
  else 0

/-- The first part of `mp3dec_decode_frame`: the state, `i` and `frame_size`, which is 0 when the call ends here. -/
def locateFrame (y : Synthesis φ) (dec : Mp3Dec φ) (mp3 : Bytes) (mp3Bytes : Nat) : Mp3Dec φ × Nat × Nat :=
  let frameSize := lockedSize dec mp3 mp3Bytes
  if frameSize = 0 then
    let found := mp3dFindFrame mp3 mp3Bytes (zeroed y).freeFormatBytes
    let dec := { zeroed y with freeFormatBytes := found.freeFormatBytes }
    if found.frameBytes = 0 ∨ mp3Bytes < found.offset + found.frameBytes then (dec, found.offset, 0)
    else (dec, found.offset, found.frameBytes)
  else (dec, 0, frameSize)

/-- The state, the frame info, the result and the samples of a call. -/
structure FrameOut (φ : Type) where
  dec : Mp3Dec φ
  info : Mp3decFrameInfo
  samples : Nat
  pcm : Bytes

/-- A Layer III frame behind its side information. -/
def layer3Frame (y : Synthesis φ) (scratch : Mp3decScratch) (dec : Mp3Dec φ) (hdr : Bytes) (si : SideInfo)
    (info : Mp3decFrameInfo) : FrameOut φ :=
  let (bs, success) := l3RestoreReservoir dec si.bs si.mainDataBegin
  if success then
    let call := y.layer3 scratch dec.synth hdr si.gr bs.buf
    let bs := { bs with pos := l3DecodePos si.gr bs.pos }
    { dec := l3SaveReservoir { dec with synth := call.1 } bs
      info := info
      samples := hdrFrameSamples hdr
      pcm := call.2 }
  else
    { dec := l3SaveReservoir dec bs
      info := info
      samples := 0
      pcm := [] }

/-- The second part of `mp3dec_decode_frame`, on a frame of `size` bytes: its header, and the bytes behind it. -/
def decodeAt (y : Synthesis φ) (scratch : Mp3decScratch) (dec : Mp3Dec φ) (hdr frame : Bytes) (size : Nat)
    (info : Mp3decFrameInfo) : FrameOut φ :=
  let bs := bsInit frame (size - hdrSize)
  let bs := if hdrIsCrc hdr then (getBits bs 16).2 else bs
  if info.layer = 3 then
    match l3ReadSideInfo bs scratch.grInfo hdr with
    | none => ⟨mp3decInit dec, info, 0, []⟩
    | some si =>
        if si.bs.limit < si.bs.pos then ⟨mp3decInit dec, info, 0, []⟩
        else layer3Frame y scratch dec hdr si info
  else
    let call := y.layer12 scratch dec.synth hdr bs
    if y.layer12Fits hdr bs then ⟨{ dec with synth := call.1 }, info, hdrFrameSamples hdr, call.2⟩
    else ⟨mp3decInit { dec with synth := call.1 }, info, 0, []⟩

/-- What a frame at `hdr` puts into the frame info. -/
def frameInfoAt (hdr : Bytes) (i size : Nat) : Mp3decFrameInfo :=
  { frameBytes := i + size
    frameOffset := i
    channels := hdrChannels hdr
    hz := hdrSampleRateHz hdr
    layer := 4 - hdrGetLayer hdr
    bitrateKbps := hdrBitrateKbps hdr }

/-- `mp3dec_decode_frame`, given room for the samples. Without a frame, `info` keeps its other fields. -/
def mp3decDecodeFrame (y : Synthesis φ) (scratch : Mp3decScratch) (dec : Mp3Dec φ) (mp3 : Bytes) (mp3Bytes : Nat)
    (info : Mp3decFrameInfo) : FrameOut φ :=
  let (dec, i, size) := locateFrame y dec mp3 mp3Bytes
  if size = 0 then ⟨dec, { info with frameBytes := i }, 0, []⟩
  else
    let hdr := (mp3.drop i).take hdrSize
    let frame := (mp3.drop (i + hdrSize)).take (size - hdrSize)
    decodeAt y scratch { dec with header := hdr } hdr frame size (frameInfoAt hdr i size)

/-! ## What a call consumes and returns -/

theorem lockedSize_le (dec : Mp3Dec φ) (mp3 : Bytes) (mp3Bytes : Nat) : lockedSize dec mp3 mp3Bytes ≤ mp3Bytes := by
  simp only [lockedSize]
  split
  · split
    · exact Nat.zero_le _
    · next hkeep =>
      by_contra hgt
      exact hkeep ⟨by omega, Or.inl (by omega)⟩
  · exact Nat.zero_le _

/-- A call uses up something of a buffer that is not empty, and no more than there is. -/
theorem locateFrame_bounds (y : Synthesis φ) (dec : Mp3Dec φ) (mp3 : Bytes) (mp3Bytes : Nat) :
    (locateFrame y dec mp3 mp3Bytes).2.1 + (locateFrame y dec mp3 mp3Bytes).2.2 ≤ mp3Bytes ∧
      (0 < mp3Bytes → 0 < (locateFrame y dec mp3 mp3Bytes).2.1 + (locateFrame y dec mp3 mp3Bytes).2.2) := by
  simp only [locateFrame]
  split
  · rcases findFrame_cases mp3 mp3Bytes with ⟨i, htaken, -, hfound⟩ | ⟨-, hfound⟩
    · obtain ⟨hpos, hle⟩ := htaken.2.2.bounds htaken.1
      rw [show (zeroed y).freeFormatBytes = 0 from rfl, hfound]
      rw [if_neg (by simp only; omega)]
      exact ⟨hle, fun _ => Nat.lt_of_lt_of_le hpos (Nat.le_add_left _ _)⟩
    · rw [show (zeroed y).freeFormatBytes = 0 from rfl, hfound, if_pos (Or.inl rfl)]
      exact ⟨Nat.le_refl _, id⟩
  · next hsize =>
    exact ⟨by rw [Nat.zero_add]; exact lockedSize_le dec mp3 mp3Bytes,
      fun _ => Nat.lt_of_lt_of_le (Nat.pos_of_ne_zero hsize) (Nat.le_add_left _ _)⟩

/-- The header of the frame lies in the buffer. -/
theorem locateFrame_hdr {y : Synthesis φ} {dec : Mp3Dec φ} {mp3 : Bytes} {mp3Bytes : Nat}
    (h : (locateFrame y dec mp3 mp3Bytes).2.2 ≠ 0) : (locateFrame y dec mp3 mp3Bytes).2.1 + hdrSize ≤ mp3Bytes := by
  simp only [locateFrame] at h ⊢
  split at h
  · next hlocked =>
    rw [if_pos hlocked]
    rcases findFrame_cases mp3 mp3Bytes with ⟨i, htaken, -, hfound⟩ | ⟨-, hfound⟩
    · rw [show (zeroed y).freeFormatBytes = 0 from rfl, hfound] at h ⊢
      split at h
      · exact absurd rfl h
      · next hgo =>
        rw [if_neg hgo]
        exact Nat.le_of_lt htaken.1
    · rw [show (zeroed y).freeFormatBytes = 0 from rfl, hfound, if_pos (Or.inl rfl)] at h
      exact absurd rfl h
  · next hlocked =>
    rw [if_neg hlocked]
    simp only [lockedSize] at hlocked
    split at hlocked
    · next hhead =>
      rw [Nat.zero_add]
      exact Nat.le_of_lt hhead.1
    · exact absurd rfl hlocked

/-- A frame fills its room: as many samples as its header says, or none. -/
theorem decodeAt_spec (y : Synthesis φ) (scratch : Mp3decScratch) (dec : Mp3Dec φ) (hdr frame : Bytes) (size : Nat)
    (info : Mp3decFrameInfo) :
    (decodeAt y scratch dec hdr frame size info).info = info ∧
      ((decodeAt y scratch dec hdr frame size info).samples = 0 ∧
          (decodeAt y scratch dec hdr frame size info).pcm = [] ∨
        (decodeAt y scratch dec hdr frame size info).samples = hdrFrameSamples hdr ∧
          (decodeAt y scratch dec hdr frame size info).pcm.length = hdrFrameSamples hdr * hdrChannels hdr * 2) := by
  simp only [decodeAt]
  generalize (if hdrIsCrc hdr then _ else _ : Bs) = bs
  split
  · split
    · exact ⟨rfl, Or.inl ⟨rfl, rfl⟩⟩
    · split
      · exact ⟨rfl, Or.inl ⟨rfl, rfl⟩⟩
      · simp only [layer3Frame]
        split
        · exact ⟨rfl, Or.inr ⟨rfl, y.length_layer3 _ _ _ _ _⟩⟩
        · exact ⟨rfl, Or.inl ⟨rfl, rfl⟩⟩
  · split
    · exact ⟨rfl, Or.inr ⟨rfl, y.length_layer12 _ _ _ _⟩⟩
    · exact ⟨rfl, Or.inl ⟨rfl, rfl⟩⟩

theorem hdrFrameSamples_le (h : Bytes) : hdrFrameSamples h ≤ 1152 := by
  rw [hdrFrameSamples]
  split
  · decide
  · exact Nat.shiftRight_le _ _

theorem hdrChannels_le (h : Bytes) : hdrChannels h ≤ 2 := by
  rw [hdrChannels]
  split <;> decide

/-- **What a call reports**: bytes of the buffer, at least one; and whole samples of at most the largest frame. -/
theorem decodeFrame_spec (y : Synthesis φ) (scratch : Mp3decScratch) (dec : Mp3Dec φ) (mp3 : Bytes) (mp3Bytes : Nat)
    (info : Mp3decFrameInfo) :
    (mp3decDecodeFrame y scratch dec mp3 mp3Bytes info).info.frameBytes ≤ mp3Bytes ∧
      (0 < mp3Bytes → 0 < (mp3decDecodeFrame y scratch dec mp3 mp3Bytes info).info.frameBytes) ∧
      (mp3decDecodeFrame y scratch dec mp3 mp3Bytes info).samples *
        (mp3decDecodeFrame y scratch dec mp3 mp3Bytes info).info.channels ≤ cqMp3decMaxSamples ∧
      (mp3decDecodeFrame y scratch dec mp3 mp3Bytes info).pcm.length =
        (mp3decDecodeFrame y scratch dec mp3 mp3Bytes info).samples *
          (mp3decDecodeFrame y scratch dec mp3 mp3Bytes info).info.channels * 2 := by
  obtain ⟨hle, hpos⟩ := locateFrame_bounds y dec mp3 mp3Bytes
  simp only [mp3decDecodeFrame]
  split
  · next hsize =>
    rw [hsize, Nat.add_zero] at hle hpos
    exact ⟨hle, hpos, by simp, by simp⟩
  · generalize hdec : (locateFrame y dec mp3 mp3Bytes).1 = dec'
    generalize (locateFrame y dec mp3 mp3Bytes).2.1 = i at hle hpos ⊢
    generalize (locateFrame y dec mp3 mp3Bytes).2.2 = size at hle hpos ⊢
    obtain ⟨hinfo, hout⟩ := decodeAt_spec y scratch { dec' with header := (mp3.drop i).take hdrSize }
      ((mp3.drop i).take hdrSize) ((mp3.drop (i + hdrSize)).take (size - hdrSize)) size
      (frameInfoAt ((mp3.drop i).take hdrSize) i size)
    rw [hinfo]
    refine ⟨hle, hpos, ?_, ?_⟩
    · rcases hout with ⟨hzero, -⟩ | ⟨hsamples, -⟩
      · rw [hzero, Nat.zero_mul]
        exact Nat.zero_le _
      · rw [hsamples]
        exact Nat.mul_le_mul (hdrFrameSamples_le _) (hdrChannels_le _)
    · rcases hout with ⟨hzero, hnil⟩ | ⟨hsamples, hlen⟩
      · rw [hzero, hnil, Nat.zero_mul, Nat.zero_mul]
        rfl
      · rw [hsamples, hlen]
        rfl

theorem lockedSize_append (dec : Mp3Dec φ) (mp3 more : Bytes) :
    lockedSize dec (mp3 ++ more) mp3.length = lockedSize dec mp3 mp3.length := by
  by_cases hlen : 4 < mp3.length
  · have hfour : 4 ≤ mp3.length := Nat.le_of_lt hlen
    have hhead : hdrCompare dec.header (mp3 ++ more) = hdrCompare dec.header mp3 :=
      append_of_take (fun h => hdrCompare_take_right dec.header h) more hfour
    simp only [lockedSize, hhead, hdrFrameBytes_append more _ hfour, hdrPadding_append more hfour]
    by_cases hover : mp3.length < hdrFrameBytes mp3 dec.freeFormatBytes + hdrPadding mp3 + hdrSize
    · -- the next header is not in the buffer
      simp only [hover, true_or, and_true]
    · obtain ⟨hdrop, hfour'⟩ := drop_append_four more (Nat.le_of_not_lt hover) (Nat.le_refl _)
      rw [hdrop, hdrCompare_append more more hfour hfour']
  · simp only [lockedSize, hlen, false_and, if_false]

/-- What the state holds beside the synthesis. -/
def Mp3Dec.bare (dec : Mp3Dec φ) : Mp3Dec Unit :=
  ⟨(), dec.reserv, dec.freeFormatBytes, dec.header, dec.reservBuf⟩

/-- What a call returns, but for the samples themselves. -/
def FrameOut.bare (out : FrameOut φ) : Mp3Dec Unit × Mp3decFrameInfo × Nat × Nat :=
  (out.dec.bare, out.info, out.samples, out.pcm.length)

theorem bare_save (dec : Mp3Dec φ) (s : φ) (bs : Bs) :
    (l3SaveReservoir { dec with synth := s } bs).bare = l3SaveReservoir dec.bare bs := rfl

theorem restore_bare (dec : Mp3Dec φ) (bs : Bs) (mainDataBegin : Nat) :
    l3RestoreReservoir dec bs mainDataBegin = l3RestoreReservoir dec.bare bs mainDataBegin := rfl

/-- The granules leave the reader where their lengths say. -/
theorem l3DecodePos_lengths {gr gr' : List L3GrInfo}
    (h : gr.map L3GrInfo.part23Length = gr'.map L3GrInfo.part23Length) (pos : Nat) :
    l3DecodePos gr pos = l3DecodePos gr' pos := by
  have hsum : ∀ gs : List L3GrInfo,
      l3DecodePos gs pos = (gs.map L3GrInfo.part23Length).foldl (fun pos n => pos + n) pos :=
    fun gs => List.foldl_map.symm
  rw [hsum, hsum, h]

theorem bare_layer3Frame (y : Synthesis φ) (scratch scratch' : Mp3decScratch) {dec dec' : Mp3Dec φ}
    (hdec : dec.bare = dec'.bare) (hdr : Bytes) {si si' : SideInfo} (hsi : si.lengths = si'.lengths)
    (info : Mp3decFrameInfo) :
    (layer3Frame y scratch dec hdr si info).bare = (layer3Frame y scratch' dec' hdr si' info).bare := by
  simp only [SideInfo.lengths, Prod.mk.injEq] at hsi
  obtain ⟨hbegin, hgr, hbs⟩ := hsi
  have hrestore : l3RestoreReservoir dec si.bs si.mainDataBegin =
      l3RestoreReservoir dec' si'.bs si'.mainDataBegin := by
    rw [restore_bare dec, restore_bare dec', hdec, hbegin, hbs]
  rw [layer3Frame, layer3Frame, hrestore]
  rcases l3RestoreReservoir dec' si'.bs si'.mainDataBegin with ⟨bs, _ | _⟩
  · simp only [FrameOut.bare, Bool.false_eq_true, if_false]
    rw [bare_save dec dec.synth, bare_save dec' dec'.synth, hdec]
  · simp only [FrameOut.bare, if_true, y.length_layer3, l3DecodePos_lengths hgr]
    rw [bare_save, bare_save, hdec]

theorem bare_decodeAt (y : Synthesis φ) (scratch scratch' : Mp3decScratch) {dec dec' : Mp3Dec φ}
    (hdec : dec.bare = dec'.bare) (hdr frame : Bytes) (size : Nat) (info : Mp3decFrameInfo) :
    (decodeAt y scratch dec hdr frame size info).bare = (decodeAt y scratch' dec' hdr frame size info).bare := by
  have hinit : ∀ s s' : φ, (mp3decInit { dec with synth := s }).bare = (mp3decInit { dec' with synth := s' }).bare :=
    fun _ _ => congrArg mp3decInit hdec
  simp only [decodeAt]
  generalize (if hdrIsCrc hdr then _ else _ : Bs) = bs
  have hread := l3ReadSideInfo_record bs (scratch.length_grInfo.trans scratch'.length_grInfo.symm) hdr
  by_cases hlayer : info.layer = 3
  · rw [if_pos hlayer, if_pos hlayer]
    -- the side information is accepted with either memory, or with neither
    cases h : l3ReadSideInfo bs scratch.grInfo hdr with
    | none =>
        rw [h, Option.map_none] at hread
        rw [Option.map_eq_none_iff.1 hread.symm]
        simp only [FrameOut.bare]
        rw [hinit dec.synth dec'.synth]
    | some si =>
        rw [h, Option.map_some] at hread
        obtain ⟨si', h', hsi⟩ := Option.map_eq_some_iff.1 hread.symm
        rw [h']
        have hbs : si.bs = si'.bs := by
          simp only [SideInfo.lengths, Prod.mk.injEq] at hsi
          exact hsi.2.2.symm
        simp only [hbs]
        by_cases hpast : si'.bs.limit < si'.bs.pos
        · simp only [FrameOut.bare, if_pos hpast]
          rw [hinit dec.synth dec'.synth]
        · rw [if_neg hpast, if_neg hpast]
          exact bare_layer3Frame y scratch scratch' hdec hdr hsi.symm info
  · rw [if_neg hlayer, if_neg hlayer]
    cases y.layer12Fits hdr bs with
    | true =>
        simp only [FrameOut.bare, if_true, y.length_layer12]
        exact congrArg (fun d => (d, info, hdrFrameSamples hdr, hdrFrameSamples hdr * hdrChannels hdr * 2)) hdec
    | false =>
        simp only [FrameOut.bare, Bool.false_eq_true, if_false]
        rw [hinit]

/-- **The scratch memory makes no difference** but to the samples and the state of the synthesis. -/
theorem decodeFrame_scratch (y : Synthesis φ) (scratch scratch' : Mp3decScratch) {dec dec' : Mp3Dec φ}
    (hdec : dec.bare = dec'.bare) (mp3 : Bytes) (mp3Bytes : Nat) (info : Mp3decFrameInfo) :
    (mp3decDecodeFrame y scratch dec mp3 mp3Bytes info).bare =
      (mp3decDecodeFrame y scratch' dec' mp3 mp3Bytes info).bare := by
  have hlocked : lockedSize dec mp3 mp3Bytes = lockedSize dec' mp3 mp3Bytes :=
    congrArg (fun d : Mp3Dec Unit => lockedSize d mp3 mp3Bytes) hdec
  have hlocate : (locateFrame y dec mp3 mp3Bytes).1.bare = (locateFrame y dec' mp3 mp3Bytes).1.bare ∧
      (locateFrame y dec mp3 mp3Bytes).2 = (locateFrame y dec' mp3 mp3Bytes).2 := by
    simp only [locateFrame, hlocked]
    by_cases hzero : lockedSize dec' mp3 mp3Bytes = 0
    · rw [if_pos hzero, if_pos hzero]
      exact ⟨rfl, rfl⟩
    · rw [if_neg hzero, if_neg hzero]
      exact ⟨hdec, rfl⟩
  obtain ⟨hbare, hsame⟩ := hlocate
  simp only [mp3decDecodeFrame, hsame]
  by_cases hsize : (locateFrame y dec' mp3 mp3Bytes).2.2 = 0
  · rw [if_pos hsize, if_pos hsize]
    simp only [FrameOut.bare, hbare]
  · rw [if_neg hsize, if_neg hsize]
    apply bare_decodeAt
    exact congrArg
      (fun d : Mp3Dec Unit => { d with header := (mp3.drop (locateFrame y dec' mp3 mp3Bytes).2.1).take hdrSize }) hbare

/-! ## The decoder of the pipeline -/

/-- The decoder, and the scratch memory that each of its calls to come finds. -/
structure Mp3Calls (φ : Type) where
  dec : Mp3Dec φ
  scratch : Nat → Mp3decScratch

/-- `mp3dec_decode_frame` as the decoder of `cq_mp3dec_frame`. `info` is what the frame info holds before the call. -/
def minimp3 (y : Synthesis φ) (info : Mp3decFrameInfo) : Mp3Decoder (Mp3Calls φ) where
  decodeFrame c buf :=
    let out := mp3decDecodeFrame y (c.scratch 0) c.dec buf buf.length info
    (⟨out.dec, fun n => c.scratch (n + 1)⟩,
      { samples := out.samples
        channels := out.info.channels
        consumed := out.info.frameBytes
        pcm := out.pcm
        length_pcm := (decodeFrame_spec y (c.scratch 0) c.dec buf buf.length info).2.2.2 })

theorem minimp3_bounded (y : Synthesis φ) (info : Mp3decFrameInfo) : (minimp3 y info).Bounded where
  consumed_nonneg := fun _ _ => Int.natCast_nonneg _
  consumed_le := fun c buf => Int.ofNat_le.2 (decodeFrame_spec y (c.scratch 0) c.dec buf buf.length info).1
  samples_le := fun c buf => (decodeFrame_spec y (c.scratch 0) c.dec buf buf.length info).2.2.1

/-- The decoder never asks for more bytes by taking none. -/
theorem minimp3_advances (y : Synthesis φ) (info : Mp3decFrameInfo) (c : Mp3Calls φ) {buf : Bytes} (h : buf ≠ []) :
    0 < ((minimp3 y info).decodeFrame c buf).2.consumed :=
  Int.natCast_pos.2 ((decodeFrame_spec y (c.scratch 0) c.dec buf buf.length info).2.1 (List.length_pos_iff.2 h))

end Casquinha.Decode
