import Casquinha.Lib.Run
import Casquinha.Lib.Window
import Casquinha.Decode.Minimp3

/-!
# The bit reservoir over whole streams (`src/minimp3.h`)

The main data of a Layer III frame may begin in the frames before it. The decoder keeps what the last frame left
over, 511 bytes at most, and puts the main data of the next one together from that and the frame's own bytes.

A state is `Valid` in every run of calls, whatever the buffers hold, and then every copy stays within its arrays
(`copies_fit_of_run`). The reservoir is a window on the stream of main data since the decoder last had to search for
a frame (`follows_of_run`), so that a frame that decodes decodes the bytes its encoder wrote (`mainData_of_run`).
-/

set_option autoImplicit false

namespace Casquinha.Decode

open Lib

variable {φ : Type}

/-- `MAX_L3_FRAME_PAYLOAD_BYTES`. -/
def maxL3FramePayloadBytes : Nat := maxFreeFormatFrameSize

/-- The size of `maindata` in `mp3dec_scratch_t`. -/
def maindataBytes : Nat := maxBitreservoirBytes + maxL3FramePayloadBytes

/-- What every state of the decoder satisfies. -/
structure Mp3Dec.Valid (dec : Mp3Dec φ) : Prop where
  reserv_nonneg : 0 ≤ dec.reserv
  reserv_le : dec.reserv ≤ maxBitreservoirBytes
  length_reservBuf : dec.reservBuf.length = maxBitreservoirBytes
  length_header : dec.header.length = hdrSize
  freeFormatBytes_lt : dec.freeFormatBytes < maxFreeFormatFrameSize

/-- The bytes that the decoder has kept. -/
def Mp3Dec.kept (dec : Mp3Dec φ) : Bytes := dec.reservBuf.take dec.reserv.toNat

/-- The reservoir. -/
def Mp3Dec.Valid.window {dec : Mp3Dec φ} (h : dec.Valid) : Window UInt8 maxBitreservoirBytes :=
  ⟨dec.kept, by
    rw [Mp3Dec.kept, List.length_take]
    exact Nat.le_trans (Nat.min_le_right _ _) (Nat.le_of_eq h.length_reservBuf)⟩

theorem Mp3Dec.Valid.held_window {dec : Mp3Dec φ} (h : dec.Valid) : h.window.held = dec.kept := rfl

theorem Mp3Dec.Valid.length_window {dec : Mp3Dec φ} (h : dec.Valid) : (h.window.held.length : Int) = dec.reserv := by
  have hle := h.reserv_le
  have hnonneg := h.reserv_nonneg
  rw [h.held_window, Mp3Dec.kept, List.length_take, h.length_reservBuf]
  omega

/-- The main data of the frame itself: what is behind the side information. -/
def payload (bs : Bs) : Bytes := bs.buf.drop (bs.pos / 8)

/-- The reader stands on a byte of a buffer that it may read to the end. -/
structure OnByte (bs : Bs) : Prop where
  limit_eq : bs.limit = 8 * bs.buf.length
  pos_le : bs.pos ≤ 8 * bs.buf.length
  aligned : 8 ∣ bs.pos

theorem OnByte.length_payload {bs : Bs} (h : OnByte bs) : 8 * (payload bs).length + bs.pos = 8 * bs.buf.length := by
  have hle := h.pos_le
  obtain ⟨k, hk⟩ := h.aligned
  rw [payload, List.length_drop]
  omega

/-! ## One frame -/

variable {dec : Mp3Dec φ}

/-- `L3_restore_reservoir` puts the main data together from the reservoir and the frame. -/
theorem Mp3Dec.Valid.restore (h : dec.Valid) {bs : Bs} (hbs : OnByte bs) (mainDataBegin : Nat) :
    l3RestoreReservoir dec bs mainDataBegin =
      (bsInit (h.window.view mainDataBegin (payload bs)) (h.window.view mainDataBegin (payload bs)).length,
        decide (mainDataBegin ≤ h.window.held.length)) := by
  have hlen := hbs.length_payload
  have hlimit := hbs.limit_eq
  obtain ⟨n, hn⟩ := Int.eq_ofNat_of_zero_le h.reserv_nonneg
  have hwindow := h.length_window
  have hheld : h.window.held = dec.reservBuf.take n := by
    show dec.reservBuf.take dec.reserv.toNat = dec.reservBuf.take n
    rw [hn]
    rfl
  have hlength : h.window.held.length = n := by omega
  have hframe : (bs.limit - bs.pos).tdiv 8 = (payload bs).length := by
    rw [hlimit, show (8 * bs.buf.length - bs.pos : Int) = (payload bs).length * 8 by omega]
    exact Int.mul_tdiv_cancel _ (by decide)
  have hback : (dec.reservBuf.drop (n - mainDataBegin)).take (min n mainDataBegin) =
      h.window.held.rtake mainDataBegin := by
    rw [List.rtake, hlength, hheld, List.drop_take]
    congr 1
    omega
  have hstart : (max 0 ((n : Int) - mainDataBegin)).toNat = n - mainDataBegin := by omega
  have hhave : min (n : Int) mainDataBegin = (min n mainDataBegin : Nat) := by omega
  rw [l3RestoreReservoir]
  simp only [hframe, hn, hstart, hhave, Int.toNat_natCast, hback]
  rw [Window.length_view, hlength, Nat.min_comm mainDataBegin n, Nat.cast_add]
  refine Prod.ext ?_ (decide_eq_decide.2 Int.ofNat_le)
  have htail : (bs.buf.drop (bs.pos / 8)).take (payload bs).length = payload bs := List.take_length
  rw [htail]
  rfl

theorem Mp3Dec.Valid.keep (h : dec.Valid) {kept : Bytes} (hkept : kept.length ≤ maxBitreservoirBytes) :
    ∃ hsaved : Mp3Dec.Valid
        { dec with
          reserv := kept.length
          reservBuf :=
            if 0 < (kept.length : Int) then kept.take kept.length ++ dec.reservBuf.drop kept.length
            else dec.reservBuf },
      hsaved.window = ⟨kept, hkept⟩ := by
  have hfull := h.length_reservBuf
  have hlength : (if 0 < (kept.length : Int) then kept.take kept.length ++ dec.reservBuf.drop kept.length
      else dec.reservBuf).length = maxBitreservoirBytes := by
    split
    · rw [List.take_length, List.length_append, List.length_drop, hfull]
      omega
    · exact hfull
  refine ⟨⟨Int.natCast_nonneg _, Int.ofNat_le.2 hkept, hlength, h.length_header, h.freeFormatBytes_lt⟩, Window.ext ?_⟩
  show (if 0 < (kept.length : Int) then kept.take kept.length ++ dec.reservBuf.drop kept.length
    else dec.reservBuf).take kept.length = kept
  split
  · rw [List.take_length, List.take_left]
  · next hempty =>
    have hnil : kept.length = 0 := by omega
    rw [List.length_eq_zero_iff.1 hnil]
    rfl

/-- `L3_save_reservoir` keeps the end of the main data. -/
theorem Mp3Dec.Valid.save (h : dec.Valid) {bs : Bs} (hlimit : bs.limit = 8 * bs.buf.length)
    (hpos : bs.pos ≤ 8 * bs.buf.length) :
    ∃ hsaved : (l3SaveReservoir dec bs).Valid, hsaved.window = Window.slide bs.buf ((bs.pos + 7) / 8) := by
  have hcut : (bs.limit / 8 - ((bs.pos + 7) / 8 : Nat) - maxBitreservoirBytes).toNat =
      bs.buf.length - (bs.pos + 7) / 8 - maxBitreservoirBytes := by omega
  have hkept : bs.buf.drop ((bs.pos + 7) / 8 + (bs.buf.length - (bs.pos + 7) / 8 - maxBitreservoirBytes)) =
      (bs.buf.drop ((bs.pos + 7) / 8)).rtake maxBitreservoirBytes := by
    rw [List.rtake, List.length_drop, List.drop_drop]
  have hlen := length_rtake (bs.buf.drop ((bs.pos + 7) / 8)) maxBitreservoirBytes
  rw [List.length_drop] at hlen
  have hremains : bs.limit / 8 - ((bs.pos + 7) / 8 : Nat) -
      ((bs.buf.length - (bs.pos + 7) / 8 - maxBitreservoirBytes : Nat) : Int) =
        (((bs.buf.drop ((bs.pos + 7) / 8)).rtake maxBitreservoirBytes).length : Nat) := by omega
  rw [l3SaveReservoir]
  simp only [hcut, hremains, hkept, Int.toNat_natCast]
  have hle : ((bs.buf.drop ((bs.pos + 7) / 8)).rtake maxBitreservoirBytes).length ≤ maxBitreservoirBytes := by
    rw [hlen]
    exact Nat.min_le_left _ _
  have hkeep := h.keep hle
  exact hkeep

theorem l3DecodePos_eq (gr : List L3GrInfo) (pos : Nat) : l3DecodePos gr pos = pos + part23Sum gr := by
  induction gr generalizing pos with
  | nil => rfl
  | cons g gr ih =>
      rw [l3DecodePos, List.foldl_cons, ← l3DecodePos, ih, part23Sum, part23Sum, List.map_cons, List.sum_cons,
        Nat.add_assoc]

/-- The side information of a frame, with the reader behind it: it reserves no more bits for the granules than the
main data has. -/
structure Fits (si : SideInfo) : Prop where
  onByte : OnByte si.bs
  part23Sum_le : part23Sum si.gr ≤ 8 * (si.mainDataBegin + (payload si.bs).length)

/-- **A frame on the reservoir.** When its main data is complete, the frame decodes it, and the reservoir keeps what the
granules leave of it. Else nothing is decoded, and all of the frame is kept. -/
theorem Mp3Dec.Valid.layer3Frame (h : dec.Valid) (y : Synthesis φ) (scratch : Mp3decScratch) (hdr : Bytes)
    {si : SideInfo} (hsi : Fits si) (info : Mp3decFrameInfo) :
    ∃ hout : (layer3Frame y scratch dec hdr si info).dec.Valid,
      if si.mainDataBegin ≤ h.window.held.length then
        (layer3Frame y scratch dec hdr si info).samples = hdrFrameSamples hdr ∧
          (layer3Frame y scratch dec hdr si info).pcm =
            (y.layer3 scratch dec.synth hdr si.gr (h.window.view si.mainDataBegin (payload si.bs))).2 ∧
          hout.window =
            Window.slide (h.window.view si.mainDataBegin (payload si.bs)) ((part23Sum si.gr + 7) / 8)
      else
        (layer3Frame y scratch dec hdr si info).samples = 0 ∧ (layer3Frame y scratch dec hdr si info).pcm = [] ∧
          hout.window = Window.slide (h.window.view si.mainDataBegin (payload si.bs)) 0 := by
  have hview := Window.length_view h.window si.mainDataBegin (payload si.bs)
  have hsum := hsi.part23Sum_le
  -- the reader of the main data reads its buffer to the end
  have hlimit : ∀ pos, (⟨h.window.view si.mainDataBegin (payload si.bs), pos,
      (h.window.view si.mainDataBegin (payload si.bs)).length * 8⟩ : Bs).limit =
        8 * (h.window.view si.mainDataBegin (payload si.bs)).length := fun _ => Int.mul_comm _ _
  rw [Casquinha.Decode.layer3Frame, h.restore hsi.onByte si.mainDataBegin]
  by_cases hback : si.mainDataBegin ≤ h.window.held.length
  · rw [Nat.min_eq_left hback] at hview
    simp only [hback, decide_true, if_true, l3DecodePos_eq, bsInit, Nat.zero_add, true_and]
    have hsynth : Mp3Dec.Valid { dec with synth :=
        (y.layer3 scratch dec.synth hdr si.gr (h.window.view si.mainDataBegin (payload si.bs))).1 } :=
      ⟨h.reserv_nonneg, h.reserv_le, h.length_reservBuf, h.length_header, h.freeFormatBytes_lt⟩
    obtain ⟨hsaved, hwindow⟩ := hsynth.save (hlimit (part23Sum si.gr)) (by rw [hview]; exact hsum)
    exact ⟨hsaved, hwindow⟩
  · simp only [hback, decide_false, if_false, Bool.false_eq_true, bsInit, true_and]
    obtain ⟨hsaved, hwindow⟩ := h.save (hlimit 0) (Nat.zero_le _)
    have hnone : (0 + 7) / 8 = 0 := by decide
    simp only [hnone] at hwindow
    exact ⟨hsaved, hwindow⟩

/-! ## The size of a frame -/

/-- Without a bitrate, the length of a frame comes from the search. -/
theorem hdrFrameBytes_free {h : Bytes} (hfree : hdrIsFreeFormat h = true) (freeFormatSize : Nat) :
    hdrFrameBytes h freeFormatSize = freeFormatSize := by
  have hindex : hdrGetBitrate h = 0 := (byte2_facts (hdrByte h 2)).2.2.1.1 hfree
  have hrates : ∀ m : Bool, ∀ l : Nat, ((halfrate.getD m.toNat []).getD l []).getD 0 0 = 0 := by
    intro m l
    match l with
    | 0 | 1 | 2 => cases m <;> rfl
    | l + 3 => cases m <;> rfl
  have hzero : hdrBitrateKbps h = 0 := by rw [hdrBitrateKbps, hindex, hrates, Nat.mul_zero]
  simp [hdrFrameBytes, hzero]

/-- A Layer III frame is no longer than the array its payload is copied to. -/
theorem layer3Bytes_le {h : Bytes} (hlen : 4 ≤ h.length) (hvalid : hdrValid h = true) (hlayer : hdrGetLayer h = 1)
    {freeFormatSize : Nat} (hfree : freeFormatSize < maxFreeFormatFrameSize) :
    hdrFrameBytes h freeFormatSize + hdrPadding h ≤ maxFreeFormatFrameSize := by
  have hlayer1 : hdrIsLayer1 h = false := (byte1_facts (hdrByte h 1) hlayer).2.2.2.2
  cases hformat : hdrIsFreeFormat h with
  | true =>
      rw [hdrFrameBytes_free hformat, hdrPadding, hlayer1]
      split
      · exact hfree
      · exact Nat.le_of_lt hfree
  | false =>
      have hlayer3 : hdrLayer3 h = true := by
        rw [hdrLayer3, hvalid, hlayer, hformat]
        rfl
      have hparse := cqMp3Parse_eq_some_iff.2 ⟨hlen, hlayer3, rfl⟩
      rw [(hdrFrameBytes_layer3 hparse freeFormatSize).1]
      exact Nat.le_trans (frameBytes_bounds hparse).2 (by decide)

/-- The search for a free format finds less than a whole frame. -/
theorem freeLoop_lt (mp3 : Bytes) (i mp3Bytes : Nat) :
    ∀ (fuel k : Nat) (size : FrameSize), size.freeFormatBytes < maxFreeFormatFrameSize →
      (freeLoop mp3 i mp3Bytes fuel k size).freeFormatBytes < maxFreeFormatFrameSize := by
  intro fuel
  induction fuel with
  | zero => exact fun _ _ h => h
  | succ fuel ih =>
      intro k size h
      rw [freeLoop]
      split
      · next hgo =>
        split
        · simp only
          split
          · exact ih _ _ h
          · exact ih _ _ (Nat.lt_of_le_of_lt (Nat.sub_le _ _) hgo.2.1)
        · exact ih _ _ h
      · exact h

/-- What the search of a call leaves of the state, and the size of the frame that it finds. -/
theorem findFrame_free (mp3 : Bytes) (mp3Bytes : Nat) :
    (mp3dFindFrame mp3 mp3Bytes 0).freeFormatBytes < maxFreeFormatFrameSize ∧
      (mp3Bytes = mp3.length → (mp3dFindFrame mp3 mp3Bytes 0).frameBytes ≠ 0 →
        hdrGetLayer (mp3.drop (mp3dFindFrame mp3 mp3Bytes 0).offset) = 1 →
          (mp3dFindFrame mp3 mp3Bytes 0).frameBytes ≤ maxFreeFormatFrameSize) := by
  have hzero : 0 < maxFreeFormatFrameSize := by decide
  rcases findFrame_cases mp3 mp3Bytes with ⟨i, ⟨hlt, hvalid, htaken⟩, -, hfound⟩ | ⟨-, hfound⟩
  · rw [hfound]
    refine ⟨freeLoop_lt _ _ _ _ _ _ hzero, ?_⟩
    rintro rfl - hlayer
    rcases freeLoop_cases (mp3.drop i) i mp3.length maxFreeFormatFrameSize hdrSize
      ⟨hdrFrameBytes (mp3.drop i) 0, hdrFrameBytes (mp3.drop i) 0 + hdrPadding (mp3.drop i), 0⟩ (Nat.le_refl _) with
        hsame | ⟨k, -, hk, -, hsize, -⟩
    · simp only [frameSizeAt, hsame]
      exact layer3Bytes_le (by rw [List.length_drop]; rw [hdrSize] at hlt; omega) hvalid hlayer hzero
    · simp only [frameSizeAt, hsize]
      exact Nat.le_of_lt hk
  · rw [hfound]
    exact ⟨hzero, fun _ hne => absurd rfl hne⟩

/-- The state in which a call reads its frame: the one it got when it is in step with the stream, else a new one. -/
theorem locateFrame_dec (y : Synthesis φ) (dec : Mp3Dec φ) (mp3 : Bytes) (mp3Bytes : Nat) :
    (locateFrame y dec mp3 mp3Bytes).1 =
      if lockedSize dec mp3 mp3Bytes = 0 then
        { zeroed y with freeFormatBytes := (mp3dFindFrame mp3 mp3Bytes 0).freeFormatBytes }
      else dec := by
  simp only [locateFrame]
  split
  · split <;> rfl
  · rfl

theorem locateFrame_size_le (y : Synthesis φ) {mp3 : Bytes} (hfree : dec.freeFormatBytes < maxFreeFormatFrameSize)
    (hsize : (locateFrame y dec mp3 mp3.length).2.2 ≠ 0)
    (hlayer : hdrGetLayer (mp3.drop (locateFrame y dec mp3 mp3.length).2.1) = 1) :
    (locateFrame y dec mp3 mp3.length).2.2 ≤ maxFreeFormatFrameSize := by
  simp only [locateFrame] at hsize hlayer ⊢
  split at hsize
  · next hlocked =>
    rw [if_pos hlocked] at hlayer ⊢
    rw [show (zeroed y).freeFormatBytes = 0 from rfl] at hsize hlayer ⊢
    split at hsize
    · exact absurd rfl hsize
    · next hgo =>
      rw [if_neg hgo] at hlayer ⊢
      exact (findFrame_free mp3 mp3.length).2 rfl hsize hlayer
  · next hlocked =>
    rw [if_neg hlocked] at hlayer ⊢
    simp only [lockedSize] at hlocked ⊢
    split at hlocked
    · next hhead =>
      have hvalid : hdrValid mp3 = true := by
        have hcompare := hhead.2.2
        simp only [hdrCompare, Bool.and_eq_true] at hcompare
        exact hcompare.1.1.1
      split at hlocked
      · exact absurd rfl hlocked
      · next hkeep =>
        rw [if_pos hhead, if_neg hkeep]
        exact layer3Bytes_le (Nat.le_of_lt hhead.1) hvalid hlayer hfree
    · exact absurd rfl hlocked

/-- What is read of a frame of `size` bytes. -/
theorem fits_of_read {frame : Bytes} {size p : Nat} {gr : List L3GrInfo} {hdr : Bytes} {si : SideInfo}
    (hlength : frame.length = size - hdrSize) (haligned : 8 ∣ p) (hgr : grCount hdr ≤ gr.length)
    (hread : l3ReadSideInfo ⟨frame, p, (size - hdrSize) * 8⟩ gr hdr = some si) (hends : ¬ si.bs.limit < si.bs.pos) :
    Fits si ∧ si.mainDataBegin < 512 ∧ si.bs.buf = frame := by
  have hlimit : ((size : Int) - hdrSize) * 8 ≤ 8 * frame.length := by omega
  obtain ⟨hbs, hbegin, -, -, hsum⟩ := sideInfo_spec (by exact hlimit) hgr hread
  have hbuf : si.bs.buf = frame := by rw [hbs]
  have hlimit' : si.bs.limit = (size - hdrSize) * 8 := by rw [hbs]
  -- a frame shorter than its header has no room for the side information
  have honByte : OnByte si.bs :=
    { limit_eq := by
        rw [hbuf]
        omega
      pos_le := by
        rw [hbuf]
        omega
      aligned := by
        rw [hbs]
        refine Nat.dvd_add haligned ?_
        rw [sideInfoBits]
        split <;> split <;> decide }
  have hpayload := honByte.length_payload
  have hall := honByte.limit_eq
  simp only at hsum
  exact ⟨⟨honByte, by omega⟩, hbegin, hbuf⟩

/-! ## A call -/

/-- The frame whose main data a call reads, if it comes to that: the state, the header and the side information. -/
def mainDataFrame (y : Synthesis φ) (scratch : Mp3decScratch) (dec : Mp3Dec φ) (mp3 : Bytes) :
    Option (Mp3Dec φ × Bytes × SideInfo) :=
  let (dec, i, size) := locateFrame y dec mp3 mp3.length
  let hdr := (mp3.drop i).take hdrSize
  let bs := bsInit ((mp3.drop (i + hdrSize)).take (size - hdrSize)) (size - hdrSize)
  let bs := if hdrIsCrc hdr then (getBits bs 16).2 else bs
  if size = 0 ∨ 4 - hdrGetLayer hdr ≠ 3 then none
  else
    match l3ReadSideInfo bs scratch.grInfo hdr with
    | none => none
    | some si => if si.bs.limit < si.bs.pos then none else some ({ dec with header := hdr }, hdr, si)

/-- A call reads the main data of a frame, or leaves the reservoir as it found it. -/
theorem decodeFrame_main (y : Synthesis φ) (scratch : Mp3decScratch) (dec : Mp3Dec φ) (mp3 : Bytes)
    (info : Mp3decFrameInfo) (hheader : (locateFrame y dec mp3 mp3.length).1.header.length = hdrSize) :
    (∃ dec' hdr si, ∃ info', mainDataFrame y scratch dec mp3 = some (dec', hdr, si) ∧
        mp3decDecodeFrame y scratch dec mp3 mp3.length info = layer3Frame y scratch dec' hdr si info') ∨
      mainDataFrame y scratch dec mp3 = none ∧ ∃ s hdr, hdr.length = hdrSize ∧
        (mp3decDecodeFrame y scratch dec mp3 mp3.length info).dec =
          { (locateFrame y dec mp3 mp3.length).1 with
            synth := s
            header := hdr } := by
  have hhdr := @locateFrame_hdr _ y dec mp3 mp3.length
  simp only [mainDataFrame, mp3decDecodeFrame, decodeAt]
  generalize locateFrame y dec mp3 mp3.length = located at hheader hhdr ⊢
  obtain ⟨dec', i, size⟩ := located
  simp only at hheader hhdr ⊢
  by_cases hsize : size = 0
  · rw [if_pos (Or.inl hsize), if_pos hsize]
    exact Or.inr ⟨rfl, dec'.synth, dec'.header, hheader, rfl⟩
  · have hfour : ((mp3.drop i).take hdrSize).length = hdrSize := by
      have hfits := hhdr hsize
      rw [List.length_take, List.length_drop]
      omega
    have hreset : (0 :: ((mp3.drop i).take hdrSize).drop 1).length = hdrSize := by
      rw [List.length_cons, List.length_drop, hfour]
      rfl
    rw [if_neg hsize]
    generalize (if hdrIsCrc ((mp3.drop i).take hdrSize) then _ else _ : Bs) = bs
    by_cases hlayer : 4 - hdrGetLayer ((mp3.drop i).take hdrSize) = 3
    · have hinfo : (frameInfoAt ((mp3.drop i).take hdrSize) i size).layer = 3 := hlayer
      rw [if_neg (not_or.2 ⟨hsize, fun h => h hlayer⟩), if_pos hinfo]
      cases l3ReadSideInfo bs scratch.grInfo ((mp3.drop i).take hdrSize) with
      | none => exact Or.inr ⟨rfl, _, _, hreset, rfl⟩
      | some si =>
        simp only
        split
        · exact Or.inr ⟨rfl, _, _, hreset, rfl⟩
        · exact Or.inl ⟨_, _, _, _, rfl, rfl⟩
    · have hinfo : (frameInfoAt ((mp3.drop i).take hdrSize) i size).layer ≠ 3 := hlayer
      rw [if_pos (Or.inr hlayer), if_neg hinfo]
      split
      · exact Or.inr ⟨rfl, _, _, hfour, rfl⟩
      · exact Or.inr ⟨rfl, _, _, hreset, rfl⟩

theorem grCount_le (hdr : Bytes) : grCount hdr ≤ 4 := by
  rw [grCount]
  split <;> split <;> decide

/-- A protected frame begins with two bytes of checksum. -/
theorem crc_reader (hdr : Bytes) (bs : Bs) (hstart : bs.pos = 0) :
    8 ∣ (if hdrIsCrc hdr then 16 else 0) ∧
      (if hdrIsCrc hdr then (getBits bs 16).2 else bs) = { bs with pos := if hdrIsCrc hdr then 16 else 0 } := by
  split
  · rw [getBits_pair, hstart]
    exact ⟨by decide, rfl⟩
  · refine ⟨by decide, ?_⟩
    rw [← hstart]

theorem mainDataFrame_some {y : Synthesis φ} {scratch : Mp3decScratch}
    (hfree : dec.freeFormatBytes < maxFreeFormatFrameSize) {mp3 : Bytes} {dec' : Mp3Dec φ} {hdr : Bytes}
    {si : SideInfo} (h : mainDataFrame y scratch dec mp3 = some (dec', hdr, si)) :
    dec' = { (locateFrame y dec mp3 mp3.length).1 with header := hdr } ∧ hdr.length = hdrSize ∧ Fits si ∧
      si.mainDataBegin < 512 ∧ (payload si.bs).length ≤ maxL3FramePayloadBytes := by
  have hhdr := @locateFrame_hdr _ y dec mp3 mp3.length
  have hle := (locateFrame_bounds y dec mp3 mp3.length).1
  have hmax := @locateFrame_size_le _ dec y mp3 hfree
  simp only [mainDataFrame] at h
  generalize locateFrame y dec mp3 mp3.length = located at h hhdr hle hmax ⊢
  obtain ⟨found, i, size⟩ := located
  simp only at h hhdr hle hmax ⊢
  split at h
  · cases h
  · next hgo =>
    rw [not_or, Classical.not_not] at hgo
    split at h
    · cases h
    · next si' hread =>
      split at h
      · cases h
      · next hends =>
        cases h
        have hfits := hhdr hgo.1
        have hlength : ((mp3.drop (i + hdrSize)).take (size - hdrSize)).length = size - hdrSize := by
          rw [List.length_take, List.length_drop]
          omega
        obtain ⟨hpos, hbs⟩ := crc_reader ((mp3.drop i).take hdrSize)
          (bsInit ((mp3.drop (i + hdrSize)).take (size - hdrSize)) (size - hdrSize)) rfl
        rw [hbs] at hread
        have hgr : grCount ((mp3.drop i).take hdrSize) ≤ scratch.grInfo.length := by
          rw [scratch.length_grInfo]
          exact grCount_le _
        obtain ⟨hsi, hbegin, hbuf⟩ := fits_of_read hlength hpos hgr hread hends
        refine ⟨rfl, ?_, hsi, hbegin, ?_⟩
        · rw [List.length_take, List.length_drop]
          omega
        · have hlayer : hdrGetLayer (mp3.drop i) = 1 := by
            have htake : hdrGetLayer ((mp3.drop i).take hdrSize) = hdrGetLayer (mp3.drop i) := by
              rw [hdrGetLayer, hdrGetLayer, hdrByte_take (by decide)]
            omega
          have hmost := hmax hgo.1 hlayer
          rw [payload, List.length_drop, hbuf, hlength, maxL3FramePayloadBytes]
          omega

/-! ## Runs -/

/-- A use of the decoder: `cq_mp3dec_init`, or `cq_mp3dec_frame` on a buffer. -/
inductive DecoderCall where
  | init
  | frame (buf : Bytes)

/-- The decoder after a use. -/
def callDecoder (y : Synthesis φ) (info : Mp3decFrameInfo) (c : Mp3Calls φ) : DecoderCall → Option (Mp3Calls φ)
  | .init => some { c with dec := mp3decInit c.dec }
  | .frame buf => some (cqMp3decFrame (minimp3 y info) c buf).1

/-- The stream of main data. It begins anew where the decoder has to search for a frame. -/
def noteMain (y : Synthesis φ) (stream : Bytes) (c : Mp3Calls φ) : DecoderCall → Bytes
  | .init => stream
  | .frame buf =>
      if buf = [] then stream
      else
        (if lockedSize c.dec buf buf.length = 0 then [] else stream) ++
          match mainDataFrame y (c.scratch 0) c.dec buf with
          | none => []
          | some (_, _, si) => payload si.bs

/-- The state is valid, and its reservoir the end of the stream. -/
def Follows (dec : Mp3Dec φ) (stream : Bytes) : Prop := ∃ h : dec.Valid, h.window.IsTail stream

/-- A new state has kept nothing. -/
theorem follows_zeroed (y : Synthesis φ) (stream : Bytes) {freeFormatBytes : Nat}
    (h : freeFormatBytes < maxFreeFormatFrameSize) :
    Follows { zeroed y with freeFormatBytes := freeFormatBytes } stream :=
  ⟨⟨Int.le_refl _, Int.natCast_nonneg _, List.length_replicate, List.length_replicate, h⟩, List.nil_suffix⟩

/-- The state in which a call reads its frame. -/
theorem Follows.locate {y : Synthesis φ} {stream : Bytes} (h : Follows dec stream) (mp3 : Bytes) :
    Follows (locateFrame y dec mp3 mp3.length).1 (if lockedSize dec mp3 mp3.length = 0 then [] else stream) := by
  rw [locateFrame_dec]
  split
  · exact follows_zeroed y [] (findFrame_free mp3 mp3.length).1
  · exact h

/-- The header and the synthesis are not part of it. -/
theorem Follows.header {stream : Bytes} (h : Follows dec stream) (s : φ) {hdr : Bytes} (hhdr : hdr.length = hdrSize) :
    Follows { dec with synth := s, header := hdr } stream := by
  obtain ⟨hvalid, htail⟩ := h
  exact ⟨⟨hvalid.reserv_nonneg, hvalid.reserv_le, hvalid.length_reservBuf, hhdr, hvalid.freeFormatBytes_lt⟩, htail⟩

/-- A frame moves the reservoir along the stream. -/
theorem Follows.layer3Frame {stream : Bytes} (h : Follows dec stream) (y : Synthesis φ) (scratch : Mp3decScratch)
    (hdr : Bytes) {si : SideInfo} (hsi : Fits si) (info : Mp3decFrameInfo) :
    Follows (layer3Frame y scratch dec hdr si info).dec (stream ++ payload si.bs) := by
  obtain ⟨hvalid, htail⟩ := h
  obtain ⟨hout, hframe⟩ := hvalid.layer3Frame y scratch hdr hsi info
  refine ⟨hout, ?_⟩
  split at hframe
  · rw [hframe.2.2]
    exact htail.slide _ _ _
  · rw [hframe.2.2]
    exact htail.slide _ _ _

theorem Follows.step {y : Synthesis φ} {info : Mp3decFrameInfo} {stream : Bytes} {c c' : Mp3Calls φ}
    (h : Follows c.dec stream) (call : DecoderCall) (hcall : callDecoder y info c call = some c') :
    Follows c'.dec (noteMain y stream c call) := by
  cases call with
  | init =>
      cases hcall
      refine h.header c.dec.synth ?_
      obtain ⟨hvalid, -⟩ := h
      rw [List.length_cons, List.length_drop, hvalid.length_header]
      rfl
  | frame buf =>
      cases hcall
      rw [noteMain]
      split
      · next hnil =>
        rw [hnil]
        exact h
      · next hne =>
        have hlocated := h.locate (y := y) buf
        rw [cqMp3decFrame, if_neg fun hzero => hne (List.length_eq_zero_iff.1 hzero)]
        show Follows (mp3decDecodeFrame y (c.scratch 0) c.dec buf buf.length info).dec _
        rcases decodeFrame_main y (c.scratch 0) c.dec buf info hlocated.1.length_header with
          ⟨dec', hdr, si, info', hmain, hout⟩ | ⟨hmain, s, hdr, hhdr, hout⟩
        · rw [hmain, hout]
          obtain ⟨rfl, hhdr, hsi, -⟩ := mainDataFrame_some h.1.freeFormatBytes_lt hmain
          exact (hlocated.header _ hhdr).layer3Frame y (c.scratch 0) hdr hsi info'
        · rw [hmain, hout, List.append_nil]
          exact hlocated.header s hhdr

/-- **In every run of calls** the state is valid, and the reservoir holds the end of the stream of main data. -/
theorem follows_of_run {y : Synthesis φ} {info : Mp3decFrameInfo} {scratch : Nat → Mp3decScratch}
    {calls : List DecoderCall} {x : Traced (Mp3Calls φ) Bytes}
    (h : run (traced (callDecoder y info) (noteMain y)) ⟨⟨zeroed y, scratch⟩, []⟩ calls = some x) :
    Follows x.state.dec x.log := by
  have hstart : Follows (zeroed y) [] := follows_zeroed y [] (by decide)
  refine run_invariant (fun x => Follows x.state.dec x.log) ?_ hstart h
  intro x call x' hx hstep
  obtain ⟨c', hc', rfl⟩ := Option.map_eq_some_iff.1 hstep
  exact hx.step call hc'

/-- The shortest frame: 24 bytes, of which `data` are 11. The main data begins `back` bytes before them, and its granule
takes 20 bits. -/
def backedFrame (back : UInt8) (data : Bytes) : Bytes :=
  [0xFF, 0xF3, 0x14, 0xC0, back, 0, 0xA0] ++ List.replicate 6 0 ++ data

/-- The decoder behind a first frame. -/
def behindFrame : Traced (Mp3Calls Unit) Bytes :=
  (run (traced (callDecoder silentSynthesis ⟨0, 0, 0, 0, 0, 0⟩) (noteMain silentSynthesis))
    ⟨⟨zeroed silentSynthesis, fun _ => clearScratch⟩, []⟩
    [.frame (backedFrame 0 [1, 2, 3, 4, 5, 6, 7, 8, 9, 10, 11])]).get (by decide +kernel)

/-- A second frame, which reaches back into the first. -/
def backedSecond : Bytes := backedFrame 5 [21, 22, 23, 24, 25, 26, 27, 28, 29, 30, 31]

/-- **Main data across frames.** A call in any run that reads the main data of a frame decodes it if and only if it
begins in the reservoir. What it decodes then is the end of the stream: as many bytes as the side information says
from the frames before, and all of the frame's own. Of that it keeps what is behind the granules, 511 bytes at most;
of a frame that it does not decode, the end of all it has. -/
theorem mainData_of_run {y : Synthesis φ} {info : Mp3decFrameInfo} {scratch : Nat → Mp3decScratch}
    {calls : List DecoderCall} {x : Traced (Mp3Calls φ) Bytes} {buf : Bytes} {dec' : Mp3Dec φ} {hdr : Bytes}
    {si : SideInfo}
    (h : run (traced (callDecoder y info) (noteMain y)) ⟨⟨zeroed y, scratch⟩, []⟩ calls = some x) (hne : buf ≠ [])
    (hmain : mainDataFrame y (x.state.scratch 0) x.state.dec buf = some (dec', hdr, si)) :
    dec'.reserv = (if lockedSize x.state.dec buf buf.length = 0 then 0 else x.state.dec.reserv) ∧
      if si.mainDataBegin ≤ dec'.reserv then
        let main := (noteMain y x.log x.state (.frame buf)).rtake (si.mainDataBegin + (payload si.bs).length)
        (cqMp3decFrame (minimp3 y info) x.state buf).2.samples = hdrFrameSamples hdr ∧
          (cqMp3decFrame (minimp3 y info) x.state buf).2.pcm =
            (y.layer3 (x.state.scratch 0) dec'.synth hdr si.gr main).2 ∧
          (cqMp3decFrame (minimp3 y info) x.state buf).1.dec.reserv =
            min maxBitreservoirBytes (si.mainDataBegin + (payload si.bs).length - (part23Sum si.gr + 7) / 8) ∧
          (cqMp3decFrame (minimp3 y info) x.state buf).1.dec.kept =
            (main.drop ((part23Sum si.gr + 7) / 8)).rtake maxBitreservoirBytes
      else
        (cqMp3decFrame (minimp3 y info) x.state buf).2.samples = 0 ∧
          (cqMp3decFrame (minimp3 y info) x.state buf).2.pcm = [] ∧
          (cqMp3decFrame (minimp3 y info) x.state buf).1.dec.reserv =
            min (maxBitreservoirBytes : Int) (dec'.reserv + (payload si.bs).length) ∧
          (cqMp3decFrame (minimp3 y info) x.state buf).1.dec.kept =
            (dec'.kept ++ payload si.bs).rtake maxBitreservoirBytes := by
  have hfollows := follows_of_run h
  have hlocated := hfollows.locate (y := y) buf
  obtain ⟨hdec, hhdr, hsi, -⟩ := mainDataFrame_some hfollows.1.freeFormatBytes_lt hmain
  have hreserv : dec'.reserv = if lockedSize x.state.dec buf buf.length = 0 then 0 else x.state.dec.reserv := by
    rw [hdec, locateFrame_dec]
    split <;> rfl
  refine ⟨hreserv, ?_⟩
  have hstream : noteMain y x.log x.state (.frame buf) =
      (if lockedSize x.state.dec buf buf.length = 0 then [] else x.log) ++ payload si.bs := by
    rw [noteMain, if_neg hne, hmain]
  obtain ⟨hvalid, htail⟩ : Follows dec' (if lockedSize x.state.dec buf buf.length = 0 then [] else x.log) := by
    rw [hdec]
    exact hlocated.header _ hhdr
  rw [hstream, cqMp3decFrame, if_neg fun hzero => hne (List.length_eq_zero_iff.1 hzero)]
  simp only [minimp3]
  rcases decodeFrame_main y (x.state.scratch 0) x.state.dec buf info hlocated.1.length_header with
    ⟨d, hdr', si', info', hmain', hout⟩ | ⟨hnone, -⟩
  · rw [hmain] at hmain'
    cases hmain'
    obtain ⟨hvalid', hframe⟩ := hvalid.layer3Frame y (x.state.scratch 0) hdr hsi info'
    have hlength := hvalid.length_window
    have hlength' := hvalid'.length_window
    have hview := Window.length_view hvalid.window si.mainDataBegin (payload si.bs)
    simp only [hout]
    split at hframe
    · next hback =>
      obtain ⟨hsamples, hpcm, hwindow⟩ := hframe
      rw [if_pos (by omega), ← htail.view_eq hback]
      refine ⟨by rw [hsamples], hpcm, ?_, ?_⟩
      · rw [← hlength', hwindow, Window.length_slide, hview]
        omega
      · rw [← hvalid'.held_window, hwindow, Window.held_slide]
    · next hback =>
      obtain ⟨hsamples, hpcm, hwindow⟩ := hframe
      rw [if_neg (by omega)]
      refine ⟨by rw [hsamples]; rfl, hpcm, ?_, ?_⟩
      · rw [← hlength', hwindow, Window.length_slide, hview]
        omega
      · -- the main data is all that is held
        have hall : hvalid.window.held.rtake si.mainDataBegin = hvalid.window.held := by
          rw [List.rtake, Nat.sub_eq_zero_of_le (Nat.le_of_not_le hback), List.drop_zero]
        rw [← hvalid'.held_window, hwindow, Window.held_slide, Window.view, hall, hvalid.held_window, List.drop_zero]
  · rw [hmain] at hnone
    cases hnone

theorem mainData_of_run_short :
    ∃ dec' hdr si,
      mainDataFrame silentSynthesis (behindFrame.state.scratch 0) behindFrame.state.dec backedSecond =
          some (dec', hdr, si) ∧ dec'.reserv = 8 ∧ si.mainDataBegin = 5 ∧
        (cqMp3decFrame (minimp3 silentSynthesis ⟨0, 0, 0, 0, 0, 0⟩) behindFrame.state backedSecond).2.samples =
          hdrFrameSamples hdr ∧
        (cqMp3decFrame (minimp3 silentSynthesis ⟨0, 0, 0, 0, 0, 0⟩) behindFrame.state backedSecond).1.dec.kept =
          [10, 11, 21, 22, 23, 24, 25, 26, 27, 28, 29, 30, 31] := by
  have hread : (mainDataFrame silentSynthesis (behindFrame.state.scratch 0) behindFrame.state.dec backedSecond).map
      (fun r => (r.1.reserv, r.2.2.mainDataBegin, part23Sum r.2.2.gr, payload r.2.2.bs)) =
        some (8, 5, 20, [21, 22, 23, 24, 25, 26, 27, 28, 29, 30, 31]) := by decide +kernel
  obtain ⟨⟨dec', hdr, si⟩, hmain, hvalues⟩ := Option.map_eq_some_iff.1 hread
  simp only [Prod.mk.injEq] at hvalues
  obtain ⟨hreserv, hbegin, hsum, hpayload⟩ := hvalues
  have hstream : noteMain silentSynthesis behindFrame.log behindFrame.state (.frame backedSecond) =
      [1, 2, 3, 4, 5, 6, 7, 8, 9, 10, 11, 21, 22, 23, 24, 25, 26, 27, 28, 29, 30, 31] := by decide +kernel
  have hrun : run _ _ _ = some behindFrame := (Option.some_get _).symm
  obtain ⟨-, hframe⟩ := mainData_of_run hrun (by decide) hmain
  rw [hreserv, hbegin, if_pos (by decide)] at hframe
  obtain ⟨hsamples, -, -, hkept⟩ := hframe
  rw [hstream, hpayload, hsum] at hkept
  exact ⟨dec', hdr, si, hmain, hreserv, hbegin, hsamples, hkept.trans (by decide)⟩

/-! ## The copies -/

/-- The two copies of `L3_restore_reservoir` have a length, and stay within `reserv_buf`, the frame and `maindata`. -/
structure RestoreFits (dec : Mp3Dec φ) (bs : Bs) (mainDataBegin : Nat) : Prop where
  bytesHave_nonneg : 0 ≤ min dec.reserv mainDataBegin
  reservBuf_le : max 0 (dec.reserv - mainDataBegin) + min dec.reserv mainDataBegin ≤ maxBitreservoirBytes
  frameBytes_nonneg : 0 ≤ (bs.limit - bs.pos).tdiv 8
  frame_le : ↑(bs.pos / 8) + (bs.limit - bs.pos).tdiv 8 ≤ bs.buf.length
  maindata_le : min dec.reserv mainDataBegin + (bs.limit - bs.pos).tdiv 8 ≤ maindataBytes

/-- The copy of `L3_save_reservoir` has a length, and stays within `maindata` and `reserv_buf`. -/
structure SaveFits (bs : Bs) : Prop where
  remains_nonneg : 0 ≤ bs.limit / 8 - ((bs.pos + 7) / 8 : Nat)
  maindata_le : bs.limit / 8 ≤ maindataBytes

/-- The reader of the main data behind the granules, or at its start when it is not complete. -/
def mainDataLeft (dec : Mp3Dec φ) (si : SideInfo) : Bs :=
  let (bs, success) := l3RestoreReservoir dec si.bs si.mainDataBegin
  if success then { bs with pos := l3DecodePos si.gr bs.pos } else bs

theorem Mp3Dec.Valid.restoreFits (h : dec.Valid) {bs : Bs} (hbs : OnByte bs) (mainDataBegin : Nat)
    (hpayload : (payload bs).length ≤ maxL3FramePayloadBytes) : RestoreFits dec bs mainDataBegin := by
  have hlen := hbs.length_payload
  have hlimit := hbs.limit_eq
  have hnonneg := h.reserv_nonneg
  have hle := h.reserv_le
  have hframe : (bs.limit - bs.pos).tdiv 8 = (payload bs).length := by
    rw [hlimit, show (8 * bs.buf.length - bs.pos : Int) = (payload bs).length * 8 by omega]
    exact Int.mul_tdiv_cancel _ (by decide)
  have hmost : maindataBytes = maxBitreservoirBytes + maxL3FramePayloadBytes := rfl
  exact
    { bytesHave_nonneg := by omega
      reservBuf_le := by omega
      frameBytes_nonneg := by omega
      frame_le := by omega
      maindata_le := by omega }

theorem saveFits_of_le {buf : Bytes} {pos : Nat} (hpos : pos ≤ 8 * buf.length) (hbuf : buf.length ≤ maindataBytes) :
    SaveFits ⟨buf, pos, buf.length * 8⟩ := by
  refine ⟨?_, ?_⟩
  · show 0 ≤ (buf.length * 8 : Int) / 8 - ((pos + 7) / 8 : Nat)
    omega
  · show (buf.length * 8 : Int) / 8 ≤ maindataBytes
    omega

theorem Mp3Dec.Valid.saveFits (h : dec.Valid) {si : SideInfo} (hsi : Fits si)
    (hpayload : (payload si.bs).length ≤ maxL3FramePayloadBytes) : SaveFits (mainDataLeft dec si) := by
  have hview := Window.length_view h.window si.mainDataBegin (payload si.bs)
  have hsum := hsi.part23Sum_le
  have hheld := h.window.length_le
  have hmost : maindataBytes = maxBitreservoirBytes + maxL3FramePayloadBytes := rfl
  rw [mainDataLeft, h.restore hsi.onByte si.mainDataBegin]
  by_cases hback : si.mainDataBegin ≤ h.window.held.length
  · simp only [hback, decide_true, if_true, l3DecodePos_eq, bsInit, Nat.zero_add]
    exact saveFits_of_le (by omega) (by omega)
  · simp only [hback, decide_false, Bool.false_eq_true, if_false, bsInit]
    exact saveFits_of_le (Nat.zero_le _) (by omega)

/-- **Every copy fits**: whatever the calls of a run were given, and whatever the next one is given, no copy of the
main data or of the reservoir is of negative length or leaves its arrays. -/
theorem copies_fit_of_run {y : Synthesis φ} {info : Mp3decFrameInfo} {scratch : Nat → Mp3decScratch}
    {calls : List DecoderCall} {x : Traced (Mp3Calls φ) Bytes} {buf : Bytes} {dec' : Mp3Dec φ} {hdr : Bytes}
    {si : SideInfo}
    (h : run (traced (callDecoder y info) (noteMain y)) ⟨⟨zeroed y, scratch⟩, []⟩ calls = some x)
    (hmain : mainDataFrame y (x.state.scratch 0) x.state.dec buf = some (dec', hdr, si)) :
    RestoreFits dec' si.bs si.mainDataBegin ∧ SaveFits (mainDataLeft dec' si) := by
  have hfollows := follows_of_run h
  obtain ⟨hdec, hhdr, hsi, -, hpayload⟩ := mainDataFrame_some hfollows.1.freeFormatBytes_lt hmain
  obtain ⟨hvalid, -⟩ := (hfollows.locate (y := y) buf).header (locateFrame y x.state.dec buf buf.length).1.synth hhdr
  rw [← hdec] at hvalid
  exact ⟨hvalid.restoreFits hsi.onByte _ hpayload, hvalid.saveFits hsi hpayload⟩

theorem copies_fit_of_run_short :
    ∃ dec' hdr si,
      mainDataFrame silentSynthesis (behindFrame.state.scratch 0) behindFrame.state.dec backedSecond =
          some (dec', hdr, si) ∧
        RestoreFits dec' si.bs si.mainDataBegin ∧ SaveFits (mainDataLeft dec' si) := by
  have hsome : (mainDataFrame silentSynthesis (behindFrame.state.scratch 0) behindFrame.state.dec
      backedSecond).isSome := by decide +kernel
  obtain ⟨⟨dec', hdr, si⟩, hmain⟩ := Option.isSome_iff_exists.1 hsome
  exact ⟨dec', hdr, si, hmain, copies_fit_of_run (Option.some_get _).symm hmain⟩

end Casquinha.Decode
