import Casquinha.Decode.Bits
import Casquinha.Decode.Mp3
import Mathlib.Tactic.IntervalCases

/-!
# Frame headers of the decoder (`src/minimp3.h`)

The decoder reads a header with macros of its own. It accepts all three layers and the free format, and it
takes the frame length from a table of half bitrates.

`cq_mp3.c` and the decoder agree: what `cqMp3Parse` accepts are the valid Layer III headers with a bitrate,
and the frame it describes is the one the decoder sees (`cqMp3Parse_eq_some_iff`). Two such headers are
coherent when the decoder takes them for headers of one stream (`coherent_iff_hdrCompare`).
-/

set_option autoImplicit false

namespace Casquinha.Decode

open Lib

/-- `HDR_SIZE`. -/
def hdrSize : Nat := 4

/-- `h[i]`. -/
def hdrByte (h : Bytes) (i : Nat) : UInt8 := h.getD i 0

/-- `HDR_IS_MONO`. -/
def hdrIsMono (h : Bytes) : Bool := hdrByte h 3 &&& 0xC0 == 0xC0

/-- `HDR_IS_FREE_FORMAT`. -/
def hdrIsFreeFormat (h : Bytes) : Bool := hdrByte h 2 &&& 0xF0 == 0

/-- `HDR_IS_CRC`. -/
def hdrIsCrc (h : Bytes) : Bool := hdrByte h 1 &&& 1 == 0

/-- `HDR_TEST_PADDING`. -/
def hdrTestPadding (h : Bytes) : Bool := hdrByte h 2 &&& 0x2 != 0

/-- `HDR_TEST_MPEG1`. -/
def hdrTestMpeg1 (h : Bytes) : Bool := hdrByte h 1 &&& 0x8 != 0

/-- `HDR_TEST_NOT_MPEG25`. -/
def hdrTestNotMpeg25 (h : Bytes) : Bool := hdrByte h 1 &&& 0x10 != 0

/-- `HDR_GET_LAYER`: 1 is Layer III. -/
def hdrGetLayer (h : Bytes) : Nat := ((hdrByte h 1 >>> 1) &&& 3).toNat

/-- `HDR_GET_BITRATE`. -/
def hdrGetBitrate (h : Bytes) : Nat := (hdrByte h 2 >>> 4).toNat

/-- `HDR_GET_SAMPLE_RATE`. -/
def hdrGetSampleRate (h : Bytes) : Nat := ((hdrByte h 2 >>> 2) &&& 3).toNat

/-- `HDR_GET_MY_SAMPLE_RATE`. -/
def hdrGetMySampleRate (h : Bytes) : Nat :=
  hdrGetSampleRate h + (((hdrByte h 1 >>> 3) &&& 1).toNat + ((hdrByte h 1 >>> 4) &&& 1).toNat) * 3

/-- `HDR_IS_FRAME_576`. -/
def hdrIsFrame576 (h : Bytes) : Bool := hdrByte h 1 &&& 14 == 2

/-- `HDR_IS_LAYER_1`. -/
def hdrIsLayer1 (h : Bytes) : Bool := hdrByte h 1 &&& 6 == 6

/-- `hdr_valid`. -/
def hdrValid (h : Bytes) : Bool :=
  hdrByte h 0 == 0xFF && (hdrByte h 1 &&& 0xF0 == 0xF0 || hdrByte h 1 &&& 0xFE == 0xE2) &&
    hdrGetLayer h != 0 && hdrGetBitrate h != 15 && hdrGetSampleRate h != 3

/-- `hdr_compare`. The protection bit, the bitrate, the padding and the channel mode may differ. -/
def hdrCompare (h1 h2 : Bytes) : Bool :=
  hdrValid h2 && (hdrByte h1 1 ^^^ hdrByte h2 1) &&& 0xFE == 0 &&
    (hdrByte h1 2 ^^^ hdrByte h2 2) &&& 0x0C == 0 && !(hdrIsFreeFormat h1 ^^ hdrIsFreeFormat h2)

/-- `halfrate`: the rows are Layers III, II and I, of MPEG 2 and then of MPEG 1. -/
def halfrate : List (List (List Nat)) :=
  [[[0, 4, 8, 12, 16, 20, 24, 28, 32, 40, 48, 56, 64, 72, 80],
      [0, 4, 8, 12, 16, 20, 24, 28, 32, 40, 48, 56, 64, 72, 80],
      [0, 16, 24, 28, 32, 40, 48, 56, 64, 72, 80, 88, 96, 112, 128]],
    [[0, 16, 20, 24, 28, 32, 40, 48, 56, 64, 80, 96, 112, 128, 160],
      [0, 16, 24, 28, 32, 40, 48, 56, 64, 80, 96, 112, 128, 160, 192],
      [0, 16, 32, 48, 64, 80, 96, 112, 128, 144, 160, 176, 192, 208, 224]]]

/-- `hdr_bitrate_kbps`. -/
def hdrBitrateKbps (h : Bytes) : Nat :=
  2 * (((halfrate.getD (hdrTestMpeg1 h).toNat []).getD (hdrGetLayer h - 1) []).getD (hdrGetBitrate h) 0)

/-- `g_hz`. -/
def gHz : List Nat := [44100, 48000, 32000]

/-- `hdr_sample_rate_hz`. -/
def hdrSampleRateHz (h : Bytes) : Nat :=
  gHz.getD (hdrGetSampleRate h) 0 >>> (!hdrTestMpeg1 h).toNat >>> (!hdrTestNotMpeg25 h).toNat

/-- `hdr_frame_samples`. -/
def hdrFrameSamples (h : Bytes) : Nat :=
  if hdrIsLayer1 h then 384 else 1152 >>> (hdrIsFrame576 h).toNat

/-- `hdr_frame_bytes`. -/
def hdrFrameBytes (h : Bytes) (freeFormatSize : Nat) : Nat :=
  let bytes := hdrFrameSamples h * hdrBitrateKbps h * 125 / hdrSampleRateHz h
  -- Layer I frames are slot aligned
  let frameBytes := if hdrIsLayer1 h then bytes / 4 * 4 else bytes
  if frameBytes ≠ 0 then frameBytes else freeFormatSize

/-- `hdr_padding`. -/
def hdrPadding (h : Bytes) : Nat :=
  if hdrTestPadding h then if hdrIsLayer1 h then 4 else 1 else 0

/-! ## Four bytes -/

theorem hdrByte_take {h : Bytes} {n i : Nat} (hi : i < n) : hdrByte (h.take n) i = hdrByte h i := by
  rw [hdrByte, hdrByte, List.getD_eq_getElem?_getD, List.getD_eq_getElem?_getD, List.getElem?_take_of_lt hi]

/-- What is read off the first four bytes does not depend on what follows them. -/
theorem append_of_take {α : Type} {r : Bytes → α} (hr : ∀ h, r (h.take 4) = r h) {h : Bytes} (more : Bytes)
    (hh : 4 ≤ h.length) : r (h ++ more) = r h := by
  rw [← hr, List.take_append_of_le_length hh, hr]

theorem hdrValid_take (h : Bytes) : hdrValid (h.take 4) = hdrValid h := by
  simp only [hdrValid, hdrGetLayer, hdrGetBitrate, hdrGetSampleRate, hdrByte_take (show 0 < 4 by decide),
    hdrByte_take (show 1 < 4 by decide), hdrByte_take (show 2 < 4 by decide)]

theorem hdrCompare_take_left (h1 h2 : Bytes) : hdrCompare (h1.take 4) h2 = hdrCompare h1 h2 := by
  simp only [hdrCompare, hdrIsFreeFormat, hdrByte_take (show 1 < 4 by decide),
    hdrByte_take (show 2 < 4 by decide)]

theorem hdrCompare_take_right (h1 h2 : Bytes) : hdrCompare h1 (h2.take 4) = hdrCompare h1 h2 := by
  simp only [hdrCompare, hdrValid_take, hdrIsFreeFormat, hdrByte_take (show 1 < 4 by decide),
    hdrByte_take (show 2 < 4 by decide)]

theorem hdrIsLayer1_take (h : Bytes) : hdrIsLayer1 (h.take 4) = hdrIsLayer1 h := by
  rw [hdrIsLayer1, hdrByte_take (by decide), hdrIsLayer1]

theorem hdrTestPadding_take (h : Bytes) : hdrTestPadding (h.take 4) = hdrTestPadding h := by
  rw [hdrTestPadding, hdrByte_take (by decide), hdrTestPadding]

theorem hdrFrameSamples_take (h : Bytes) : hdrFrameSamples (h.take 4) = hdrFrameSamples h := by
  have h576 : hdrIsFrame576 (h.take 4) = hdrIsFrame576 h := by
    rw [hdrIsFrame576, hdrByte_take (by decide), hdrIsFrame576]
  rw [hdrFrameSamples, hdrIsLayer1_take, h576, hdrFrameSamples]

theorem hdrFrameBytes_take (h : Bytes) (freeFormatSize : Nat) :
    hdrFrameBytes (h.take 4) freeFormatSize = hdrFrameBytes h freeFormatSize := by
  have hrate : hdrSampleRateHz (h.take 4) = hdrSampleRateHz h := by
    simp only [hdrSampleRateHz, hdrTestMpeg1, hdrTestNotMpeg25, hdrGetSampleRate,
      hdrByte_take (show 1 < 4 by decide), hdrByte_take (show 2 < 4 by decide)]
  have hbitrate : hdrBitrateKbps (h.take 4) = hdrBitrateKbps h := by
    simp only [hdrBitrateKbps, hdrTestMpeg1, hdrGetLayer, hdrGetBitrate, hdrByte_take (show 1 < 4 by decide),
      hdrByte_take (show 2 < 4 by decide)]
  rw [hdrFrameBytes, hdrFrameSamples_take, hbitrate, hrate, hdrIsLayer1_take, hdrFrameBytes]

theorem hdrPadding_take (h : Bytes) : hdrPadding (h.take 4) = hdrPadding h := by
  rw [hdrPadding, hdrTestPadding_take, hdrIsLayer1_take, hdrPadding]

theorem hdrValid_append {h : Bytes} (more : Bytes) (hh : 4 ≤ h.length) : hdrValid (h ++ more) = hdrValid h :=
  append_of_take hdrValid_take more hh

theorem hdrCompare_append {h1 h2 : Bytes} (more more' : Bytes) (hh1 : 4 ≤ h1.length) (hh2 : 4 ≤ h2.length) :
    hdrCompare (h1 ++ more) (h2 ++ more') = hdrCompare h1 h2 :=
  (append_of_take (r := fun h => hdrCompare h _) (fun h => hdrCompare_take_left h _) more hh1).trans
    (append_of_take (fun h => hdrCompare_take_right _ h) more' hh2)

theorem hdrFrameBytes_append {h : Bytes} (more : Bytes) (freeFormatSize : Nat) (hh : 4 ≤ h.length) :
    hdrFrameBytes (h ++ more) freeFormatSize = hdrFrameBytes h freeFormatSize :=
  append_of_take (r := fun h => hdrFrameBytes h freeFormatSize) (fun h => hdrFrameBytes_take h _) more hh

theorem hdrPadding_append {h : Bytes} (more : Bytes) (hh : 4 ≤ h.length) : hdrPadding (h ++ more) = hdrPadding h :=
  append_of_take hdrPadding_take more hh

/-! ## Agreement with `cq_mp3.c` -/

/-- The version a header names, as `cq_mp3_parse` writes it. -/
def hdrVersion (h : Bytes) : Nat := if hdrTestMpeg1 h then 1 else if hdrTestNotMpeg25 h then 2 else 25

/-- The frame a header describes, in the decoder's terms. -/
def hdrFrame (h : Bytes) : CqMp3Frame :=
  { version := hdrVersion h
    bitrateKbps := hdrBitrateKbps h
    samplerate := hdrSampleRateHz h
    channels := if hdrIsMono h then 1 else 2
    samples := hdrFrameSamples h
    frameBytes := hdrFrameBytes h 0 + hdrPadding h }

/-- A valid Layer III header with a bitrate of its own. -/
def hdrLayer3 (h : Bytes) : Bool := hdrValid h && hdrGetLayer h == 1 && !hdrIsFreeFormat h

/-- A fact about bytes is checked byte by byte. -/
theorem forall_byte {P : UInt8 → Prop} (h : ∀ i : Fin 256, P (UInt8.ofFin i)) (b : UInt8) : P b := h b.toFin

/-- What the version and layer byte says. -/
theorem byte1_facts : ∀ b : UInt8, ((b >>> 1) &&& 3).toNat = 1 →
    ((b &&& 0xF0 == 0xF0 || b &&& 0xFE == 0xE2) = true ↔ b &&& 0xE0 = 0xE0 ∧ ((b >>> 3) &&& 3).toNat ≠ 1) ∧
      (((b >>> 3) &&& 3).toNat ≠ 1 →
        (if ((b >>> 3) &&& 3).toNat = 3 then 1 else if ((b >>> 3) &&& 3).toNat = 2 then 2 else 25) =
          if b &&& 0x8 != 0 then 1 else if b &&& 0x10 != 0 then 2 else 25) ∧
      (b &&& 0x8 != 0 → b &&& 0x10 != 0 ∨ ((b >>> 3) &&& 3).toNat = 1) ∧
      (b &&& 14 == 2) = !(b &&& 0x8 != 0) ∧ (b &&& 6 == 6) = false := by
  exact forall_byte (by decide +kernel)

/-- What the bitrate, sample rate and padding byte says. -/
theorem byte2_facts : ∀ b : UInt8,
    ((b >>> 4) &&& 0x0F).toNat = (b >>> 4).toNat ∧ (b >>> 4).toNat < 16 ∧
      ((b &&& 0xF0 == 0) = true ↔ (b >>> 4).toNat = 0) ∧ ((b >>> 2) &&& 3).toNat < 4 ∧
      ((b >>> 1) &&& 1).toNat = if b &&& 0x2 != 0 then 1 else 0 := by
  exact forall_byte (by decide +kernel)

theorem byte3_facts : ∀ b : UInt8, ((b >>> 6) &&& 3).toNat = 3 ↔ (b &&& 0xC0 == 0xC0) = true := by
  exact forall_byte (by decide +kernel)

/-- The bitrate tables of the two modules are the same. -/
theorem bitrates_agree : ∀ m : Bool, ∀ i < 15,
    2 * (((halfrate.getD m.toNat []).getD 0 []).getD i 0) = (if m then kBitV1 else kBitV2).getD i 0 := by
  decide

/-- The sample rate of a version, by its index. -/
def rateOf (version ridx : Nat) : Nat :=
  if version = 2 then kRate.getD ridx 0 / 2 else if version = 25 then kRate.getD ridx 0 / 4 else kRate.getD ridx 0

/-- With a bitrate and a sample rate, the indices describe a frame. -/
theorem headerFrame_eq {version bidx ridx pad mode : Nat} (hversion : version = 1 ∨ version = 2 ∨ version = 25)
    (hridx : ridx < 3) (hb : 8 ≤ (if version = 1 then kBitV1 else kBitV2).getD bidx 0) :
    headerFrame version bidx ridx pad mode = some
      { version := version
        bitrateKbps := (if version = 1 then kBitV1 else kBitV2).getD bidx 0
        samplerate := rateOf version ridx
        channels := if mode = 3 then 1 else 2
        samples := if version = 1 then 1152 else 576
        frameBytes := (if version = 1 then 1152 else 576) *
          (if version = 1 then kBitV1 else kBitV2).getD bidx 0 * 125 / rateOf version ridx + pad } := by
  have hrate : kRate.getD ridx 0 ≠ 0 ∧ 24 ≤ (if version = 1 then 1152 else 576) * 8 * 125 / rateOf version ridx := by
    rcases hversion with rfl | rfl | rfl <;> interval_cases ridx <;> decide
  rw [headerFrame]
  generalize (if version = 1 then kBitV1 else kBitV2).getD bidx 0 = bitrate at hb ⊢
  generalize hsamples : (if version = 1 then 1152 else 576) = samples at hrate ⊢
  have heighth : samples / 8 * (bitrate * 1000) = samples * bitrate * 125 := by
    rw [← hsamples]
    split
    · ring
    · ring
  have hfour : 24 ≤ samples * bitrate * 125 / rateOf version ridx :=
    hrate.2.trans (Nat.div_le_div_right (Nat.mul_le_mul_right 125 (Nat.mul_le_mul_left samples hb)))
  simp only [heighth]
  rw [if_neg (by omega), if_neg (by rw [← rateOf]; omega)]
  rfl

/-- Without a bitrate or without a sample rate there is no frame. -/
theorem headerFrame_none {version bidx ridx pad mode : Nat} (h : bidx = 0 ∨ bidx = 15 ∨ ridx = 3) :
    headerFrame version bidx ridx pad mode = none := by
  have hzero : (if version = 1 then kBitV1 else kBitV2).getD bidx 0 = 0 ∨ kRate.getD ridx 0 = 0 := by
    rcases h with rfl | rfl | rfl
    · left
      split <;> rfl
    · left
      split <;> rfl
    · exact Or.inr rfl
  rw [headerFrame, if_pos hzero]

/-- What makes four bytes a Layer III header. -/
theorem hdrLayer3_iff (p0 p1 p2 p3 : UInt8) (p : Bytes) : hdrLayer3 (p0 :: p1 :: p2 :: p3 :: p) = true ↔
    p0 = 0xFF ∧ (p1 &&& 0xE0 = 0xE0 ∧ ((p1 >>> 3) &&& 3).toNat ≠ 1) ∧ ((p1 >>> 1) &&& 3).toNat = 1 ∧
      (p2 >>> 4).toNat ≠ 0 ∧ (p2 >>> 4).toNat ≠ 15 ∧ ((p2 >>> 2) &&& 3).toNat ≠ 3 := by
  obtain ⟨-, -, hfree, -, -⟩ := byte2_facts p2
  have hbytes : hdrByte (p0 :: p1 :: p2 :: p3 :: p) 0 = p0 ∧ hdrByte (p0 :: p1 :: p2 :: p3 :: p) 1 = p1 ∧
      hdrByte (p0 :: p1 :: p2 :: p3 :: p) 2 = p2 := ⟨rfl, rfl, rfl⟩
  simp only [hdrLayer3, hdrValid, hdrGetLayer, hdrGetBitrate, hdrGetSampleRate, hdrIsFreeFormat, hbytes,
    Bool.and_eq_true, bne_iff_ne, Bool.not_eq_true', ← Bool.not_eq_true, hfree, beq_iff_eq (b := (1 : Nat)),
    beq_iff_eq (b := (0xFF : UInt8))]
  constructor
  · rintro ⟨⟨⟨⟨⟨⟨h0, h1⟩, -⟩, hbidx⟩, hridx⟩, hlayer⟩, hzero⟩
    exact ⟨h0, (byte1_facts p1 hlayer).1.1 h1, hlayer, hzero, hbidx, hridx⟩
  · rintro ⟨h0, h1, hlayer, hzero, hbidx, hridx⟩
    exact ⟨⟨⟨⟨⟨⟨h0, (byte1_facts p1 hlayer).1.2 h1⟩, by omega⟩, hbidx⟩, hridx⟩, hlayer⟩, hzero⟩

theorem bitrate_ge : ∀ m : Bool, ∀ i < 15, i ≠ 0 → 8 ≤ (if m then kBitV1 else kBitV2).getD i 0 := by
  decide

/-- The sample rates of the two modules are the same. -/
theorem rates_agree : ∀ m n : Bool, (m = true → n = true) → ∀ i < 3,
    gHz.getD i 0 >>> (!m).toNat >>> (!n).toNat = rateOf (if m then 1 else if n then 2 else 25) i := by
  decide

/-- The parts of the frame that a Layer III header describes. -/
theorem hdrFrame_parts {h : Bytes} (hlayer : hdrGetLayer h = 1)
    (hv : ((hdrByte h 1 >>> 3) &&& 3).toNat ≠ 1) (hbidx : hdrGetBitrate h < 15) (hridx : hdrGetSampleRate h < 3) :
    hdrBitrateKbps h = (if hdrTestMpeg1 h then kBitV1 else kBitV2).getD (hdrGetBitrate h) 0 ∧
      hdrSampleRateHz h = rateOf (hdrVersion h) (hdrGetSampleRate h) ∧
      hdrFrameSamples h = (if hdrTestMpeg1 h then 1152 else 576) ∧ hdrIsLayer1 h = false := by
  obtain ⟨-, -, hmn, h576, hlayer1⟩ := byte1_facts (hdrByte h 1) hlayer
  have hmn' : hdrTestMpeg1 h = true → hdrTestNotMpeg25 h = true := fun hm => (hmn hm).resolve_right hv
  refine ⟨?_, rates_agree _ _ hmn' _ hridx, ?_, hlayer1⟩
  · rw [hdrBitrateKbps, hlayer]
    exact bitrates_agree _ _ hbidx
  · have h576' : hdrIsFrame576 h = !hdrTestMpeg1 h := h576
    have hlayer1' : hdrIsLayer1 h = false := hlayer1
    rw [hdrFrameSamples, hlayer1', h576']
    cases hdrTestMpeg1 h <;> rfl

/-- The frame a Layer III header describes is the one the decoder sees. -/
theorem hdrFrame_eq {h : Bytes} {mode : Nat} (hlayer : hdrGetLayer h = 1)
    (hv : ((hdrByte h 1 >>> 3) &&& 3).toNat ≠ 1) (hzero : hdrGetBitrate h ≠ 0) (hbidx : hdrGetBitrate h < 15)
    (hridx : hdrGetSampleRate h < 3) (hmode : mode = 3 ↔ hdrIsMono h = true) :
    headerFrame (hdrVersion h) (hdrGetBitrate h) (hdrGetSampleRate h) (if hdrTestPadding h then 1 else 0) mode =
      some (hdrFrame h) := by
  obtain ⟨hbitrate, hrate, hsamples, hlayer1⟩ := hdrFrame_parts hlayer hv hbidx hridx
  have hversion : hdrVersion h = 1 ∨ hdrVersion h = 2 ∨ hdrVersion h = 25 := by
    rw [hdrVersion]
    split
    · exact Or.inl rfl
    · split
      · exact Or.inr (Or.inl rfl)
      · exact Or.inr (Or.inr rfl)
  have hone : hdrVersion h = 1 ↔ hdrTestMpeg1 h = true := by
    rw [hdrVersion]
    split
    · next hm => exact ⟨fun _ => hm, fun _ => rfl⟩
    · next hm =>
      refine ⟨fun h1 => ?_, fun hm' => absurd hm' hm⟩
      split at h1 <;> cases h1
  have hbit : (if hdrVersion h = 1 then kBitV1 else kBitV2).getD (hdrGetBitrate h) 0 = hdrBitrateKbps h := by
    rw [hbitrate]
    simp only [hone]
  have hbytes : hdrFrameBytes h 0 = hdrFrameSamples h * hdrBitrateKbps h * 125 / hdrSampleRateHz h := by
    simp only [hdrFrameBytes, hlayer1, Bool.false_eq_true, if_false]
    split
    · rfl
    · next hnot => exact (Classical.not_not.1 hnot).symm
  have hpad : hdrPadding h = if hdrTestPadding h then 1 else 0 := by
    simp only [hdrPadding, hlayer1, Bool.false_eq_true, if_false]
  have hge : 8 ≤ (if hdrVersion h = 1 then kBitV1 else kBitV2).getD (hdrGetBitrate h) 0 := by
    rw [hbit, hbitrate]
    exact bitrate_ge _ _ hbidx hzero
  rw [headerFrame_eq hversion hridx hge, hdrFrame, hbytes, hpad, hbit, ← hrate, hsamples]
  simp only [hone, hmode]

/-- **The two header readers agree.** `cq_mp3_parse` accepts the valid Layer III headers that are not in free
format, and describes the frame as the decoder does. -/
theorem cqMp3Parse_eq (p : Bytes) :
    cqMp3Parse p = if 4 ≤ p.length ∧ hdrLayer3 p = true then some (hdrFrame p) else none := by
  match p with
  | [] | [_] | [_, _] | [_, _, _] => rfl
  | p0 :: p1 :: p2 :: p3 :: p =>
      have hlen : 4 ≤ (p0 :: p1 :: p2 :: p3 :: p).length := by simp
      obtain ⟨hmask, hlt, -, hridx, hpad⟩ := byte2_facts p2
      simp only [hlen, true_and, hdrLayer3_iff, cqMp3Parse, hmask]
      by_cases h0 : p0 ≠ 0xFF ∨ p1 &&& 0xE0 ≠ 0xE0
      · -- not a sync word
        rw [if_pos h0, if_neg fun h => h0.elim (fun hne => hne h.1) fun hne => hne h.2.1.1]
      · rw [if_neg h0]
        rw [not_or, Classical.not_not, Classical.not_not] at h0
        by_cases h1 : ((p1 >>> 3) &&& 3).toNat = 1 ∨ ((p1 >>> 1) &&& 3).toNat ≠ 1
        · -- a reserved version, or another layer
          rw [if_pos h1, if_neg fun h => h1.elim h.2.1.2 fun hne => hne h.2.2.1]
        · rw [if_neg h1]
          rw [not_or, Classical.not_not] at h1
          by_cases h2 : (p2 >>> 4).toNat = 0 ∨ (p2 >>> 4).toNat = 15 ∨ ((p2 >>> 2) &&& 3).toNat = 3
          · -- no bitrate, or no sample rate
            rw [headerFrame_none h2, if_neg]
            rintro ⟨-, -, -, hzero, hbidx, hrate⟩
            exact h2.elim hzero fun h => h.elim hbidx hrate
          · rw [not_or, not_or] at h2
            have hframe := hdrFrame_eq (h := p0 :: p1 :: p2 :: p3 :: p) h1.2 h1.1 h2.1
              (Nat.lt_of_le_of_ne (Nat.le_of_lt_succ hlt) h2.2.1)
              (Nat.lt_of_le_of_ne (Nat.le_of_lt_succ hridx) h2.2.2) (byte3_facts p3)
            rw [(byte1_facts p1 h1.2).2.1 h1.1, hpad]
            exact hframe.trans (if_pos ⟨h0.1, ⟨h0.2, h1.1⟩, h1.2, h2⟩).symm

theorem cqMp3Parse_eq_some_iff {p : Bytes} {f : CqMp3Frame} :
    cqMp3Parse p = some f ↔ 4 ≤ p.length ∧ hdrLayer3 p = true ∧ f = hdrFrame p := by
  rw [cqMp3Parse_eq, Option.ite_none_right_eq_some, Option.some.injEq, and_assoc, eq_comm (a := f)]

/-! ## Coherent headers -/

/-- The version and layer bytes of Layer III. -/
theorem byte1_cases : ∀ b : UInt8, ((b >>> 1) &&& 3).toNat = 1 →
    (b &&& 0xF0 == 0xF0 || b &&& 0xFE == 0xE2) = true → b ∈ [0xE2, 0xE3, 0xF2, 0xF3, 0xFA, 0xFB] := by
  exact forall_byte (by decide +kernel)

/-- They differ in the protection bit alone when the versions are the same. -/
theorem version_eq_iff : ∀ a ∈ [(0xE2 : UInt8), 0xE3, 0xF2, 0xF3, 0xFA, 0xFB],
    ∀ b ∈ [(0xE2 : UInt8), 0xE3, 0xF2, 0xF3, 0xFA, 0xFB],
      ((if b &&& 0x8 != 0 then 1 else if b &&& 0x10 != 0 then 2 else 25) =
        (if a &&& 0x8 != 0 then 1 else if a &&& 0x10 != 0 then 2 else 25) ↔ ((a ^^^ b) &&& 0xFE == 0) = true) := by
  decide +kernel

theorem byte2_rate : ∀ b : UInt8, (b &&& 0x0C).toNat = 4 * ((b >>> 2) &&& 3).toNat := by
  exact forall_byte (by decide +kernel)

/-- The sample rate index is in two bits. -/
theorem rate_eq_iff (a b : UInt8) :
    ((b >>> 2) &&& 3).toNat = ((a >>> 2) &&& 3).toNat ↔ ((a ^^^ b) &&& 0x0C == 0) = true := by
  have ha := byte2_rate a
  have hb := byte2_rate b
  have hxor : (a ^^^ b) &&& 0x0C = (a &&& 0x0C) ^^^ (b &&& 0x0C) := by
    rw [← UInt8.toNat_inj, UInt8.toNat_and, UInt8.toNat_xor, UInt8.toNat_xor, UInt8.toNat_and, UInt8.toNat_and,
      Nat.and_xor_distrib_right]
  rw [beq_iff_eq, hxor, UInt8.xor_eq_zero_iff, ← UInt8.toNat_inj]
  omega

theorem rateOf_inj : ∀ version ∈ [1, 2, 25], ∀ i < 3, ∀ j < 3, rateOf version i = rateOf version j ↔ i = j := by
  decide

/-- What a Layer III header is made of. -/
theorem hdrLayer3_parts {h : Bytes} (hh : hdrLayer3 h = true) :
    hdrValid h = true ∧ hdrGetLayer h = 1 ∧ hdrIsFreeFormat h = false ∧
      hdrByte h 1 ∈ [0xE2, 0xE3, 0xF2, 0xF3, 0xFA, 0xFB] ∧ hdrSampleRateHz h = rateOf (hdrVersion h) (hdrGetSampleRate h) ∧
      hdrGetSampleRate h < 3 := by
  simp only [hdrLayer3, Bool.and_eq_true, Bool.not_eq_true', beq_iff_eq] at hh
  obtain ⟨⟨hvalid, hlayer⟩, hfree⟩ := hh
  have hparts := hvalid
  simp only [hdrValid, Bool.and_eq_true, bne_iff_ne] at hparts
  obtain ⟨⟨⟨⟨-, h1⟩, -⟩, hbidx⟩, hridx⟩ := hparts
  obtain ⟨-, hlt, -, hrlt, -⟩ := byte2_facts (hdrByte h 2)
  have hmask := (byte1_facts (hdrByte h 1) hlayer).1.1 h1
  have hrate : hdrGetSampleRate h < 3 := Nat.lt_of_le_of_ne (Nat.le_of_lt_succ hrlt) hridx
  have hbit : hdrGetBitrate h < 15 := Nat.lt_of_le_of_ne (Nat.le_of_lt_succ hlt) hbidx
  exact ⟨hvalid, hlayer, hfree, byte1_cases _ hlayer h1, (hdrFrame_parts hlayer hmask.2 hbit hrate).2.1, hrate⟩

theorem hdrVersion_mem (h : Bytes) : hdrVersion h ∈ [1, 2, 25] := by
  rw [hdrVersion]
  split
  · simp
  · split <;> simp

/-- **Coherence is `hdr_compare`.** Of two headers that `cq_mp3_parse` accepts, the second is coherent with the
first exactly when the decoder takes it for a header of the same stream. -/
theorem coherent_iff_hdrCompare {p q : Bytes} {f g : CqMp3Frame} (hp : cqMp3Parse p = some f)
    (hq : cqMp3Parse q = some g) : Coherent g f ↔ hdrCompare p q = true := by
  obtain ⟨-, hph, rfl⟩ := cqMp3Parse_eq_some_iff.1 hp
  obtain ⟨-, hqh, rfl⟩ := cqMp3Parse_eq_some_iff.1 hq
  obtain ⟨-, -, hpfree, hp1, hprate, hpidx⟩ := hdrLayer3_parts hph
  obtain ⟨hqvalid, -, hqfree, hq1, hqrate, hqidx⟩ := hdrLayer3_parts hqh
  have hversion : hdrVersion q = hdrVersion p ↔ _ := version_eq_iff _ hp1 _ hq1
  have hrate : hdrGetSampleRate q = hdrGetSampleRate p ↔ _ := rate_eq_iff (hdrByte p 2) (hdrByte q 2)
  simp only [hdrCompare, hqvalid, hpfree, hqfree, Bool.true_and, Bool.xor_false, Bool.not_false, Bool.and_true,
    Bool.and_eq_true, ← hversion, ← hrate, Coherent, hdrFrame, hprate, hqrate]
  refine and_congr_right fun hsame => ?_
  rw [hsame]
  exact rateOf_inj _ (hdrVersion_mem p) _ hqidx _ hpidx

/-- **The two header readers agree** on all bytes: on which of them are headers, on the frame a header describes, and
on which headers belong to one stream. -/
theorem headerReaders_agree (p q : Bytes) :
    cqMp3Parse p = (if 4 ≤ p.length ∧ hdrLayer3 p = true then some (hdrFrame p) else none) ∧
      ∀ f g, cqMp3Parse p = some f → cqMp3Parse q = some g → (Coherent g f ↔ hdrCompare p q = true) :=
  ⟨cqMp3Parse_eq p, fun _ _ => coherent_iff_hdrCompare⟩

/-- The same stream with another bitrate, a checksum and two channels. -/
theorem headerReaders_agree_sample :
    Coherent (hdrFrame [0xFF, 0xF2, 0x24, 0x00]) (hdrFrame [0xFF, 0xF3, 0x14, 0xC0]) ↔
      hdrCompare [0xFF, 0xF3, 0x14, 0xC0] [0xFF, 0xF2, 0x24, 0x00] = true :=
  (headerReaders_agree [0xFF, 0xF3, 0x14, 0xC0] [0xFF, 0xF2, 0x24, 0x00]).2 _ _ (by decide +kernel)
    (by decide +kernel)

end Casquinha.Decode
