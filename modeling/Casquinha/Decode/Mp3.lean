import Casquinha.Lib.CString

/-!
# The Layer III frame-header reader (`src/cq_mp3.c`)

`cqMp3Parse` reads one four-byte header, `cqMp3Walk` counts whole coherent frames from the start of a
buffer, `cqMp3Sync` finds the first frame whose predicted successor confirms it. A buffer pointer and
its length are one byte list; `buf + off` with length `n - off` is `buf.drop off`.

A parsed frame is between 4 and 1441 bytes long (`frameBytes_le`), and a walk depends only on the
first `n` bytes of the stream it walks.
-/

set_option autoImplicit false

namespace Casquinha.Decode

open Lib

/-- `cq_mp3_frame`. -/
structure CqMp3Frame where
  version : Nat
  bitrateKbps : Nat
  samplerate : Nat
  channels : Nat
  samples : Nat
  frameBytes : Nat
deriving DecidableEq

/-- `kBitV1`: Layer III bitrates by index; 0 is rejected. -/
def kBitV1 : List Nat := [0, 32, 40, 48, 56, 64, 80, 96, 112, 128, 160, 192, 224, 256, 320, 0]

/-- `kBitV2`. -/
def kBitV2 : List Nat := [0, 8, 16, 24, 32, 40, 48, 56, 64, 80, 96, 112, 128, 144, 160, 0]

/-- `kRate`: MPEG 1 sample rates by index; 0 is rejected. -/
def kRate : List Nat := [44100, 48000, 32000, 0]

/-- The frame that version, bitrate index, rate index, padding and mode describe. -/
def headerFrame (version bidx ridx pad mode : Nat) : Option CqMp3Frame :=
  let bitrate := (if version = 1 then kBitV1 else kBitV2).getD bidx 0
  let rate₁ := kRate.getD ridx 0
  if bitrate = 0 ∨ rate₁ = 0 then none
  else
    -- the table holds the MPEG 1 rates
    let rate := if version = 2 then rate₁ / 2 else if version = 25 then rate₁ / 4 else rate₁
    let samples := if version = 1 then 1152 else 576
    let frameBytes := samples / 8 * (bitrate * 1000) / rate + pad
    if frameBytes < 4 then none
    else some
      { version := version
        bitrateKbps := bitrate
        samplerate := rate
        channels := if mode = 3 then 1 else 2
        samples := samples
        frameBytes := frameBytes }

/-- `cq_mp3_parse`. -/
def cqMp3Parse : Bytes → Option CqMp3Frame
  | p0 :: p1 :: p2 :: p3 :: _ =>
      -- eleven sync bits
      if p0 ≠ 0xFF ∨ p1 &&& 0xE0 ≠ 0xE0 then none
      else
        let vbits := ((p1 >>> 3) &&& 3).toNat
        let lbits := ((p1 >>> 1) &&& 3).toNat
        -- the reserved version, or a layer other than III
        if vbits = 1 ∨ lbits ≠ 1 then none
        else
          headerFrame (if vbits = 3 then 1 else if vbits = 2 then 2 else 25) ((p2 >>> 4) &&& 0x0F).toNat
            ((p2 >>> 2) &&& 3).toNat ((p2 >>> 1) &&& 1).toNat ((p3 >>> 6) &&& 3).toNat
  | _ => none

/-- Same version and sample rate. -/
def Coherent (f g : CqMp3Frame) : Prop := f.version = g.version ∧ f.samplerate = g.samplerate

instance (f g : CqMp3Frame) : Decidable (Coherent f g) := inferInstanceAs (Decidable (_ ∧ _))

/-- `while (cnt < max_frames)` of `cq_mp3_walk`; the first argument is `max_frames - cnt`. -/
def walkLoop (buf : Bytes) : Nat → Nat → Nat → Option CqMp3Frame → Nat × Nat
  | 0, off, cnt, _ => (off, cnt)
  | left + 1, off, cnt, first =>
      match cqMp3Parse (buf.drop off) with
      | none => (off, cnt)
      | some f =>
          -- a partial tail
          if buf.length < off + f.frameBytes then (off, cnt)
          else
            match first with
            | none => walkLoop buf left (off + f.frameBytes) (cnt + 1) (some f)
            | some g =>
                if Coherent f g then walkLoop buf left (off + f.frameBytes) (cnt + 1) (some g)
                else (off, cnt)

/-- `cq_mp3_walk`: the length of the walked prefix and the number of frames in it. -/
def cqMp3Walk (buf : Bytes) (maxFrames : Nat) : Nat × Nat := walkLoop buf maxFrames 0 0 none

/-- The frame count `cq_mp3_walk` reports. -/
def walkFrames (buf : Bytes) (maxFrames : Nat) : Nat := (cqMp3Walk buf maxFrames).2

/-- The scan of `cq_mp3_sync` from offset `i` on. -/
def syncLoop (buf : Bytes) : Nat → Nat → Option (Nat × CqMp3Frame)
  | 0, _ => none
  | fuel + 1, i =>
      if i + 4 ≤ buf.length then
        match cqMp3Parse (buf.drop i) with
        | none => syncLoop buf fuel (i + 1)
        | some a =>
            -- the scan ends at a header that cannot be confirmed yet; it does not look behind it
            if buf.length < i + a.frameBytes + 4 then none
            else
              match cqMp3Parse (buf.drop (i + a.frameBytes)) with
              | none => syncLoop buf fuel (i + 1)
              | some b => if Coherent b a then some (i, a) else syncLoop buf fuel (i + 1)
      else none

/-- `cq_mp3_sync`: offset and header of the first confirmed frame; `none` is the answer `-1`. -/
def cqMp3Sync (buf : Bytes) : Option (Nat × CqMp3Frame) := syncLoop buf buf.length 0

/-! ## Headers -/

theorem four_le_length_of_parse {p : Bytes} {f : CqMp3Frame} (h : cqMp3Parse p = some f) :
    4 ≤ p.length := by
  unfold cqMp3Parse at h
  split at h
  · simp
  · cases h

/-- A header is read from four bytes. -/
theorem cqMp3Parse_take {p : Bytes} {n : Nat} (hn : 4 ≤ n) :
    cqMp3Parse (p.take n) = cqMp3Parse p := by
  obtain ⟨m, rfl⟩ : ∃ m, n = m + 4 := ⟨n - 4, by omega⟩
  match p with
  | [] => rfl
  | [_] => rfl
  | [_, _] => rfl
  | [_, _, _] => rfl
  | p0 :: p1 :: p2 :: p3 :: p => simp [cqMp3Parse]

theorem cqMp3Parse_append {p : Bytes} (q : Bytes) (hp : 4 ≤ p.length) :
    cqMp3Parse (p ++ q) = cqMp3Parse p := by
  rw [← cqMp3Parse_take (p := p ++ q) hp, List.take_left]

theorem le_of_getD {l : List Nat} {i d b : Nat} (hl : ∀ x ∈ l, x ≤ b) (hd : d ≤ b) :
    l.getD i d ≤ b := by
  rw [List.getD_eq_getElem?_getD]
  cases h : l[i]? with
  | none => exact hd
  | some x => exact hl x (List.mem_of_getElem? h)

/-- A nonzero sample rate is at least 32 kHz before it is halved or quartered. -/
theorem kRate_getD (ridx : Nat) : kRate.getD ridx 0 = 0 ∨ 32000 ≤ kRate.getD ridx 0 := by
  have hall : ∀ x ∈ kRate, x = 0 ∨ 32000 ≤ x := by decide
  rw [List.getD_eq_getElem?_getD]
  cases hr : kRate[ridx]? with
  | none => exact Or.inl rfl
  | some x => exact hall x (List.mem_of_getElem? hr)

/-- Every admissible bitrate and rate give a frame of at most 1441 bytes. -/
theorem headerFrame_bounds {version bidx ridx pad mode : Nat} {f : CqMp3Frame}
    (hversion : version = 1 ∨ version = 2 ∨ version = 25) (hpad : pad ≤ 1)
    (h : headerFrame version bidx ridx pad mode = some f) :
    4 ≤ f.frameBytes ∧ f.frameBytes ≤ 1441 := by
  have hb1 : kBitV1.getD bidx 0 ≤ 320 := le_of_getD (by decide) (by decide)
  have hb2 : kBitV2.getD bidx 0 ≤ 160 := le_of_getD (by decide) (by decide)
  have hrate := kRate_getD ridx
  rcases hversion with rfl | rfl | rfl
  · simp only [headerFrame, if_true, Option.ite_none_left_eq_some, Option.some.injEq, not_or] at h
    obtain ⟨⟨-, hr⟩, hge, rfl⟩ := h
    have hdiv : 144 * (kBitV1.getD bidx 0 * 1000) / kRate.getD ridx 0 ≤ 144 * 320000 / 32000 :=
      Nat.div_le_div (by omega) (hrate.resolve_left hr) (by decide)
    refine ⟨Nat.le_of_not_lt hge, ?_⟩
    simp at hdiv ⊢
    omega
  · simp only [headerFrame, Option.ite_none_left_eq_some, Option.some.injEq, not_or] at h
    obtain ⟨⟨-, hr⟩, hge, rfl⟩ := h
    have hr' := hrate.resolve_left hr
    have hdiv : 72 * (kBitV2.getD bidx 0 * 1000) / (kRate.getD ridx 0 / 2) ≤
        72 * 160000 / 16000 := Nat.div_le_div (by omega) (by omega) (by decide)
    refine ⟨Nat.le_of_not_lt hge, ?_⟩
    simp at hdiv ⊢
    omega
  · simp only [headerFrame, Option.ite_none_left_eq_some, Option.some.injEq, not_or] at h
    obtain ⟨⟨-, hr⟩, hge, rfl⟩ := h
    have hr' := hrate.resolve_left hr
    have hdiv : 72 * (kBitV2.getD bidx 0 * 1000) / (kRate.getD ridx 0 / 4) ≤
        72 * 160000 / 8000 := Nat.div_le_div (by omega) (by omega) (by decide)
    refine ⟨Nat.le_of_not_lt hge, ?_⟩
    simp at hdiv ⊢
    omega

/-- A parsed frame is between 4 and 1441 bytes long. -/
theorem frameBytes_bounds {p : Bytes} {f : CqMp3Frame} (h : cqMp3Parse p = some f) :
    4 ≤ f.frameBytes ∧ f.frameBytes ≤ 1441 := by
  unfold cqMp3Parse at h
  split at h
  · next p0 p1 p2 p3 _ =>
    simp only at h
    split at h
    · cases h
    · split at h
      · cases h
      · refine headerFrame_bounds ?_ ?_ h
        · split
          · exact Or.inl rfl
          · split
            · exact Or.inr (Or.inl rfl)
            · exact Or.inr (Or.inr rfl)
        · rw [UInt8.toNat_and]
          exact Nat.and_le_right
  · cases h

/-- A frame decodes to at most 1152 samples on each of two channels. -/
theorem samples_channels_le {p : Bytes} {f : CqMp3Frame} (h : cqMp3Parse p = some f) :
    f.samples * f.channels ≤ 1152 * 2 := by
  have hframe : ∀ {version bidx ridx pad mode : Nat} {f : CqMp3Frame},
      headerFrame version bidx ridx pad mode = some f → f.samples * f.channels ≤ 1152 * 2 := by
    intro version bidx ridx pad mode f h
    simp only [headerFrame, Option.ite_none_left_eq_some, Option.some.injEq] at h
    obtain ⟨-, -, rfl⟩ := h
    exact Nat.mul_le_mul (by simp only; split <;> omega) (by simp only; split <;> omega)
  unfold cqMp3Parse at h
  split at h
  · simp only at h
    split at h
    · cases h
    · split at h
      · cases h
      · exact hframe h
  · cases h

end Casquinha.Decode
