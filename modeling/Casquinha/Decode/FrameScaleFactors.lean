import Casquinha.Decode.ScaleFactors

/-!
# The scale factors of a frame (`src/minimp3.h`)

`ist_pos` is a part of the scratch memory, which nothing clears. The second granule of a frame may copy scale factors
from there, where the first has left them. But the first granule takes a `scfsi` as well, of bits that are not in front
of it: the private bits of the frame pass for it.

For a side information that is accepted nothing outside of an array is touched, and no scale factor comes from a cell
that was never written exactly when these bits are 0 or have no say (`scalefactors_set_iff`).
-/

set_option autoImplicit false

namespace Casquinha.Decode

open Lib

/-! ## Granules and channels -/

/-- The loop of `L3_decode` over the channels: the scale factors, `ist_pos` and the reader, which `L3_huffman` sets
behind the granule. -/
def decodeChannels (hdr : Bytes) : Nat → List L3GrInfo → List Cells → Bs →
    Option (List Scf × List Cells × Bs)
  | _, [], istPos, bs => some ([], istPos, bs)
  | _, _ :: _, [], _ => none
  | ch, gr :: grs, pos :: istPos, bs =>
      let layer3grLimit := bs.pos + gr.part23Length
      (l3DecodeScalefactors hdr pos bs gr ch).bind fun out =>
        (decodeChannels hdr (ch + 1) grs istPos { out.bs with pos := layer3grLimit }).map fun r =>
          (out.scf :: r.1, out.istPos :: r.2.1, r.2.2)

/-- `for (i = 0; i < max_blocks; i++)` of `L3_intensity_stereo`, from `i` on: the positions of the last bands.
`maxBand` is what `L3_stereo_top_band` finds in the spectrum. -/
def intensityLoop (hdr : Bytes) (nSfb maxBlocks : Nat) (maxBand : Nat → Int) : Nat → Nat → Cells → Option Cells
  | 0, _, istPos => some istPos
  | left + 1, i, istPos =>
      let itop : Int := nSfb - maxBlocks + i
      let prev : Int := itop - maxBlocks
      if itop < 0 ∨ istPos.length ≤ itop then none
      else if prev ≤ maxBand i then
        intensityLoop hdr nSfb maxBlocks maxBand left (i + 1)
          (istPos.set itop.toNat (some (if hdrTestMpeg1 hdr then 3 else 0)))
      else if prev < 0 then none
      else intensityLoop hdr nSfb maxBlocks maxBand left (i + 1) (istPos.set itop.toNat (istPos.getD prev.toNat none))

/-- `max_band` behind its adjustment for long bands. -/
def mergeMaxBand (gr : L3GrInfo) (maxBand : Nat → Int) : Nat → Int :=
  if gr.nLongSfb ≠ 0 then fun _ => max (max (maxBand 0) (maxBand 1)) (maxBand 2) else maxBand

/-- What `L3_intensity_stereo` does to `ist_pos[1]`, which the granule and channel `gr` is the first of. -/
def l3IntensityStereo (hdr : Bytes) (gr : L3GrInfo) (maxBand : Nat → Int) (istPos : Cells) : Option Cells :=
  let maxBlocks := if gr.nShortSfb ≠ 0 then 3 else 1
  intensityLoop hdr (gr.nLongSfb + gr.nShortSfb) maxBlocks (mergeMaxBand gr maxBand) maxBlocks 0 istPos

/-- `if (HDR_TEST_I_STEREO(h->header))` of `L3_decode`. -/
def intensityStereo (hdr : Bytes) (grs : List L3GrInfo) (maxBand : Nat → Int) (istPos : List Cells) :
    Option (List Cells) :=
  if hdrTestIStereo hdr then
    match grs, istPos with
    | gr :: _, pos₀ :: pos₁ :: _ => (l3IntensityStereo hdr gr maxBand pos₁).map fun pos => [pos₀, pos]
    | _, _ => none
  else some istPos

/-- The loop of `mp3dec_decode_frame` over the granules. `maxBand` is given for each of them. -/
def decodeGranules (hdr : Bytes) (nch : Nat) (maxBand : Nat → Nat → Int) : Nat → Nat → List L3GrInfo → List Cells →
    Bs → Option (List (List Scf))
  | 0, _, _, _, _ => some []
  | left + 1, igr, grs, istPos, bs =>
      (decodeChannels hdr 0 (grs.take nch) istPos bs).bind fun r =>
        (intensityStereo hdr (grs.take nch) (maxBand igr) r.2.1).bind fun istPos =>
          (decodeGranules hdr nch maxBand left (igr + 1) (grs.drop nch) istPos r.2.2).map fun scfs => r.1 :: scfs

/-- The scale factors of a frame, by granule and channel. The scratch memory is a local of `mp3dec_decode_frame`. -/
def frameScalefactors (hdr : Bytes) (maxBand : Nat → Nat → Int) (grs : List L3GrInfo) (bs : Bs) :
    Option (List (List Scf)) :=
  decodeGranules hdr (hdrChannels hdr) maxBand (if hdrTestMpeg1 hdr then 2 else 1) 0 grs
    [unset istPosSize, unset istPosSize] bs

/-! ## The cells they fill -/

/-- `n_sfb`. -/
def nSfb (gr : L3GrInfo) : Nat := gr.nLongSfb + gr.nShortSfb

/-- The scale factors of the channels of one granule. -/
theorem decodeChannels_spec {hdr : Bytes} {grs : List L3GrInfo} {istPos : List Cells} (ch : Nat) (bs : Bs)
    (hgrs : ∀ gr ∈ grs, GrShape hdr gr) (hlen : grs.length ≤ istPos.length)
    (hist : ∀ pos ∈ istPos, pos.length = istPosSize) :
    ∃ scfs istPos' bs', decodeChannels hdr ch grs istPos bs = some (scfs, istPos', bs') ∧
      istPos'.length = istPos.length ∧ (∀ pos ∈ istPos', pos.length = istPosSize) ∧
      scfs.map List.length = grs.map nSfb ∧
      ((∀ gr ∈ grs, Unshared hdr gr) ∨ (∀ pos ∈ istPos.take grs.length, Ready pos) →
        (∀ scf ∈ scfs, AllSet scf) ∧ ∀ pos ∈ istPos'.take grs.length, Ready pos) ∧
      ((∀ pos ∈ istPos, ∀ c ∈ pos, c = none) → (∀ scf ∈ scfs, AllSet scf) → ∀ gr ∈ grs, Unshared hdr gr) := by
  induction grs generalizing ch istPos bs with
  | nil => exact ⟨[], istPos, bs, rfl, rfl, hist, rfl, by simp, by simp⟩
  | cons gr grs ih =>
      cases istPos with
      | nil => exact absurd hlen (Nat.not_succ_le_zero _)
      | cons pos istPos =>
          obtain ⟨hshape, hgrs⟩ := List.forall_mem_cons.1 hgrs
          obtain ⟨hpos, hist⟩ := List.forall_mem_cons.1 hist
          obtain ⟨out, hout, hscf, hout', hready, hunset⟩ := l3DecodeScalefactors_spec hshape hpos bs ch
          obtain ⟨scfs, istPos', bs', hrest, hlen', hist', hscfs, hreadies, hunsets⟩ :=
            ih (ch + 1) { out.bs with pos := bs.pos + gr.part23Length } hgrs (Nat.le_of_succ_le_succ hlen) hist
          refine ⟨out.scf :: scfs, out.istPos :: istPos', bs', ?_, congrArg (· + 1) hlen',
            List.forall_mem_cons.2 ⟨hout', hist'⟩, ?_, fun h => ?_, fun hnone hset gr' hgr' => ?_⟩
          · simp only [decodeChannels, hout, Option.bind_some, hrest, Option.map_some]
          · rw [List.map_cons, List.map_cons, hscfs, hscf, nSfb]
          · rw [List.forall_mem_cons, List.length_cons, List.take_succ_cons, List.forall_mem_cons] at h
            obtain ⟨hscf, hpos⟩ := hready (h.imp And.left And.left)
            obtain ⟨hscfs, hist⟩ := hreadies (h.imp And.right And.right)
            rw [List.length_cons, List.take_succ_cons]
            exact ⟨List.forall_mem_cons.2 ⟨hscf, hscfs⟩, List.forall_mem_cons.2 ⟨hpos, hist⟩⟩
          · obtain ⟨hnone, hnones⟩ := List.forall_mem_cons.1 hnone
            obtain ⟨hset, hsets⟩ := List.forall_mem_cons.1 hset
            rcases List.mem_cons.1 hgr' with rfl | hgr'
            · by_contra hshared
              exact hunset hnone hshared hset
            · exact hunsets hnones hsets gr' hgr'

/-- Intensity stereo sets positions of the last bands only, behind those that a second granule may share. -/
theorem intensityLoop_spec (hdr : Bytes) {nSfb maxBlocks : Nat} (maxBand : Nat → Int) (left i : Nat)
    (istPos : Cells) (hlow : 21 + maxBlocks ≤ nSfb) (htwice : 2 * maxBlocks ≤ nSfb) (hi : i + left ≤ maxBlocks)
    (hlen : nSfb ≤ istPos.length) :
    ∃ istPos', intensityLoop hdr nSfb maxBlocks maxBand left i istPos = some istPos' ∧
      istPos'.length = istPos.length ∧ istPos'.take 21 = istPos.take 21 := by
  induction left generalizing i istPos with
  | zero => exact ⟨istPos, rfl, rfl, rfl⟩
  | succ left ih =>
      have hitop : ¬ ((nSfb : Int) - maxBlocks + i < 0 ∨ (istPos.length : Int) ≤ nSfb - maxBlocks + i) := by omega
      have hset : ∀ c : Option Nat, ∃ istPos',
          intensityLoop hdr nSfb maxBlocks maxBand left (i + 1)
              (istPos.set ((nSfb : Int) - maxBlocks + i).toNat c) = some istPos' ∧
            istPos'.length = istPos.length ∧ istPos'.take 21 = istPos.take 21 := by
        intro c
        obtain ⟨istPos', hloop, hlen', htake⟩ := ih (i + 1) (istPos.set ((nSfb : Int) - maxBlocks + i).toNat c)
          (by omega) (by rw [List.length_set]; exact hlen)
        rw [List.length_set] at hlen'
        rw [List.take_set_of_le (by omega)] at htake
        exact ⟨istPos', hloop, hlen', htake⟩
      simp only [intensityLoop, if_neg hitop]
      split
      · exact hset _
      · rw [if_neg (by omega)]
        exact hset _

theorem l3IntensityStereo_spec {hdr : Bytes} {gr : L3GrInfo} (h : GrShape hdr gr) (maxBand : Nat → Int)
    {istPos : Cells} (hlen : istPos.length = istPosSize) :
    ∃ istPos', l3IntensityStereo hdr gr maxBand istPos = some istPos' ∧ istPos'.length = istPosSize ∧
      istPos'.take 21 = istPos.take 21 := by
  have hsize : istPosSize = 39 := rfl
  have hbands : 21 + (if gr.nShortSfb ≠ 0 then 3 else 1) ≤ gr.nLongSfb + gr.nShortSfb ∧
      gr.nLongSfb + gr.nShortSfb ≤ 39 := by
    rcases h.bands with ⟨hlong, hshort⟩ | ⟨hlong, hshort⟩ | ⟨hlong, hshort⟩
    · rw [hlong, hshort]
      decide
    · rw [hlong, hshort]
      decide
    · rw [hlong, hshort]
      cases hdrTestMpeg1 hdr <;> decide
  have htwice : 2 * (if gr.nShortSfb ≠ 0 then 3 else 1) ≤ gr.nLongSfb + gr.nShortSfb := by
    split <;> omega
  obtain ⟨istPos', hloop, hlen', htake⟩ := intensityLoop_spec hdr (mergeMaxBand gr maxBand) _ 0 istPos hbands.1 htwice
    (Nat.le_of_eq (Nat.zero_add _)) (by omega)
  exact ⟨istPos', hloop, hlen'.trans hlen, htake⟩

/-- The positions of both channels. -/
structure Positions (istPos : List Cells) : Prop where
  two : istPos.length = 2
  size : ∀ pos ∈ istPos, pos.length = istPosSize

/-- The positions before the first granule. -/
theorem positions_unset : Positions [unset istPosSize, unset istPosSize] := ⟨rfl, by decide⟩

theorem intensityStereo_spec {hdr : Bytes} {grs : List L3GrInfo} (hgrs : ∀ gr ∈ grs, GrShape hdr gr) (hne : grs ≠ [])
    (maxBand : Nat → Int) {istPos : List Cells} (hist : Positions istPos) :
    ∃ istPos', intensityStereo hdr grs maxBand istPos = some istPos' ∧ Positions istPos' ∧
      istPos'.map (List.take 21) = istPos.map (List.take 21) := by
  cases hbit : hdrTestIStereo hdr with
  | false => exact ⟨istPos, by simp [intensityStereo, hbit], hist, rfl⟩
  | true =>
      obtain ⟨pos₀, pos₁, rfl⟩ := List.length_eq_two.1 hist.two
      obtain ⟨gr, grs, rfl⟩ := List.exists_cons_of_ne_nil hne
      obtain ⟨pos, hpos, hlen, htake⟩ := l3IntensityStereo_spec (hgrs gr List.mem_cons_self) maxBand
        (hist.size pos₁ (by simp))
      refine ⟨[pos₀, pos], by simp [intensityStereo, hbit, hpos], ⟨rfl, ?_⟩, by simp [htake]⟩
      simpa [hlen] using hist.size pos₀ List.mem_cons_self

/-- One granule: its scale factors, and the positions that it leaves. -/
theorem granule_spec {hdr : Bytes} {grs : List L3GrInfo} {istPos : List Cells} (hgrs : ∀ gr ∈ grs, GrShape hdr gr)
    (hne : grs ≠ []) (htwo : grs.length ≤ 2) (hist : Positions istPos) (maxBand : Nat → Int) (bs : Bs) :
    ∃ scfs istPos₁ istPos' bs', decodeChannels hdr 0 grs istPos bs = some (scfs, istPos₁, bs') ∧
      intensityStereo hdr grs maxBand istPos₁ = some istPos' ∧ Positions istPos' ∧
      scfs.map List.length = grs.map nSfb ∧
      ((∀ gr ∈ grs, Unshared hdr gr) ∨ (∀ pos ∈ istPos.take grs.length, Ready pos) →
        (∀ scf ∈ scfs, AllSet scf) ∧ ∀ pos ∈ istPos'.take grs.length, Ready pos) ∧
      ((∀ pos ∈ istPos, ∀ c ∈ pos, c = none) → (∀ scf ∈ scfs, AllSet scf) → ∀ gr ∈ grs, Unshared hdr gr) := by
  obtain ⟨scfs, istPos₁, bs', hdecode, hlen, hsize, hscfs, hready, hunset⟩ :=
    decodeChannels_spec 0 bs hgrs (hist.two ▸ htwo) hist.size
  obtain ⟨istPos', hintensity, hist', htake⟩ := intensityStereo_spec hgrs hne maxBand ⟨hlen.trans hist.two, hsize⟩
  refine ⟨scfs, istPos₁, istPos', bs', hdecode, hintensity, hist', hscfs, fun h => ?_, hunset⟩
  obtain ⟨hset, hready⟩ := hready h
  refine ⟨hset, ?_⟩
  -- intensity stereo leaves these positions as they are
  have hsame : (istPos'.take grs.length).map (List.take 21) = (istPos₁.take grs.length).map (List.take 21) := by
    rw [List.map_take, htake, List.map_take]
  rw [← List.forall_mem_map (f := List.take 21) (P := AllSet), hsame, List.forall_mem_map]
  exact hready

/-- The granules from one on: nothing outside of an array is touched, and all scale factors have values if the positions
of the granule in front do. -/
theorem decodeGranules_spec {hdr : Bytes} {nch : Nat} (maxBand : Nat → Nat → Int) (hone : 1 ≤ nch) (htwo : nch ≤ 2)
    (left igr : Nat) {grs : List L3GrInfo} {istPos : List Cells} (bs : Bs) (hgrs : ∀ gr ∈ grs, GrShape hdr gr)
    (hlen : left * nch ≤ grs.length) (hist : Positions istPos) :
    ∃ frame, decodeGranules hdr nch maxBand left igr grs istPos bs = some frame ∧
      frame.flatten.map List.length = (grs.take (left * nch)).map nSfb ∧
      ((∀ pos ∈ istPos.take nch, Ready pos) → ∀ scfs ∈ frame, ∀ scf ∈ scfs, AllSet scf) := by
  induction left generalizing igr grs istPos bs with
  | zero => exact ⟨[], rfl, by simp, fun _ scfs hscfs => absurd hscfs List.not_mem_nil⟩
  | succ left ih =>
      rw [Nat.succ_mul] at hlen
      have htake : (grs.take nch).length = nch := List.length_take_of_le (by omega)
      obtain ⟨scfs, istPos₁, istPos', bs', hdecode, hintensity, hist', hscfs, hready, -⟩ :=
        granule_spec (fun gr hgr => hgrs gr (List.mem_of_mem_take hgr)) (List.ne_nil_of_length_pos (by omega))
          (htake.le.trans htwo) hist (maxBand igr) bs
      have hdrop : left * nch ≤ (grs.drop nch).length := by
        rw [List.length_drop]
        omega
      obtain ⟨frame, hrest, hframe, hsets⟩ :=
        ih (igr + 1) bs' (fun gr hgr => hgrs gr (List.mem_of_mem_drop hgr)) hdrop hist'
      refine ⟨scfs :: frame, ?_, ?_, fun hpos => ?_⟩
      · simp only [decodeGranules, hdecode, hintensity, Option.bind_some, hrest, Option.map_some]
      · rw [List.flatten_cons, List.map_append, hscfs, hframe, ← List.map_append, Nat.succ_mul, Nat.add_comm,
          List.take_add]
      · rw [htake] at hready
        obtain ⟨hset, hready⟩ := hready (Or.inr hpos)
        exact List.forall_mem_cons.2 ⟨hset, hsets hready⟩

/-- From the first granule on: all scale factors have values exactly when the records of the first granule share
nothing, since nothing has been read that they could share. -/
theorem decodeGranules_first {hdr : Bytes} {nch : Nat} (maxBand : Nat → Nat → Int) (hone : 1 ≤ nch) (htwo : nch ≤ 2)
    (left : Nat) {grs : List L3GrInfo} (bs : Bs) (hgrs : ∀ gr ∈ grs, GrShape hdr gr)
    (hlen : (left + 1) * nch ≤ grs.length) :
    ∃ frame, decodeGranules hdr nch maxBand (left + 1) 0 grs [unset istPosSize, unset istPosSize] bs = some frame ∧
      frame.flatten.map List.length = (grs.take ((left + 1) * nch)).map nSfb ∧
      ((∀ scfs ∈ frame, ∀ scf ∈ scfs, AllSet scf) ↔ ∀ gr ∈ grs.take nch, Unshared hdr gr) := by
  rw [Nat.succ_mul] at hlen
  have htake : (grs.take nch).length = nch := List.length_take_of_le (by omega)
  have hdrop : left * nch ≤ (grs.drop nch).length := by
    rw [List.length_drop]
    omega
  obtain ⟨scfs, istPos₁, istPos, bs', hdecode, hintensity, hist, hscfs, hready, hunset⟩ :=
    granule_spec (fun gr hgr => hgrs gr (List.mem_of_mem_take hgr)) (List.ne_nil_of_length_pos (by omega))
      (htake.le.trans htwo) positions_unset (maxBand 0) bs
  obtain ⟨frame, hrest, hframe, hsets⟩ :=
    decodeGranules_spec maxBand hone htwo left 1 bs' (fun gr hgr => hgrs gr (List.mem_of_mem_drop hgr)) hdrop hist
  rw [htake] at hready
  refine ⟨scfs :: frame, ?_, ?_, fun hset => ?_, fun hunshared => ?_⟩
  · simp only [decodeGranules, hdecode, hintensity, Option.bind_some, hrest, Option.map_some]
  · rw [List.flatten_cons, List.map_append, hscfs, hframe, ← List.map_append, Nat.succ_mul, Nat.add_comm,
      List.take_add]
  · exact hunset (by decide) (hset scfs List.mem_cons_self)
  · obtain ⟨hset, hready⟩ := hready (Or.inl hunshared)
    exact List.forall_mem_cons.2 ⟨hset, hsets hready⟩

/-! ## What is read -/

/-- `scfsi` when a record takes its part of it. -/
def scfsiAt (hdr : Bytes) (gr : L3GrInfo) (scfsi : Nat) : Nat :=
  let scfsi := if hdrIsMono hdr then scfsi <<< 4 else scfsi
  if gr.nShortSfb ≠ 0 then scfsi &&& 0x0F0F else scfsi

/-- The three windows. -/
theorem readWindow_bands {hdr : Bytes} {gr gr' : L3GrInfo} {scfsi scfsi' tables : Nat} {bs bs' : Bs}
    (h : readWindow hdr gr scfsi bs = some (gr', tables, scfsi', bs')) :
    (gr'.nLongSfb = 22 ∧ gr'.nShortSfb = 0 ∨ gr'.nLongSfb = 0 ∧ gr'.nShortSfb = 39 ∨
      gr'.nLongSfb = (if hdrTestMpeg1 hdr then 8 else 6) ∧ gr'.nShortSfb = 30) ∧
      scfsi' = if gr'.nShortSfb ≠ 0 then scfsi &&& 0x0F0F else scfsi := by
  simp only [readWindow, getBits_pair] at h
  by_cases hswitched : readBits bs 1 = 0
  · rw [if_neg (not_not.2 hswitched)] at h
    cases h
    exact ⟨Or.inl ⟨rfl, rfl⟩, rfl⟩
  · rw [if_pos hswitched] at h
    generalize readBits _ 2 = blockType at h
    split at h
    · cases h
    · by_cases hshort : blockType = 2
      · simp only [if_pos hshort] at h
        generalize readBits _ 1 = mixed at h
        by_cases hmixed : mixed = 0
        · simp only [if_pos hmixed] at h
          cases h
          exact ⟨Or.inr (Or.inl ⟨rfl, rfl⟩), rfl⟩
        · simp only [if_neg hmixed] at h
          cases h
          exact ⟨Or.inr (Or.inr ⟨rfl, rfl⟩), rfl⟩
      · simp only [if_neg hshort] at h
        cases h
        exact ⟨Or.inl ⟨rfl, rfl⟩, rfl⟩

theorem scfsi_masked (n : Nat) : (n &&& 0x0F0F) >>> 12 = 0 := by
  have hle : n &&& 0x0F0F ≤ 0x0F0F := Nat.and_le_right
  rw [Nat.shiftRight_eq_div_pow]
  omega

/-- **What a record may be**, and its part of `scfsi`. -/
theorem readGranule_shape {hdr : Bytes} {gr gr' : L3GrInfo} {scfsi scfsi' : Nat} {bs bs' : Bs}
    (hbuf : bs.limit ≤ 8 * bs.buf.length) (h : readGranule hdr gr scfsi bs = some (gr', scfsi', bs')) :
    GrShape hdr gr' ∧ gr'.scfsi = (scfsiAt hdr gr' scfsi >>> 12) &&& 15 ∧ scfsi' = scfsiAt hdr gr' scfsi <<< 4 := by
  simp only [readGranule, getBits_pair] at h
  split at h
  · cases h
  · split at h
    · cases h
    · next gr₁ tables scfsi₁ bs₁ hwindow =>
      obtain ⟨hbands, hscfsi⟩ := readWindow_bands hwindow
      cases h
      refine ⟨⟨hbands, ?_, ?_, ?_, fun hshort => ?_⟩, ?_, ?_⟩
      · -- `scalefac_compress`
        cases hdrTestMpeg1 hdr
        · exact getBits_lt (n := 9) (by decide) (by decide) hbuf
        · exact getBits_lt (n := 4) (by decide) (by decide) hbuf
      · exact getBits_lt (n := 8) (by decide) (by decide) hbuf
      · exact Nat.lt_succ_of_le Nat.and_le_right
      · have hmask : scfsi₁ = _ := hscfsi.trans (if_pos hshort)
        show (scfsi₁ >>> 12) &&& 15 = 0
        rw [hmask, scfsi_masked, Nat.zero_and]
      · exact congrArg (fun s => (s >>> 12) &&& 15) hscfsi
      · exact congrArg (· <<< 4) hscfsi

theorem readGranules_cons {hdr : Bytes} {gr : L3GrInfo} {grs grs' : List L3GrInfo} {scfsi : Nat} {bs bs' : Bs}
    (h : readGranules hdr (gr :: grs) scfsi bs = some (grs', bs')) :
    ∃ gr' scfsi' bs₁ rest, readGranule hdr gr scfsi bs = some (gr', scfsi', bs₁) ∧
      readGranules hdr grs scfsi' bs₁ = some (rest, bs') ∧ grs' = gr' :: rest := by
  rw [readGranules] at h
  split at h
  · cases h
  · next gr₁ scfsi₁ bs₁ hgranule =>
    split at h
    · cases h
    · next grs₁ bs₂ hrest =>
      cases h
      exact ⟨gr₁, scfsi₁, bs₁, grs₁, hgranule, hrest, rfl⟩

/-- Every record of the side information has one of these shapes. -/
theorem readGranules_shape {hdr : Bytes} {grs grs' : List L3GrInfo} {scfsi : Nat} {bs bs' : Bs}
    (hbuf : bs.limit ≤ 8 * bs.buf.length) (h : readGranules hdr grs scfsi bs = some (grs', bs')) :
    ∀ gr ∈ grs', GrShape hdr gr := by
  induction grs generalizing grs' scfsi bs with
  | nil =>
      cases h
      exact fun gr hgr => absurd hgr List.not_mem_nil
  | cons gr grs ih =>
      obtain ⟨gr', scfsi', bs₁, rest, hgranule, hrest, rfl⟩ := readGranules_cons h
      obtain ⟨hbs₁, -, -⟩ := readGranule_pos hgranule
      exact List.forall_mem_cons.2 ⟨(readGranule_shape hbuf hgranule).1, ih (by rw [hbs₁]; exact hbuf) hrest⟩

/-! ## The private bits -/

/-- The bits in front of those that `scfsi` is to have: the private bits of a stereo frame, and the first of a mono
frame. -/
def privateBits (hdr : Bytes) (bs : Bs) : Nat := (readMainDataBegin hdr bs).2.1 >>> 8

theorem readMainDataBegin_scfsi {hdr : Bytes} (hm : hdrTestMpeg1 hdr = true) {bs : Bs}
    (hbuf : bs.limit ≤ 8 * bs.buf.length) : (readMainDataBegin hdr bs).2.1 < if hdrIsMono hdr then 512 else 2048 := by
  simp only [readMainDataBegin, hm, if_true, getBits_pair, grCount]
  cases hdrIsMono hdr
  · exact getBits_lt (n := 11) (by decide) (by decide) hbuf
  · exact getBits_lt (n := 9) (by decide) (by decide) hbuf

/-- The granules of an accepted side information, with what they are read from. -/
theorem l3ReadSideInfo_granules {hdr : Bytes} {gr : List L3GrInfo} {bs : Bs} {si : SideInfo}
    (h : l3ReadSideInfo bs gr hdr = some si) :
    readGranules hdr (gr.take (grCount hdr)) (readMainDataBegin hdr bs).2.1 (readMainDataBegin hdr bs).2.2 =
      some (si.gr, si.bs) := by
  simp only [l3ReadSideInfo] at h
  split at h
  · cases h
  · next grs bs' hgrs =>
    split at h
    · cases h
    · cases h
      exact hgrs

/-- The part of a record that is not masked: the bits above the low eight. -/
theorem scfsi_part {n : Nat} (h : n < 4096) : ((n <<< 4) >>> 12) &&& 15 = n >>> 8 := by
  rw [Nat.and_two_pow_sub_one_eq_mod _ 4, Nat.shiftLeft_eq, Nat.shiftRight_eq_div_pow, Nat.shiftRight_eq_div_pow]
  omega

/-- The mask of a short window leaves the bits above the low eight. -/
theorem scfsiAt_stereo {hdr : Bytes} (hstereo : hdrIsMono hdr = false) (gr : L3GrInfo) {n : Nat} (h : n < 2048) :
    scfsiAt hdr gr n < 2048 ∧ scfsiAt hdr gr n >>> 8 = n >>> 8 := by
  simp only [scfsiAt, hstereo, Bool.false_eq_true, if_false]
  split
  · refine ⟨Nat.lt_of_le_of_lt Nat.and_le_left h, ?_⟩
    have hmask : 0x0F0F >>> 8 = 2 ^ 4 - 1 := rfl
    rw [Nat.shiftRight_and_distrib, hmask, Nat.and_two_pow_sub_one_eq_mod, Nat.shiftRight_eq_div_pow]
    omega
  · exact ⟨h, rfl⟩

/-- **The private bits pass for `scfsi`.** The records of the first granule share nothing exactly when the last of them
has short windows or the bits are 0. -/
theorem firstGranule_scfsi {hdr : Bytes} (hm : hdrTestMpeg1 hdr = true) {gr : List L3GrInfo} {bs : Bs}
    (hbuf : bs.limit ≤ 8 * bs.buf.length) (hgr : grCount hdr ≤ gr.length) {si : SideInfo}
    (h : l3ReadSideInfo bs gr hdr = some si) :
    ∃ last, si.gr[hdrChannels hdr - 1]? = some last ∧
      ((∀ g ∈ si.gr.take (hdrChannels hdr), g.scfsi = 0) ↔ (last.nShortSfb = 0 → privateBits hdr bs = 0)) := by
  have hread := l3ReadSideInfo_granules h
  have hflags := readMainDataBegin_scfsi hm hbuf
  have hbuf₁ : (readMainDataBegin hdr bs).2.2.limit ≤ 8 * (readMainDataBegin hdr bs).2.2.buf.length := by
    rw [(readMainDataBegin_pos hdr hbuf).2]
    exact hbuf
  have hcount : grCount hdr = if hdrIsMono hdr then 2 else 4 := by
    rw [grCount, hm]
    cases hdrIsMono hdr <;> rfl
  rw [privateBits]
  generalize (readMainDataBegin hdr bs).2.1 = flags at hread hflags ⊢
  generalize (readMainDataBegin hdr bs).2.2 = bs₁ at hread hbuf₁
  have htake : (gr.take (grCount hdr)).length = grCount hdr := List.length_take_of_le hgr
  -- what a record takes: nothing for short windows
  have hlast : ∀ {g : L3GrInfo} {n : Nat}, GrShape hdr g → n < 4096 → n >>> 8 = flags >>> 8 →
      (g.nShortSfb = 0 → g.scfsi = ((n <<< 4) >>> 12) &&& 15) →
        (g.scfsi = 0 ↔ (g.nShortSfb = 0 → flags >>> 8 = 0)) := by
    intro g n hshape hn hflags hpart
    by_cases hshort : g.nShortSfb = 0
    · rw [hpart hshort, scfsi_part hn, hflags]
      exact ⟨fun hzero _ => hzero, fun hzero => hzero hshort⟩
    · exact iff_of_true (hshape.scfsi_short hshort) fun hlong => absurd hlong hshort
  rw [hdrChannels]
  cases hmono : hdrIsMono hdr with
  | true =>
      simp only [hmono, if_true] at hflags hcount ⊢
      obtain ⟨gr₀, rest, hgrs⟩ := List.exists_cons_of_length_pos (by rw [htake, hcount]; decide)
      rw [hgrs] at hread
      obtain ⟨g₀, s₁, bs₂, grs, hg₀, -, hsi⟩ := readGranules_cons hread
      obtain ⟨hshape, hpart, -⟩ := readGranule_shape hbuf₁ hg₀
      refine ⟨g₀, by rw [hsi]; rfl, ?_⟩
      rw [hsi, List.take_succ_cons, List.take_zero, List.forall_mem_singleton]
      refine hlast hshape (Nat.lt_of_lt_of_le hflags (by decide)) rfl fun hlong => ?_
      rw [hpart, scfsiAt, hmono, if_pos rfl, if_neg (not_not.2 hlong)]
  | false =>
      simp only [hmono, Bool.false_eq_true, if_false] at hflags hcount ⊢
      obtain ⟨gr₀, rest₀, hgrs⟩ := List.exists_cons_of_length_pos (by rw [htake, hcount]; decide)
      rw [hgrs] at hread htake
      obtain ⟨g₀, s₁, bs₂, grs, hg₀, hread₁, hsi⟩ := readGranules_cons hread
      obtain ⟨-, hpart₀, hs₁⟩ := readGranule_shape hbuf₁ hg₀
      obtain ⟨hbs₂, -, -⟩ := readGranule_pos hg₀
      rw [List.length_cons, hcount] at htake
      have hrest₀ : 0 < rest₀.length := by omega
      obtain ⟨gr₁, rest₁, rfl⟩ := List.exists_cons_of_length_pos hrest₀
      obtain ⟨g₁, s₂, bs₃, grs₁, hg₁, -, rfl⟩ := readGranules_cons hread₁
      obtain ⟨hshape, hpart₁, -⟩ := readGranule_shape (by rw [hbs₂]; exact hbuf₁) hg₁
      obtain ⟨hlt, hsame⟩ := scfsiAt_stereo hmono g₀ hflags
      refine ⟨g₁, by rw [hsi]; rfl, ?_⟩
      rw [hsi, List.take_succ_cons, List.take_succ_cons, List.take_zero, List.forall_mem_cons,
        List.forall_mem_singleton]
      -- the first record takes bits that are not there
      have hfirst : g₀.scfsi = 0 := by
        rw [hpart₀, Nat.shiftRight_eq_div_pow, Nat.div_eq_of_lt (Nat.lt_trans hlt (by decide)), Nat.zero_and]
      rw [and_iff_right hfirst]
      refine hlast hshape (Nat.lt_trans hlt (by decide)) hsame fun hlong => ?_
      rw [hpart₁, hs₁, scfsiAt, hmono, if_neg Bool.false_ne_true, if_neg (not_not.2 hlong)]

/-! ## A frame -/

/-- **The scale factors of an accepted frame.** Reading them touches nothing outside of an array or a table, in any
granule, and finds one for every band. None comes from a cell that was never written if and only if the frame is not
MPEG 1, the last record of its first granule has short windows, or its private bits are 0. -/
theorem scalefactors_set_iff {hdr : Bytes} {gr : List L3GrInfo} {bs : Bs} {si : SideInfo}
    (hbuf : bs.limit ≤ 8 * bs.buf.length) (hgr : grCount hdr ≤ gr.length) (h : l3ReadSideInfo bs gr hdr = some si)
    (maxBand : Nat → Nat → Int) (main : Bs) :
    ∃ frame last, frameScalefactors hdr maxBand si.gr main = some frame ∧
      si.gr[hdrChannels hdr - 1]? = some last ∧ frame.flatten.map List.length = si.gr.map nSfb ∧
      ((∀ scfs ∈ frame, ∀ scf ∈ scfs, AllSet scf) ↔
        (hdrTestMpeg1 hdr = true → last.nShortSfb = 0 → privateBits hdr bs = 0)) := by
  obtain ⟨-, -, hlen, -, -⟩ := sideInfo_spec hbuf hgr h
  have hshape : ∀ g ∈ si.gr, GrShape hdr g := by
    refine readGranules_shape ?_ (l3ReadSideInfo_granules h)
    rw [(readMainDataBegin_pos hdr hbuf).2]
    exact hbuf
  have hch : 1 ≤ hdrChannels hdr ∧ hdrChannels hdr ≤ 2 := by
    rw [hdrChannels]
    split <;> decide
  have hgranules : grCount hdr = (if hdrTestMpeg1 hdr then 2 else 1) * hdrChannels hdr := by
    rw [grCount, hdrChannels]
    split <;> split <;> rfl
  obtain ⟨left, hleft⟩ : ∃ left, (if hdrTestMpeg1 hdr then 2 else 1) = left + 1 := by
    cases hdrTestMpeg1 hdr
    · exact ⟨0, rfl⟩
    · exact ⟨1, rfl⟩
  rw [hleft] at hgranules
  obtain ⟨frame, hframe, hlengths, hiff⟩ :=
    decodeGranules_first maxBand hch.1 hch.2 left main hshape (by rw [hlen, hgranules])
  rw [← hgranules, ← hlen, List.take_length] at hlengths
  rw [frameScalefactors, hleft]
  cases hversion : hdrTestMpeg1 hdr with
  | true =>
      obtain ⟨last, hlast, hprivate⟩ := firstGranule_scfsi hversion hbuf hgr h
      refine ⟨frame, last, hframe, hlast, hlengths, hiff.trans ?_⟩
      simp only [Unshared, hversion, forall_const]
      exact hprivate
  | false =>
      have hinside : hdrChannels hdr - 1 < si.gr.length := by
        rw [hlen, hgranules, Nat.succ_mul]
        omega
      refine ⟨frame, _, hframe, List.getElem?_eq_getElem hinside, hlengths, hiff.trans ?_⟩
      simp [Unshared, hversion]

/-- A stereo MPEG 1 frame. -/
def stereoHdr : Bytes := [0xFF, 0xFB, 0x90, 0x00]

/-- Its side information: long windows without any bits, and one private bit. -/
def privateBit : Bytes := 0x00 :: 0x40 :: List.replicate 30 0

/-- The records that it leaves. -/
def privateInfo : Option SideInfo :=
  l3ReadSideInfo (bsInit privateBit 32)
    (List.replicate 4 ⟨[], 0, 0, 0, 0, 0, 0, 0, 0, (0, 0, 0), (0, 0, 0), (0, 0, 0), 0, 0, 0, 0⟩) stereoHdr

theorem scalefactors_set_iff_private :
    ∃ si frame, privateInfo = some si ∧
      frameScalefactors stereoHdr (fun _ _ => -1) si.gr (bsInit [] 0) = some frame ∧
      ¬ ∀ scfs ∈ frame, ∀ scf ∈ scfs, AllSet scf := by
  obtain ⟨si, hsi⟩ := Option.isSome_iff_exists.1 (by decide +kernel : privateInfo.isSome = true)
  have hlong : privateInfo.bind (fun si => si.gr[hdrChannels stereoHdr - 1]?.map L3GrInfo.nShortSfb) = some 0 := by
    decide +kernel
  have hprivate : privateBits stereoHdr (bsInit privateBit 32) ≠ 0 := by decide +kernel
  obtain ⟨frame, last, hframe, hlast, -, hiff⟩ :=
    scalefactors_set_iff (by decide) (by decide) hsi (fun _ _ => -1) (bsInit [] 0)
  rw [hsi, Option.bind_some, hlast] at hlong
  exact ⟨si, frame, hsi, hframe, fun hset => hprivate (hiff.1 hset rfl (Option.some.inj hlong))⟩

end Casquinha.Decode
