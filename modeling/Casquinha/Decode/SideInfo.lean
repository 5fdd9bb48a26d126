import Casquinha.Decode.Header

/-!
# The side information of a Layer III frame (`src/minimp3.h`)

`l3ReadSideInfo` reads where the main data of a frame begins and, for every granule and channel, the record
`L3GrInfo` that the main data is decoded with. Two conditions are checked on the way, `big_values` and the block
type, and a third one at the end: the granules end where the frame's main data does.

The format is stated as an encoder. A `GranuleCode` is what an encoder can choose, each field in its range, and
`GranuleCode.bits` writes it. Reading undoes writing (`readGranule_written`); what is accepted was written
(`readGranule_accepts`).
-/

set_option autoImplicit false

namespace Casquinha.Decode

open Lib

/-! ## Scale factor bands -/

/-- `g_scf_long`. -/
def gScfLong : List (List Nat) :=
  [[6, 6, 6, 6, 6, 6, 8, 10, 12, 14, 16, 20, 24, 28, 32, 38, 46, 52, 60, 68, 58, 54, 0],
    [12, 12, 12, 12, 12, 12, 16, 20, 24, 28, 32, 40, 48, 56, 64, 76, 90, 2, 2, 2, 2, 2, 0],
    [6, 6, 6, 6, 6, 6, 8, 10, 12, 14, 16, 20, 24, 28, 32, 38, 46, 52, 60, 68, 58, 54, 0],
    [6, 6, 6, 6, 6, 6, 8, 10, 12, 14, 16, 18, 22, 26, 32, 38, 46, 54, 62, 70, 76, 36, 0],
    [6, 6, 6, 6, 6, 6, 8, 10, 12, 14, 16, 20, 24, 28, 32, 38, 46, 52, 60, 68, 58, 54, 0],
    [4, 4, 4, 4, 4, 4, 6, 6, 8, 8, 10, 12, 16, 20, 24, 28, 34, 42, 50, 54, 76, 158, 0],
    [4, 4, 4, 4, 4, 4, 6, 6, 6, 8, 10, 12, 16, 18, 22, 28, 34, 40, 46, 54, 54, 192, 0],
    [4, 4, 4, 4, 4, 4, 6, 6, 8, 10, 12, 16, 20, 24, 30, 38, 46, 56, 68, 84, 102, 26, 0]]

/-- `g_scf_short`. -/
def gScfShort : List (List Nat) :=
  [[4, 4, 4, 4, 4, 4, 4, 4, 4, 6, 6, 6, 8, 8, 8, 10, 10, 10, 12, 12, 12, 14, 14, 14, 18, 18, 18, 24, 24, 24, 30,
      30, 30, 40, 40, 40, 18, 18, 18, 0],
    [8, 8, 8, 8, 8, 8, 8, 8, 8, 12, 12, 12, 16, 16, 16, 20, 20, 20, 24, 24, 24, 28, 28, 28, 36, 36, 36, 2, 2, 2,
      2, 2, 2, 2, 2, 2, 26, 26, 26, 0],
    [4, 4, 4, 4, 4, 4, 4, 4, 4, 6, 6, 6, 6, 6, 6, 8, 8, 8, 10, 10, 10, 14, 14, 14, 18, 18, 18, 26, 26, 26, 32, 32,
      32, 42, 42, 42, 18, 18, 18, 0],
    [4, 4, 4, 4, 4, 4, 4, 4, 4, 6, 6, 6, 8, 8, 8, 10, 10, 10, 12, 12, 12, 14, 14, 14, 18, 18, 18, 24, 24, 24, 32,
      32, 32, 44, 44, 44, 12, 12, 12, 0],
    [4, 4, 4, 4, 4, 4, 4, 4, 4, 6, 6, 6, 8, 8, 8, 10, 10, 10, 12, 12, 12, 14, 14, 14, 18, 18, 18, 24, 24, 24, 30,
      30, 30, 40, 40, 40, 18, 18, 18, 0],
    [4, 4, 4, 4, 4, 4, 4, 4, 4, 4, 4, 4, 6, 6, 6, 8, 8, 8, 10, 10, 10, 12, 12, 12, 14, 14, 14, 18, 18, 18, 22, 22,
      22, 30, 30, 30, 56, 56, 56, 0],
    [4, 4, 4, 4, 4, 4, 4, 4, 4, 4, 4, 4, 6, 6, 6, 6, 6, 6, 10, 10, 10, 12, 12, 12, 14, 14, 14, 16, 16, 16, 20, 20,
      20, 26, 26, 26, 66, 66, 66, 0],
    [4, 4, 4, 4, 4, 4, 4, 4, 4, 4, 4, 4, 6, 6, 6, 8, 8, 8, 12, 12, 12, 16, 16, 16, 20, 20, 20, 26, 26, 26, 34, 34,
      34, 42, 42, 42, 12, 12, 12, 0]]

/-- `g_scf_mixed`, without the zeros that fill up a row. -/
def gScfMixed : List (List Nat) :=
  [[6, 6, 6, 6, 6, 6, 6, 6, 6, 8, 8, 8, 10, 10, 10, 12, 12, 12, 14, 14, 14, 18, 18, 18, 24, 24, 24, 30, 30, 30, 40,
      40, 40, 18, 18, 18, 0],
    [12, 12, 12, 4, 4, 4, 8, 8, 8, 12, 12, 12, 16, 16, 16, 20, 20, 20, 24, 24, 24, 28, 28, 28, 36, 36, 36, 2, 2, 2,
      2, 2, 2, 2, 2, 2, 26, 26, 26, 0],
    [6, 6, 6, 6, 6, 6, 6, 6, 6, 6, 6, 6, 8, 8, 8, 10, 10, 10, 14, 14, 14, 18, 18, 18, 26, 26, 26, 32, 32, 32, 42, 42,
      42, 18, 18, 18, 0],
    [6, 6, 6, 6, 6, 6, 6, 6, 6, 8, 8, 8, 10, 10, 10, 12, 12, 12, 14, 14, 14, 18, 18, 18, 24, 24, 24, 32, 32, 32, 44,
      44, 44, 12, 12, 12, 0],
    [6, 6, 6, 6, 6, 6, 6, 6, 6, 8, 8, 8, 10, 10, 10, 12, 12, 12, 14, 14, 14, 18, 18, 18, 24, 24, 24, 30, 30, 30, 40,
      40, 40, 18, 18, 18, 0],
    [4, 4, 4, 4, 4, 4, 6, 6, 4, 4, 4, 6, 6, 6, 8, 8, 8, 10, 10, 10, 12, 12, 12, 14, 14, 14, 18, 18, 18, 22, 22, 22,
      30, 30, 30, 56, 56, 56, 0],
    [4, 4, 4, 4, 4, 4, 6, 6, 4, 4, 4, 6, 6, 6, 6, 6, 6, 10, 10, 10, 12, 12, 12, 14, 14, 14, 16, 16, 16, 20, 20, 20,
      26, 26, 26, 66, 66, 66, 0],
    [4, 4, 4, 4, 4, 4, 6, 6, 4, 4, 4, 6, 6, 6, 8, 8, 8, 12, 12, 12, 16, 16, 16, 20, 20, 20, 26, 26, 26, 34, 34, 34,
      42, 42, 42, 12, 12, 12, 0]]

/-- The row of the band tables. -/
def srIdx (hdr : Bytes) : Nat := hdrGetMySampleRate hdr - (hdrGetMySampleRate hdr != 0).toNat

/-! ## Reading -/

/-- `L3_gr_info_t`. The fields are wide enough for what is put into them. -/
structure L3GrInfo where
  sfbtab : List Nat
  part23Length : Nat
  bigValues : Nat
  scalefacCompress : Nat
  globalGain : Nat
  blockType : Nat
  mixedBlockFlag : Nat
  nLongSfb : Nat
  nShortSfb : Nat
  tableSelect : Nat × Nat × Nat
  regionCount : Nat × Nat × Nat
  subblockGain : Nat × Nat × Nat
  preflag : Nat
  scalefacScale : Nat
  count1Table : Nat
  scfsi : Nat
deriving DecidableEq

/-- The branch on `get_bits(bs, 1)`: the window of the granule, `tables`, and the masked `scfsi`. What a branch
does not set keeps its old value. -/
def readWindow (hdr : Bytes) (gr : L3GrInfo) (scfsi : Nat) (bs : Bs) : Option (L3GrInfo × Nat × Nat × Bs) :=
  let gr := { gr with
    sfbtab := gScfLong.getD (srIdx hdr) []
    nLongSfb := 22
    nShortSfb := 0 }
  let (switched, bs) := getBits bs 1
  if switched ≠ 0 then
    let (blockType, bs) := getBits bs 2
    if blockType = 0 then none
    else
      let (mixed, bs) := getBits bs 1
      let gr := { gr with
        blockType := blockType
        mixedBlockFlag := mixed
        regionCount := (7, 255, gr.regionCount.2.2) }
      -- short windows share no scale factors
      let (gr, scfsi) :=
        if blockType = 2 then
          (if mixed = 0 then
            { gr with
              regionCount := (8, 255, gr.regionCount.2.2)
              sfbtab := gScfShort.getD (srIdx hdr) []
              nLongSfb := 0
              nShortSfb := 39 }
          else
            { gr with
              sfbtab := gScfMixed.getD (srIdx hdr) []
              nLongSfb := if hdrTestMpeg1 hdr then 8 else 6
              nShortSfb := 30 }, scfsi &&& 0x0F0F)
        else (gr, scfsi)
      let (tables, bs) := getBits bs 10
      let (gain₀, bs) := getBits bs 3
      let (gain₁, bs) := getBits bs 3
      let (gain₂, bs) := getBits bs 3
      some ({ gr with subblockGain := (gain₀, gain₁, gain₂) }, tables <<< 5, scfsi, bs)
  else
    let (tables, bs) := getBits bs 15
    let (region₀, bs) := getBits bs 4
    let (region₁, bs) := getBits bs 3
    some
      ({ gr with
        blockType := 0
        mixedBlockFlag := 0
        regionCount := (region₀, region₁, 255) }, tables, scfsi, bs)

/-- One round of the loop: the record of one granule and channel, and `scfsi` for the next one. `none` is the
answer -1. -/
def readGranule (hdr : Bytes) (gr : L3GrInfo) (scfsi : Nat) (bs : Bs) : Option (L3GrInfo × Nat × Bs) :=
  let scfsi := if hdrIsMono hdr then scfsi <<< 4 else scfsi
  let (part23Length, bs) := getBits bs 12
  let (bigValues, bs) := getBits bs 9
  if 288 < bigValues then none
  else
    let (globalGain, bs) := getBits bs 8
    let (scalefacCompress, bs) := getBits bs (if hdrTestMpeg1 hdr then 4 else 9)
    match readWindow hdr gr scfsi bs with
    | none => none
    | some (gr, tables, scfsi, bs) =>
        let (preflag, bs) := if hdrTestMpeg1 hdr then getBits bs 1 else ((decide (500 ≤ scalefacCompress)).toNat, bs)
        let (scalefacScale, bs) := getBits bs 1
        let (count1Table, bs) := getBits bs 1
        some
          ({ gr with
            part23Length := part23Length
            bigValues := bigValues
            globalGain := globalGain
            scalefacCompress := scalefacCompress
            tableSelect := (tables >>> 10, (tables >>> 5) &&& 31, tables &&& 31)
            preflag := preflag
            scalefacScale := scalefacScale
            count1Table := count1Table
            scfsi := (scfsi >>> 12) &&& 15 }, scfsi <<< 4, bs)

/-- `do … while(--gr_count)`, over the records of the scratch memory. -/
def readGranules (hdr : Bytes) : List L3GrInfo → Nat → Bs → Option (List L3GrInfo × Bs)
  | [], _, bs => some ([], bs)
  | gr :: grs, scfsi, bs =>
      match readGranule hdr gr scfsi bs with
      | none => none
      | some (gr, scfsi, bs) =>
          match readGranules hdr grs scfsi bs with
          | none => none
          | some (grs, bs) => some (gr :: grs, bs)

/-- `gr_count` of the loop. -/
def grCount (hdr : Bytes) : Nat :=
  (if hdrIsMono hdr then 1 else 2) * if hdrTestMpeg1 hdr then 2 else 1

/-- What `L3_read_side_info` returns and leaves. -/
structure SideInfo where
  mainDataBegin : Nat
  gr : List L3GrInfo
  bs : Bs
deriving DecidableEq

/-- `part_23_sum`. -/
def part23Sum (gr : List L3GrInfo) : Nat := (gr.map L3GrInfo.part23Length).sum

/-- `main_data_begin` and `scfsi`. -/
def readMainDataBegin (hdr : Bytes) (bs : Bs) : Nat × Nat × Bs :=
  if hdrTestMpeg1 hdr then
    let (mainDataBegin, bs) := getBits bs 9
    let (scfsi, bs) := getBits bs (7 + grCount hdr)
    (mainDataBegin, scfsi, bs)
  else
    let (v, bs) := getBits bs (8 + grCount hdr)
    (v >>> grCount hdr, 0, bs)

/-- `L3_read_side_info`: `none` is the answer -1. `gr` is the array of the scratch memory. -/
def l3ReadSideInfo (bs : Bs) (gr : List L3GrInfo) (hdr : Bytes) : Option SideInfo :=
  let (mainDataBegin, scfsi, bs) := readMainDataBegin hdr bs
  match readGranules hdr (gr.take (grCount hdr)) scfsi bs with
  | none => none
  | some (gr, bs) =>
      if bs.limit + mainDataBegin * 8 < ↑(part23Sum gr + bs.pos) then none
      else some ⟨mainDataBegin, gr, bs⟩

/-! ## Where the reader stands -/

/-- The number that a read answers with. -/
def readBits (bs : Bs) (n : Nat) : Nat := (getBits bs n).1

theorem getBits_pair (bs : Bs) (n : Nat) : getBits bs n = (readBits bs n, { bs with pos := bs.pos + n }) := by
  rw [readBits, ← getBits_snd]

theorem readWindow_pos {hdr : Bytes} {gr gr' : L3GrInfo} {scfsi scfsi' tables : Nat} {bs bs' : Bs}
    (h : readWindow hdr gr scfsi bs = some (gr', tables, scfsi', bs')) :
    bs' = { bs with pos := bs.pos + 23 } := by
  simp only [readWindow, getBits_pair] at h
  split at h
  · split at h
    · cases h
    · cases h
      rfl
  · cases h
    rfl

/-- The bits of one granule and channel. -/
def granuleBits (hdr : Bytes) : Nat := if hdrTestMpeg1 hdr then 59 else 63

/-- A granule takes as many bits as its version says, and its main data is shorter than 4096 bits. -/
theorem readGranule_pos {hdr : Bytes} {gr gr' : L3GrInfo} {scfsi scfsi' : Nat} {bs bs' : Bs}
    (h : readGranule hdr gr scfsi bs = some (gr', scfsi', bs')) :
    bs' = { bs with pos := bs.pos + granuleBits hdr } ∧ gr'.part23Length = readBits bs 12 ∧
      gr'.bigValues ≤ 288 := by
  simp only [readGranule, getBits_pair] at h
  split at h
  · cases h
  · next hbig =>
    split at h
    · cases h
    · next gr₁ tables scfsi₁ bs₁ hwindow =>
      have hpos := readWindow_pos hwindow
      cases h
      refine ⟨?_, rfl, Nat.le_of_not_lt hbig⟩
      rw [hpos, granuleBits]
      split <;> rfl

theorem readGranules_pos {hdr : Bytes} :
    ∀ {grs grs' : List L3GrInfo} {scfsi : Nat} {bs bs' : Bs}, bs.limit ≤ 8 * bs.buf.length →
      readGranules hdr grs scfsi bs = some (grs', bs') →
      bs' = { bs with pos := bs.pos + grs.length * granuleBits hdr } ∧ grs'.length = grs.length ∧
        ∀ gr ∈ grs', gr.part23Length < 4096 ∧ gr.bigValues ≤ 288 := by
  intro grs
  induction grs with
  | nil =>
      intro grs' scfsi bs bs' _ h
      cases h
      exact ⟨by simp, rfl, fun gr hgr => absurd hgr List.not_mem_nil⟩
  | cons gr grs ih =>
      intro grs' scfsi bs bs' hbuf h
      rw [readGranules] at h
      split at h
      · cases h
      · next gr₁ scfsi₁ bs₁ hgranule =>
        split at h
        · cases h
        · next grs₁ bs₂ hrest =>
          obtain ⟨hbs₁, hpart, hbig⟩ := readGranule_pos hgranule
          subst hbs₁
          obtain ⟨hbs₂, hlen, hall⟩ := ih (by exact hbuf) hrest
          cases h
          refine ⟨?_, by rw [List.length_cons, List.length_cons, hlen], ?_⟩
          · rw [hbs₂, List.length_cons, Nat.succ_mul, Nat.add_comm (grs.length * _), Nat.add_assoc]
          · refine List.forall_mem_cons.2 ⟨⟨?_, hbig⟩, hall⟩
            rw [hpart]
            exact getBits_lt (by decide) (by decide) hbuf

/-- The bits of the side information: 17 bytes or 32 of MPEG 1, 9 or 17 of MPEG 2. -/
def sideInfoBits (hdr : Bytes) : Nat :=
  if hdrTestMpeg1 hdr then if hdrIsMono hdr then 136 else 256 else if hdrIsMono hdr then 72 else 136

theorem readMainDataBegin_pos (hdr : Bytes) {bs : Bs} (hbuf : bs.limit ≤ 8 * bs.buf.length) :
    (readMainDataBegin hdr bs).1 < 512 ∧
      (readMainDataBegin hdr bs).2.2 =
        { bs with pos := bs.pos + (sideInfoBits hdr - grCount hdr * granuleBits hdr) } := by
  have hbits := @getBits_lt bs
  simp only [readMainDataBegin, getBits_pair, sideInfoBits, grCount, granuleBits]
  cases hdrTestMpeg1 hdr <;> cases hdrIsMono hdr
  · refine ⟨?_, rfl⟩
    have hlt : readBits bs (8 + 2 * 1) < 2 ^ 10 := hbits (by decide) (by decide) hbuf
    simp only [Bool.false_eq_true, if_false, Nat.shiftRight_eq_div_pow]
    omega
  · refine ⟨?_, rfl⟩
    have hlt : readBits bs (8 + 1 * 1) < 2 ^ 9 := hbits (by decide) (by decide) hbuf
    simp only [Bool.false_eq_true, if_false, if_true, Nat.shiftRight_eq_div_pow]
    omega
  · exact ⟨hbits (n := 9) (by decide) (by decide) hbuf, rfl⟩
  · exact ⟨hbits (n := 9) (by decide) (by decide) hbuf, rfl⟩

/-- **What an accepted side information says**, whatever the bits are: the reader has moved on by its length, and
the main data of its granules ends within the frame. -/
theorem sideInfo_spec {hdr : Bytes} {gr : List L3GrInfo} {bs : Bs} {si : SideInfo}
    (hbuf : bs.limit ≤ 8 * bs.buf.length) (hgr : grCount hdr ≤ gr.length) (h : l3ReadSideInfo bs gr hdr = some si) :
    si.bs = { bs with pos := bs.pos + sideInfoBits hdr } ∧ si.mainDataBegin < 512 ∧
      si.gr.length = grCount hdr ∧ (∀ g ∈ si.gr, g.part23Length < 4096 ∧ g.bigValues ≤ 288) ∧
      (↑(part23Sum si.gr + si.bs.pos) : Int) ≤ bs.limit + si.mainDataBegin * 8 := by
  obtain ⟨hmain, hbs⟩ := readMainDataBegin_pos hdr hbuf
  simp only [l3ReadSideInfo, hbs] at h
  split at h
  · cases h
  · next grs bs' hgrs =>
    obtain ⟨hbs', hlen, hall⟩ := readGranules_pos (by exact hbuf) hgrs
    split at h
    · cases h
    · next hends =>
      cases h
      rw [List.length_take_of_le hgr] at hlen hbs'
      have hsum : sideInfoBits hdr - grCount hdr * granuleBits hdr + grCount hdr * granuleBits hdr =
          sideInfoBits hdr := by
        simp only [sideInfoBits, grCount, granuleBits]
        cases hdrTestMpeg1 hdr <;> cases hdrIsMono hdr <;> rfl
      rw [Nat.add_assoc, hsum] at hbs'
      refine ⟨hbs', hmain, hlen, hall, ?_⟩
      rw [hbs'] at hends ⊢
      exact Int.not_lt.1 hends

/-! ## What the records held before -/

/-- A window is accepted and read in the same way whatever the record held. -/
theorem readWindow_record (hdr : Bytes) (gr gr' : L3GrInfo) (scfsi : Nat) (bs : Bs) :
    readWindow hdr gr scfsi bs = none ∧ readWindow hdr gr' scfsi bs = none ∨
      ∃ g g' r, readWindow hdr gr scfsi bs = some (g, r) ∧ readWindow hdr gr' scfsi bs = some (g', r) := by
  simp only [readWindow]
  split
  · split
    · exact Or.inl ⟨rfl, rfl⟩
    · split <;> exact Or.inr ⟨_, _, _, rfl, rfl⟩
  · exact Or.inr ⟨_, _, _, rfl, rfl⟩

/-- So is a granule, and it reserves the same main data. -/
theorem readGranule_record (hdr : Bytes) (gr gr' : L3GrInfo) (scfsi : Nat) (bs : Bs) :
    (readGranule hdr gr scfsi bs).map (fun r => (r.1.part23Length, r.2)) =
      (readGranule hdr gr' scfsi bs).map (fun r => (r.1.part23Length, r.2)) := by
  simp only [readGranule]
  split
  · rfl
  · rcases readWindow_record hdr gr gr' _ _ with ⟨h, h'⟩ | ⟨g, g', ⟨tables, s, bs'⟩, h, h'⟩
    · rw [h, h']
    · rw [h, h']
      rfl

theorem readGranules_record (hdr : Bytes) : ∀ {grs grs' : List L3GrInfo}, grs.length = grs'.length →
    ∀ (scfsi : Nat) (bs : Bs),
      (readGranules hdr grs scfsi bs).map (fun r => (r.1.map L3GrInfo.part23Length, r.2)) =
        (readGranules hdr grs' scfsi bs).map (fun r => (r.1.map L3GrInfo.part23Length, r.2)) := by
  intro grs
  induction grs with
  | nil =>
      intro grs' hlen scfsi bs
      rw [List.length_eq_zero_iff.1 hlen.symm]
  | cons gr grs ih =>
      intro grs' hlen scfsi bs
      cases grs' with
      | nil => cases hlen
      | cons gr' grs' =>
          have hfirst := readGranule_record hdr gr gr' scfsi bs
          rw [readGranules, readGranules]
          cases h : readGranule hdr gr scfsi bs with
          | none =>
              rw [h, Option.map_none] at hfirst
              rw [Option.map_eq_none_iff.1 hfirst.symm]
          | some r =>
              rw [h, Option.map_some] at hfirst
              obtain ⟨r', h', heq⟩ := Option.map_eq_some_iff.1 hfirst.symm
              obtain ⟨g, s, bs₁⟩ := r
              obtain ⟨g', s', bs₁'⟩ := r'
              simp only [Prod.mk.injEq] at heq
              obtain ⟨hpart, rfl, rfl⟩ := heq
              have hrest := ih (Nat.succ.inj hlen) s' bs₁'
              rw [h']
              simp only
              cases h₁ : readGranules hdr grs s' bs₁' with
              | none =>
                  rw [h₁, Option.map_none] at hrest
                  rw [Option.map_eq_none_iff.1 hrest.symm]
              | some q =>
                  rw [h₁, Option.map_some] at hrest
                  obtain ⟨q', h₁', heq₁⟩ := Option.map_eq_some_iff.1 hrest.symm
                  obtain ⟨hmap, hbs⟩ := Prod.mk.inj heq₁
                  rw [h₁']
                  simp only [Option.map_some, List.map_cons, hmap, hbs, hpart]

/-- What the decoder needs of the side information to find its way: where the main data begins, the bits of each
granule, and where the reader stands. -/
def SideInfo.lengths (si : SideInfo) : Nat × List Nat × Bs :=
  (si.mainDataBegin, si.gr.map L3GrInfo.part23Length, si.bs)

/-- **The records of the scratch memory make no difference** to what is accepted, nor to its lengths. -/
theorem l3ReadSideInfo_record (bs : Bs) {gr gr' : List L3GrInfo} (hlen : gr.length = gr'.length) (hdr : Bytes) :
    (l3ReadSideInfo bs gr hdr).map SideInfo.lengths = (l3ReadSideInfo bs gr' hdr).map SideInfo.lengths := by
  rcases hmain : readMainDataBegin hdr bs with ⟨mainDataBegin, scfsi, bs'⟩
  have htake : (gr.take (grCount hdr)).length = (gr'.take (grCount hdr)).length := by
    rw [List.length_take, List.length_take, hlen]
  have hgrs := readGranules_record hdr htake scfsi bs'
  simp only [l3ReadSideInfo, hmain]
  cases h : readGranules hdr (gr.take (grCount hdr)) scfsi bs' with
  | none =>
      rw [h, Option.map_none] at hgrs
      rw [Option.map_eq_none_iff.1 hgrs.symm]
  | some r =>
      rw [h, Option.map_some] at hgrs
      obtain ⟨r', h', heq⟩ := Option.map_eq_some_iff.1 hgrs.symm
      obtain ⟨hmap, hbs⟩ := Prod.mk.inj heq
      have hsum : part23Sum r'.1 = part23Sum r.1 := by rw [part23Sum, part23Sum, hmap]
      rw [h']
      simp only [hsum, hbs]
      split
      · rfl
      · simp only [Option.map_some, SideInfo.lengths, hmap]

/-! ## Writing -/

/-- What an encoder chooses for the window of a granule. The block type is one more than its field here. -/
inductive WindowCode where
  | long (table₀ table₁ table₂ : Fin 32) (region₀ : Fin 16) (region₁ : Fin 8)
  | switched (blockType : Fin 3) (mixed : Bool) (table₀ table₁ : Fin 32) (gain₀ gain₁ gain₂ : Fin 8)

/-- What an encoder chooses for one granule and channel. -/
structure GranuleCode (mpeg1 : Bool) where
  part23Length : Fin 4096
  bigValues : Fin 289
  globalGain : Fin 256
  scalefacCompress : Fin (2 ^ if mpeg1 then 4 else 9)
  window : WindowCode
  /-- Written in MPEG 1 only. -/
  preflag : Bool
  scalefacScale : Bool
  count1Table : Bool

namespace WindowCode

/-- `tables`: the table numbers, five bits each. -/
def tables : WindowCode → Nat
  | long table₀ table₁ table₂ _ _ => table₀ * 1024 + table₁ * 32 + table₂
  | switched _ _ table₀ table₁ _ _ _ => table₀ * 1024 + table₁ * 32

/-- The 23 bits of the window. -/
def bits : WindowCode → List Bool
  | long table₀ table₁ table₂ region₀ region₁ =>
      msbBits 1 0 ++ (msbBits 15 (table₀ * 1024 + table₁ * 32 + table₂) ++ (msbBits 4 region₀ ++ msbBits 3 region₁))
  | switched blockType mixed table₀ table₁ gain₀ gain₁ gain₂ =>
      msbBits 1 1 ++ (msbBits 2 (blockType + 1) ++ (msbBits 1 mixed.toNat ++ (msbBits 10 (table₀ * 32 + table₁) ++
        (msbBits 3 gain₀ ++ (msbBits 3 gain₁ ++ msbBits 3 gain₂)))))

/-- The window is a short one. -/
def short : WindowCode → Bool
  | long .. => false
  | switched blockType .. => blockType == 1

/-- `scfsi` behind the window: short windows share no scale factors. -/
def scfsi (w : WindowCode) (scfsi : Nat) : Nat := if w.short then scfsi &&& 0x0F0F else scfsi

/-- The record that the window leaves. -/
def info (hdr : Bytes) (gr : L3GrInfo) : WindowCode → L3GrInfo
  | long _ _ _ region₀ region₁ =>
      { gr with
        sfbtab := gScfLong.getD (srIdx hdr) []
        nLongSfb := 22
        nShortSfb := 0
        blockType := 0
        mixedBlockFlag := 0
        regionCount := (region₀, region₁, 255) }
  | switched blockType mixed _ _ gain₀ gain₁ gain₂ =>
      let bands :=
        if blockType = 1 then
          if mixed then (gScfMixed.getD (srIdx hdr) [], if hdrTestMpeg1 hdr then 8 else 6, 30)
          else (gScfShort.getD (srIdx hdr) [], 0, 39)
        else (gScfLong.getD (srIdx hdr) [], 22, 0)
      { gr with
        sfbtab := bands.1
        nLongSfb := bands.2.1
        nShortSfb := bands.2.2
        blockType := blockType + 1
        mixedBlockFlag := mixed.toNat
        regionCount := (if blockType = 1 ∧ mixed = false then 8 else 7, 255, gr.regionCount.2.2)
        subblockGain := (gain₀, gain₁, gain₂) }

/-- The table numbers. -/
def tableSelect : WindowCode → Nat × Nat × Nat
  | long table₀ table₁ table₂ _ _ => (table₀, table₁, table₂)
  | switched _ _ table₀ table₁ _ _ _ => (table₀, table₁, 0)

@[simp] theorem length_bits (w : WindowCode) : w.bits.length = 23 := by
  cases w <;> simp [bits]

theorem split_tables (w : WindowCode) : (w.tables >>> 10, (w.tables >>> 5) &&& 31, w.tables &&& 31) = w.tableSelect := by
  have hand : ∀ n : Nat, n &&& 31 = n % 32 := fun n => Nat.and_two_pow_sub_one_eq_mod n 5
  cases w <;> simp only [tables, tableSelect, hand, Nat.shiftRight_eq_div_pow, Prod.mk.injEq] <;> omega

end WindowCode

namespace GranuleCode

variable {mpeg1 : Bool}

/-- The bits of one granule and channel. -/
def bits (c : GranuleCode mpeg1) : List Bool :=
  msbBits 12 c.part23Length ++ (msbBits 9 c.bigValues ++ (msbBits 8 c.globalGain ++
    (msbBits (if mpeg1 then 4 else 9) c.scalefacCompress ++ (c.window.bits ++
      ((if mpeg1 then msbBits 1 c.preflag.toNat else []) ++
        (msbBits 1 c.scalefacScale.toNat ++ msbBits 1 c.count1Table.toNat))))))

/-- `scfsi` when the record takes its part of it. -/
def scfsi (hdr : Bytes) (c : GranuleCode mpeg1) (s : Nat) : Nat :=
  c.window.scfsi (if hdrIsMono hdr then s <<< 4 else s)

/-- The record of one granule and channel. -/
def info (hdr : Bytes) (gr : L3GrInfo) (s : Nat) (c : GranuleCode mpeg1) : L3GrInfo :=
  { c.window.info hdr gr with
    part23Length := c.part23Length
    bigValues := c.bigValues
    globalGain := c.globalGain
    scalefacCompress := c.scalefacCompress
    tableSelect := c.window.tableSelect
    preflag := if mpeg1 then c.preflag.toNat else (decide (500 ≤ (c.scalefacCompress : Nat))).toNat
    scalefacScale := c.scalefacScale.toNat
    count1Table := c.count1Table.toNat
    scfsi := (c.scfsi hdr s >>> 12) &&& 15 }

theorem length_bits (c : GranuleCode mpeg1) : c.bits.length = if mpeg1 then 59 else 63 := by
  cases mpeg1 <;> simp [bits]

end GranuleCode

/-- **A window that was written is read.** -/
theorem readWindow_written (hdr : Bytes) (gr : L3GrInfo) (s : Nat) {bs : Bs} {w : WindowCode} {rest : List Bool}
    (h : Ahead bs (w.bits ++ rest)) :
    readWindow hdr gr s bs = some (w.info hdr gr, w.tables, w.scfsi s, { bs with pos := bs.pos + 23 }) ∧
      Ahead { bs with pos := bs.pos + 23 } rest := by
  cases w with
  | long table₀ table₁ table₂ region₀ region₁ =>
      simp only [WindowCode.bits, List.append_assoc] at h
      obtain ⟨h1, h⟩ := h.getBits (by decide) (by decide) (by decide)
      obtain ⟨h2, h⟩ := h.getBits (by decide) (by decide) (by omega)
      obtain ⟨h3, h⟩ := h.getBits (by decide) (by decide) region₀.isLt
      obtain ⟨h4, h⟩ := h.getBits (by decide) (by decide) region₁.isLt
      refine ⟨?_, h⟩
      simp only [readWindow, h1, h2, h3, h4, ne_eq, not_true_eq_false, if_false]
      rfl
  | switched blockType mixed table₀ table₁ gain₀ gain₁ gain₂ =>
      simp only [WindowCode.bits, List.append_assoc] at h
      obtain ⟨h1, h⟩ := h.getBits (by decide) (by decide) (by decide)
      obtain ⟨h2, h⟩ := h.getBits (by decide) (by decide) (by omega)
      obtain ⟨h3, h⟩ := h.getBits (by decide) (by decide) (Nat.lt_succ_of_le (Bool.toNat_le mixed))
      obtain ⟨h4, h⟩ := h.getBits (by decide) (by decide) (by omega)
      obtain ⟨h5, h⟩ := h.getBits (by decide) (by decide) gain₀.isLt
      obtain ⟨h6, h⟩ := h.getBits (by decide) (by decide) gain₁.isLt
      obtain ⟨h7, h⟩ := h.getBits (by decide) (by decide) gain₂.isLt
      refine ⟨?_, h⟩
      have htables : (table₀ * 32 + table₁ : Nat) <<< 5 = table₀ * 1024 + table₁ * 32 := by
        rw [Nat.shiftLeft_eq]
        omega
      simp only [readWindow, h1, h2, h3, h4, h5, h6, h7, htables]
      match blockType, mixed with
      | 0, _ | 1, true | 1, false | 2, _ => rfl

theorem toNat_lt_two (b : Bool) : b.toNat < 2 ^ 1 := Nat.lt_succ_of_le (Bool.toNat_le b)

/-- **A granule that was written is read.** -/
theorem readGranule_written {hdr : Bytes} {mpeg1 : Bool} (hm : hdrTestMpeg1 hdr = mpeg1) (gr : L3GrInfo) (s : Nat)
    {bs : Bs} {c : GranuleCode mpeg1} {rest : List Bool} (h : Ahead bs (c.bits ++ rest)) :
    readGranule hdr gr s bs =
        some (c.info hdr gr s, c.scfsi hdr s <<< 4, { bs with pos := bs.pos + granuleBits hdr }) ∧
      Ahead { bs with pos := bs.pos + granuleBits hdr } rest := by
  have hbig : ¬ 288 < (c.bigValues : Nat) := Nat.not_lt.2 (Nat.le_of_lt_succ c.bigValues.isLt)
  simp only [GranuleCode.bits, List.append_assoc] at h
  obtain ⟨h1, h⟩ := h.getBits (by decide) (by decide) c.part23Length.isLt
  obtain ⟨h2, h⟩ := h.getBits (by decide) (by decide) (by omega)
  obtain ⟨h3, h⟩ := h.getBits (by decide) (by decide) c.globalGain.isLt
  obtain ⟨h4, h⟩ := h.getBits (by split <;> decide) (by split <;> decide) c.scalefacCompress.isLt
  obtain ⟨h5, h⟩ := readWindow_written hdr gr (if hdrIsMono hdr then s <<< 4 else s) h
  simp only [readGranule, hm, h1, h2, h3, h4, h5, if_neg hbig, WindowCode.split_tables]
  cases mpeg1 with
  | true =>
      obtain ⟨h6, h⟩ := h.getBits (by decide) (by decide) (toNat_lt_two c.preflag)
      obtain ⟨h7, h⟩ := h.getBits (by decide) (by decide) (toNat_lt_two c.scalefacScale)
      obtain ⟨h8, h⟩ := h.getBits (by decide) (by decide) (toNat_lt_two c.count1Table)
      simp only [if_true] at h6 h7 h8 ⊢
      rw [h6, h7, h8, granuleBits, hm]
      exact ⟨rfl, h⟩
  | false =>
      -- `preflag` is not written
      obtain ⟨h7, h⟩ := h.getBits (by decide) (by decide) (toNat_lt_two c.scalefacScale)
      obtain ⟨h8, h⟩ := h.getBits (by decide) (by decide) (toNat_lt_two c.count1Table)
      simp only [Bool.false_eq_true, if_false] at h7 h8 ⊢
      rw [h7, h8, granuleBits, hm]
      exact ⟨rfl, h⟩

/-! ## What is accepted -/

/-- The 23 bits of a window are those of a code, or the block type is 0. -/
theorem exists_windowCode (bits : List Bool) (hlen : 23 ≤ bits.length) :
    (∃ w rest, bits = WindowCode.bits w ++ rest) ∨ ∃ rest, bits = msbBits 1 1 ++ (msbBits 2 0 ++ rest) := by
  obtain ⟨v, bits₁, hv, rfl, hlen₁⟩ := exists_field bits (n := 1) (by omega)
  rw [List.length_append, length_msbBits] at hlen hlen₁
  have hflag : v = 0 ∨ v = 1 := by omega
  rcases hflag with rfl | rfl
  · obtain ⟨t, bits₂, ht, rfl, hlen₂⟩ := exists_field bits₁ (n := 15) (by omega)
    obtain ⟨r₀, bits₃, hr₀, rfl, hlen₃⟩ := exists_field bits₂ (n := 4) (by omega)
    obtain ⟨r₁, bits₄, hr₁, rfl, -⟩ := exists_field bits₃ (n := 3) (by omega)
    refine Or.inl ⟨.long ⟨t / 1024, by omega⟩ ⟨t / 32 % 32, by omega⟩ ⟨t % 32, by omega⟩ ⟨r₀, hr₀⟩ ⟨r₁, hr₁⟩, bits₄, ?_⟩
    have hsum : t / 1024 * 1024 + t / 32 % 32 * 32 + t % 32 = t := by omega
    simp only [WindowCode.bits, List.append_assoc, hsum]
  · obtain ⟨blockType, bits₂, hblock, rfl, hlen₂⟩ := exists_field bits₁ (n := 2) (by omega)
    cases blockType with
    | zero => exact Or.inr ⟨bits₂, rfl⟩
    | succ blockType =>
        obtain ⟨mixed, bits₃, hmixed, rfl, hlen₃⟩ := exists_field bits₂ (n := 1) (by omega)
        obtain ⟨t, bits₄, ht, rfl, hlen₄⟩ := exists_field bits₃ (n := 10) (by omega)
        obtain ⟨g₀, bits₅, hg₀, rfl, hlen₅⟩ := exists_field bits₄ (n := 3) (by omega)
        obtain ⟨g₁, bits₆, hg₁, rfl, hlen₆⟩ := exists_field bits₅ (n := 3) (by omega)
        obtain ⟨g₂, bits₇, hg₂, rfl, -⟩ := exists_field bits₆ (n := 3) (by omega)
        refine Or.inl ⟨.switched ⟨blockType, by omega⟩ (decide (mixed = 1)) ⟨t / 32, by omega⟩ ⟨t % 32, by omega⟩
          ⟨g₀, hg₀⟩ ⟨g₁, hg₁⟩ ⟨g₂, hg₂⟩, bits₇, ?_⟩
        have hsum : t / 32 * 32 + t % 32 = t := by omega
        have hflag : (decide (mixed = 1)).toNat = mixed := by
          have hcase : mixed = 0 ∨ mixed = 1 := by omega
          rcases hcase with rfl | rfl <;> rfl
        simp only [WindowCode.bits, List.append_assoc, hsum, hflag]

/-- A bit is a flag. -/
theorem exists_flag (bits : List Bool) (hlen : 1 ≤ bits.length) :
    ∃ (b : Bool) (rest : List Bool), bits = msbBits 1 b.toNat ++ rest ∧ rest.length = bits.length - 1 := by
  match bits with
  | true :: rest => exact ⟨true, rest, rfl, rfl⟩
  | false :: rest => exact ⟨false, rest, rfl, rfl⟩

/-- The fields behind the window. -/
theorem exists_tail (mpeg1 : Bool) (bits : List Bool) (hlen : (if mpeg1 then 3 else 2) ≤ bits.length) :
    ∃ (preflag scale count1 : Bool) (rest : List Bool), bits = (if mpeg1 then msbBits 1 preflag.toNat else []) ++
      (msbBits 1 scale.toNat ++ (msbBits 1 count1.toNat ++ rest)) := by
  have htwo : ∀ bits : List Bool, 2 ≤ bits.length → ∃ (scale count1 : Bool) (rest : List Bool),
      bits = msbBits 1 scale.toNat ++ (msbBits 1 count1.toNat ++ rest) := by
    intro bits hlen
    obtain ⟨scale, bits₁, rfl, hlen₁⟩ := exists_flag bits (by omega)
    obtain ⟨count1, rest, rfl, -⟩ := exists_flag bits₁ (by omega)
    exact ⟨scale, count1, rest, rfl⟩
  cases mpeg1 with
  | true =>
      rw [if_pos rfl] at hlen
      obtain ⟨preflag, bits₁, rfl, hlen₁⟩ := exists_flag bits (by omega)
      obtain ⟨scale, count1, rest, rfl⟩ := htwo bits₁ (by omega)
      exact ⟨preflag, scale, count1, rest, rfl⟩
  | false =>
      obtain ⟨scale, count1, rest, rfl⟩ := htwo bits hlen
      exact ⟨false, scale, count1, rest, rfl⟩

/-- What is left of a granule behind its first four fields. -/
theorem granule_arith (mpeg1 : Bool) {n : Nat}
    (h : (if mpeg1 then 59 else 63) ≤ 12 + (9 + (8 + ((if mpeg1 then 4 else 9) + n)))) :
    23 + (if mpeg1 then 3 else 2) ≤ n := by
  cases mpeg1 with
  | true =>
      rw [if_pos rfl, if_pos rfl] at h
      rw [if_pos rfl]
      omega
  | false =>
      rw [if_neg Bool.false_ne_true, if_neg Bool.false_ne_true] at h
      rw [if_neg Bool.false_ne_true]
      omega

/-- **A granule that is accepted was written**: of the bits ahead, a granule is read exactly when they begin with
the code of one. -/
theorem readGranule_iff {hdr : Bytes} {mpeg1 : Bool} (hm : hdrTestMpeg1 hdr = mpeg1) {gr : L3GrInfo} {s : Nat}
    {bs : Bs} {bits : List Bool} (h : Ahead bs bits) (hlen : granuleBits hdr ≤ bits.length)
    {r : L3GrInfo × Nat × Bs} :
    readGranule hdr gr s bs = some r ↔ ∃ (c : GranuleCode mpeg1) (rest : List Bool), bits = c.bits ++ rest ∧
      r = (c.info hdr gr s, c.scfsi hdr s <<< 4, { bs with pos := bs.pos + granuleBits hdr }) := by
  constructor
  · intro hread
    rw [granuleBits, hm] at hlen
    have hmin : 59 ≤ bits.length := by
      split at hlen <;> omega
    obtain ⟨part, bits₁, hpart, rfl, hlen₁⟩ := exists_field bits (n := 12) (by omega)
    obtain ⟨big, bits₂, hbig, rfl, hlen₂⟩ := exists_field bits₁ (n := 9) (by omega)
    obtain ⟨gain, bits₃, hgain, rfl, hlen₃⟩ := exists_field bits₂ (n := 8) (by omega)
    obtain ⟨sc, bits₄, hsc, rfl, hlen₄⟩ := exists_field bits₃ (n := if mpeg1 then 4 else 9)
      (by split <;> omega)
    obtain ⟨h1, hahead₁⟩ := h.getBits (by decide) (by decide) hpart
    obtain ⟨h2, hahead₂⟩ := hahead₁.getBits (by decide) (by decide) hbig
    obtain ⟨h3, hahead₃⟩ := hahead₂.getBits (by decide) (by decide) hgain
    obtain ⟨h4, hahead₄⟩ := hahead₃.getBits (by split <;> decide) (by split <;> decide) hsc
    -- a larger `big_values` is refused
    have hle : big ≤ 288 := by
      by_contra hgt
      rw [readGranule, h1] at hread
      simp only [h2, if_pos (Nat.lt_of_not_le hgt)] at hread
      cases hread
    have hlast : 23 + (if mpeg1 then 3 else 2) ≤ bits₄.length := by
      simp only [List.length_append, length_msbBits] at hlen
      exact granule_arith mpeg1 hlen
    rcases exists_windowCode bits₄ (by omega) with ⟨w, bits₅, rfl⟩ | ⟨bits₅, rfl⟩
    · rw [List.length_append, WindowCode.length_bits] at hlast
      obtain ⟨preflag, scale, count1, rest, rfl⟩ := exists_tail mpeg1 bits₅ (by omega)
      refine ⟨⟨⟨part, hpart⟩, ⟨big, by omega⟩, ⟨gain, hgain⟩, ⟨sc, hsc⟩, w, preflag, scale, count1⟩, rest, ?_, ?_⟩
      · simp only [GranuleCode.bits, List.append_assoc]
      · have hcode : Ahead bs (GranuleCode.bits
            ⟨⟨part, hpart⟩, ⟨big, by omega⟩, ⟨gain, hgain⟩, ⟨sc, hsc⟩, w, preflag, scale, count1⟩ ++ rest) := by
          simpa only [GranuleCode.bits, List.append_assoc] using h
        exact Option.some.inj (hread.symm.trans (readGranule_written hm gr s hcode).1)
    · -- and so is the block type 0
      obtain ⟨h5, hahead₅⟩ := hahead₄.getBits (by decide) (by decide) (by decide)
      obtain ⟨h6, -⟩ := hahead₅.getBits (by decide) (by decide) (by decide)
      rw [readGranule, h1] at hread
      simp only [h2, h3, hm, h4, if_neg (Nat.not_lt.2 hle), readWindow, h5, h6] at hread
      cases hread
  · rintro ⟨c, rest, rfl, rfl⟩
    exact (readGranule_written hm gr s h).1

/-! ## The whole side information -/

/-- What an encoder chooses for a frame of `count` granules and channels. The flags are the private bits and, in
MPEG 1, the scale factor selection behind them. -/
structure SideInfoCode (mpeg1 : Bool) (count : Nat) where
  mainDataBegin : Fin (2 ^ if mpeg1 then 9 else 8)
  flags : Fin (2 ^ ((if mpeg1 then 7 else 0) + count))
  granules : List (GranuleCode mpeg1)
  length_granules : granules.length = count

/-- The records of the granules, each taking over the `scfsi` of the one in front. -/
def granuleInfos {mpeg1 : Bool} (hdr : Bytes) : List L3GrInfo → List (GranuleCode mpeg1) → Nat → List L3GrInfo
  | gr :: grs, c :: cs, s => c.info hdr gr s :: granuleInfos hdr grs cs (c.scfsi hdr s <<< 4)
  | _, _, _ => []

namespace SideInfoCode

variable {mpeg1 : Bool} {count : Nat}

/-- The bits in front of the granules. -/
def mainBits (c : SideInfoCode mpeg1 count) : List Bool :=
  msbBits (if mpeg1 then 9 else 8) c.mainDataBegin ++ msbBits ((if mpeg1 then 7 else 0) + count) c.flags

/-- The bits of the side information. -/
def bits (c : SideInfoCode mpeg1 count) : List Bool := c.mainBits ++ c.granules.flatMap GranuleCode.bits

/-- The first `scfsi`. -/
def scfsi (c : SideInfoCode mpeg1 count) : Nat := if mpeg1 then c.flags else 0

end SideInfoCode

theorem readMainDataBegin_written {hdr : Bytes} {mpeg1 : Bool} (hm : hdrTestMpeg1 hdr = mpeg1) {bs : Bs}
    {m : Fin (2 ^ if mpeg1 then 9 else 8)} {f : Fin (2 ^ ((if mpeg1 then 7 else 0) + grCount hdr))}
    {rest : List Bool} (h : Ahead bs
      (msbBits (if mpeg1 then 9 else 8) m ++ (msbBits ((if mpeg1 then 7 else 0) + grCount hdr) f ++ rest))) :
    readMainDataBegin hdr bs = ((m : Nat), (if mpeg1 then (f : Nat) else 0),
        { bs with pos := bs.pos + (sideInfoBits hdr - grCount hdr * granuleBits hdr) }) ∧
      Ahead { bs with pos := bs.pos + (sideInfoBits hdr - grCount hdr * granuleBits hdr) } rest := by
  have hcount : grCount hdr ≤ 4 ∧ 0 < grCount hdr := by
    rw [grCount]
    split <;> split <;> decide
  have hlen : sideInfoBits hdr - grCount hdr * granuleBits hdr =
      (if mpeg1 then 9 else 8) + ((if mpeg1 then 7 else 0) + grCount hdr) := by
    rw [sideInfoBits, grCount, granuleBits, hm]
    cases mpeg1 <;> cases hdrIsMono hdr <;> rfl
  rw [hlen]
  cases mpeg1 with
  | true =>
      obtain ⟨h1, h⟩ := h.getBits (by decide) (by decide) m.isLt
      obtain ⟨h2, h⟩ := h.getBits (Nat.lt_of_lt_of_le hcount.2 (Nat.le_add_left _ _)) (by simp only [if_true]; omega)
        f.isLt
      simp only [if_true, Nat.add_assoc] at h1 h2 h ⊢
      simp only [readMainDataBegin, hm, if_true, h1, h2]
      exact ⟨trivial, h⟩
  | false =>
      -- one read takes both, and the private bits are shifted out
      have hflags : (f : Nat) < 2 ^ grCount hdr := by
        have hlt := f.isLt
        simpa using hlt
      simp only [Bool.false_eq_true, if_false, Nat.zero_add] at h ⊢
      rw [← List.append_assoc, ← msbBits_pack hflags] at h
      obtain ⟨h1, h⟩ := h.getBits (by omega) (by omega) (pack_lt m.isLt hflags)
      refine ⟨?_, h⟩
      simp only [readMainDataBegin, hm, Bool.false_eq_true, if_false, h1, Nat.shiftRight_eq_div_pow,
        pack_div hflags]

theorem length_granule {hdr : Bytes} {mpeg1 : Bool} (hm : hdrTestMpeg1 hdr = mpeg1) (c : GranuleCode mpeg1) :
    c.bits.length = granuleBits hdr := by
  rw [GranuleCode.length_bits, granuleBits, hm]

/-- The granules that are accepted were written. -/
theorem readGranules_iff {hdr : Bytes} {mpeg1 : Bool} (hm : hdrTestMpeg1 hdr = mpeg1) :
    ∀ {grs : List L3GrInfo} {s : Nat} {bs : Bs} {bits : List Bool}, Ahead bs bits →
      grs.length * granuleBits hdr ≤ bits.length → ∀ {r : List L3GrInfo × Bs},
        readGranules hdr grs s bs = some r ↔ ∃ (cs : List (GranuleCode mpeg1)) (rest : List Bool),
          cs.length = grs.length ∧ bits = cs.flatMap GranuleCode.bits ++ rest ∧
            r = (granuleInfos hdr grs cs s, { bs with pos := bs.pos + grs.length * granuleBits hdr }) := by
  intro grs
  induction grs with
  | nil =>
      intro s bs bits _ _ r
      constructor
      · intro h
        cases h
        exact ⟨[], bits, rfl, rfl, by simp [granuleInfos]⟩
      · rintro ⟨cs, rest, hlen, -, rfl⟩
        simp [readGranules, granuleInfos]
  | cons gr grs ih =>
      intro s bs bits h hlen r
      rw [List.length_cons, Nat.succ_mul] at hlen
      have hpos : ∀ pos, pos + granuleBits hdr + grs.length * granuleBits hdr =
          pos + (gr :: grs).length * granuleBits hdr := by
        intro pos
        rw [List.length_cons, Nat.succ_mul, Nat.add_assoc, Nat.add_comm (granuleBits hdr)]
      have hmin : granuleBits hdr ≤ bits.length := by omega
      rw [readGranules]
      constructor
      · intro hread
        cases hgranule : readGranule hdr gr s bs with
        | none =>
            rw [hgranule] at hread
            cases hread
        | some first =>
            obtain ⟨c, rest, rfl, rfl⟩ := (readGranule_iff hm h hmin).1 hgranule
            rw [hgranule] at hread
            simp only at hread
            have hahead := (readGranule_written hm gr s h).2
            rw [List.length_append, length_granule hm] at hlen
            cases hrest : readGranules hdr grs (c.scfsi hdr s <<< 4) { bs with pos := bs.pos + granuleBits hdr } with
            | none =>
                rw [hrest] at hread
                cases hread
            | some more =>
                obtain ⟨cs, rest', hcs, rfl, rfl⟩ := (ih hahead (by omega)).1 hrest
                rw [hrest] at hread
                cases hread
                refine ⟨c :: cs, rest', by rw [List.length_cons, List.length_cons, hcs], ?_, ?_⟩
                · rw [List.flatMap_cons, List.append_assoc]
                · simp only [granuleInfos, hpos]
      · rintro ⟨cs, rest, hcs, rfl, rfl⟩
        cases cs with
        | nil => cases hcs
        | cons c cs =>
            rw [List.flatMap_cons, List.append_assoc] at h
            obtain ⟨hfirst, hahead⟩ := readGranule_written hm gr s h
            have hlen' : grs.length * granuleBits hdr ≤ (cs.flatMap GranuleCode.bits ++ rest).length := by
              rw [List.flatMap_cons, List.append_assoc, List.length_append, length_granule hm] at hlen
              omega
            have hmore := (ih (s := c.scfsi hdr s <<< 4) hahead hlen').2
              ⟨cs, rest, Nat.succ.inj hcs, rfl, rfl⟩
            rw [hfirst]
            simp only [hmore, granuleInfos, hpos]

/-- The bits in front of the granules are those of any choice of `main_data_begin` and the flags. -/
theorem exists_mainBits (mpeg1 : Bool) (count : Nat) (bits : List Bool)
    (hlen : (if mpeg1 then 9 else 8) + ((if mpeg1 then 7 else 0) + count) ≤ bits.length) :
    ∃ (mainDataBegin : Fin (2 ^ if mpeg1 then 9 else 8)) (flags : Fin (2 ^ ((if mpeg1 then 7 else 0) + count)))
      (rest : List Bool), bits = msbBits (if mpeg1 then 9 else 8) mainDataBegin ++
        (msbBits ((if mpeg1 then 7 else 0) + count) flags ++ rest) := by
  obtain ⟨v, bits₁, hv, rfl, hlen₁⟩ := exists_field bits (n := if mpeg1 then 9 else 8) (by omega)
  obtain ⟨f, rest, hf, rfl, -⟩ := exists_field bits₁ (n := (if mpeg1 then 7 else 0) + count) (by omega)
  exact ⟨⟨v, hv⟩, ⟨f, hf⟩, rest, rfl⟩

/-- **The side information that is accepted is the one that was written.** With the bits of a whole side information
ahead, one is read exactly when they begin with the code of one whose granules end within the main data of the frame;
and what is read is what the code says. (With fewer bits ahead `get_bits` answers 0 for a field that is not all there.) -/
theorem l3ReadSideInfo_iff {hdr : Bytes} {gr : List L3GrInfo} {bs : Bs} {bits : List Bool} (h : Ahead bs bits)
    (hgr : grCount hdr ≤ gr.length) (hlen : sideInfoBits hdr ≤ bits.length) {si : SideInfo} :
    l3ReadSideInfo bs gr hdr = some si ↔
      ∃ (c : SideInfoCode (hdrTestMpeg1 hdr) (grCount hdr)) (rest : List Bool), bits = c.bits ++ rest ∧
        si = ⟨c.mainDataBegin, granuleInfos hdr (gr.take (grCount hdr)) c.granules c.scfsi,
          { bs with pos := bs.pos + sideInfoBits hdr }⟩ ∧
        (↑(part23Sum si.gr + si.bs.pos) : Int) ≤ bs.limit + si.mainDataBegin * 8 := by
  have hparts : (if hdrTestMpeg1 hdr then 9 else 8) + ((if hdrTestMpeg1 hdr then 7 else 0) + grCount hdr) +
      grCount hdr * granuleBits hdr = sideInfoBits hdr := by
    rw [sideInfoBits, grCount, granuleBits]
    cases hdrTestMpeg1 hdr <;> cases hdrIsMono hdr <;> rfl
  have hrest : sideInfoBits hdr - grCount hdr * granuleBits hdr + grCount hdr * granuleBits hdr =
      sideInfoBits hdr := by omega
  have htake : (gr.take (grCount hdr)).length = grCount hdr := List.length_take_of_le hgr
  constructor
  · intro hread
    obtain ⟨mainDataBegin, flags, bits₁, rfl⟩ := exists_mainBits (hdrTestMpeg1 hdr) (grCount hdr) bits
      (by omega)
    obtain ⟨hmain, hahead⟩ := readMainDataBegin_written rfl h
    simp only [l3ReadSideInfo, hmain] at hread
    simp only [List.length_append, length_msbBits] at hlen
    split at hread
    · cases hread
    · next grs bs' hgrs =>
      obtain ⟨cs, rest, hcs, rfl, hread'⟩ := (readGranules_iff rfl hahead (by rw [htake]; omega)).1 hgrs
      rw [htake] at hcs hread'
      obtain ⟨rfl, rfl⟩ := Prod.mk.inj hread'
      rw [Option.ite_none_left_eq_some, Option.some.injEq] at hread
      obtain ⟨hends, rfl⟩ := hread
      refine ⟨⟨mainDataBegin, flags, cs, hcs⟩, rest, ?_, ?_, Int.not_lt.1 hends⟩
      · simp only [SideInfoCode.bits, SideInfoCode.mainBits, List.append_assoc]
      · simp only [Nat.add_assoc, hrest, SideInfoCode.scfsi]
  · rintro ⟨c, rest, rfl, rfl, hends⟩
    simp only [SideInfoCode.bits, SideInfoCode.mainBits, List.append_assoc] at h hlen
    obtain ⟨hmain, hahead⟩ := readMainDataBegin_written rfl h
    simp only [List.length_append, length_msbBits] at hlen
    have hgrs : readGranules hdr (gr.take (grCount hdr)) c.scfsi _ = some _ := (readGranules_iff rfl hahead
      (by rw [htake, List.length_append]; omega)).2 ⟨c.granules, rest, by rw [htake, c.length_granules], rfl, rfl⟩
    rw [htake] at hgrs
    rw [SideInfoCode.scfsi] at hgrs hends ⊢
    simp only [l3ReadSideInfo, hmain, hgrs, Nat.add_assoc, hrest]
    exact if_neg (Int.not_lt.2 hends)

/-- The side information of a mono MPEG 1 frame whose main data begins five bytes back: 40 bits with mixed windows, and
25 with long ones. Four bytes follow. -/
def mixedSideInfo : Bytes := [2, 214, 64, 160, 7, 85, 58, 113, 148, 232, 12, 128, 168, 20, 22, 225, 82, 7, 7, 7, 7]

theorem l3ReadSideInfo_iff_mixed :
    ∃ (c : SideInfoCode (hdrTestMpeg1 [0xFF, 0xFB, 0x90, 0xC4]) (grCount [0xFF, 0xFB, 0x90, 0xC4]))
      (rest : List Bool), bitsOf mixedSideInfo = c.bits ++ rest ∧ (c.mainDataBegin : Nat) = 5 ∧
        (granuleInfos [0xFF, 0xFB, 0x90, 0xC4]
            (List.replicate 2 ⟨[], 0, 0, 0, 0, 0, 0, 0, 0, (0, 0, 0), (0, 0, 0), (0, 0, 0), 0, 0, 0, 0⟩) c.granules
            c.scfsi).map L3GrInfo.part23Length = [40, 25] := by
  have hread : (l3ReadSideInfo (bsInit mixedSideInfo 21)
      (List.replicate 4 ⟨[], 0, 0, 0, 0, 0, 0, 0, 0, (0, 0, 0), (0, 0, 0), (0, 0, 0), 0, 0, 0, 0⟩)
      [0xFF, 0xFB, 0x90, 0xC4]).map SideInfo.lengths = some (5, [40, 25], ⟨mixedSideInfo, 136, 168⟩) := by
    decide +kernel
  obtain ⟨si, hsi, hlengths⟩ := Option.map_eq_some_iff.1 hread
  have hahead : Ahead (bsInit mixedSideInfo 21) (bitsOf mixedSideInfo) := ahead_bsInit _
  obtain ⟨c, rest, hbits, rfl, -⟩ := (l3ReadSideInfo_iff hahead (by decide) (by decide +kernel)).1 hsi
  obtain ⟨hbegin, hgr⟩ := Prod.mk.inj hlengths
  exact ⟨c, rest, hbits, hbegin, (Prod.mk.inj hgr).1⟩

end Casquinha.Decode
