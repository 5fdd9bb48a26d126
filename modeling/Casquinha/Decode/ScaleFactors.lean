import Casquinha.Decode.SideInfo
import Casquinha.Decode.Minimp3

/-!
# Scale factors (`src/minimp3.h`)

`l3DecodeScalefactors` reads the scale factors of a granule and channel into an array of the stack, adds the gains to
them, and turns each into a power of two. Bands that are shared with the granule in front are copied from `ist_pos`,
which keeps the last positions read.

The arrays are lists of cells, and a cell that was never written holds nothing. `none` is an access outside of an array
or a table, or a shift by a negative count. For every record that the side information may leave there is none, and a
scale factor lacks a value only if it is copied from a cell without one (`l3DecodeScalefactors_spec`).
-/

set_option autoImplicit false

namespace Casquinha.Decode

open Lib

/-! ## Reading -/

/-- The cells of an array of bytes. -/
abbrev Cells := List (Option Nat)

/-- `n` cells that were never written. -/
def unset (n : Nat) : Cells := List.replicate n none

/-- `for (k = 0; k < cnt; k++)` of `L3_read_scalefactors`: the values. -/
def readValues (bits : Nat) : Nat → Bs → List Nat × Bs
  | 0, bs => ([], bs)
  | cnt + 1, bs =>
      let (s, bs) := getBits bs bits
      let (vals, bs) := readValues bits cnt bs
      (s :: vals, bs)

/-- The body of the loop of `L3_read_scalefactors`: what is put into `scf` and `ist_pos`, whose cells are `old`. -/
def readBand (bits cnt : Nat) (scfsi : Int) (old : Cells) (bs : Bs) : Cells × Cells × Bs :=
  -- `scfsi & 8`
  if scfsi / 8 % 2 = 1 then (old, old, bs)
  else if bits = 0 then (List.replicate cnt (some 0), List.replicate cnt (some 0), bs)
  else
    let maxScf : Int := if scfsi < 0 then 2 ^ bits - 1 else -1
    let (vals, bs) := readValues bits cnt bs
    (vals.map some, vals.map fun s : Nat => some (if (s : Int) = maxScf then 255 else s), bs)

/-- `scf[0] = scf[1] = scf[2] = 0`. -/
def clearThree (scf : Cells) : Option Cells :=
  if scf.length < 3 then none else some (some 0 :: some 0 :: some 0 :: scf.drop 3)

/-- `L3_read_scalefactors`. The first argument is `4 - i`, and the arrays are what is left of them from the pointers
on. -/
def l3ReadScalefactors : Nat → Cells → Cells → List Nat → List Nat → Bs → Int → Option (Cells × Cells × Bs)
  | left + 1, scf, istPos, size :: sizes, cnt :: counts, bs, scfsi =>
      if cnt = 0 then (clearThree scf).map fun scf => (scf, istPos, bs)
      else if scf.length < cnt ∨ istPos.length < cnt then none
      else
        let (vals, pos, bs) := readBand size cnt scfsi (istPos.take cnt) bs
        (l3ReadScalefactors left (scf.drop cnt) (istPos.drop cnt) sizes counts bs (scfsi * 2)).map fun r =>
          (vals ++ r.1, pos ++ r.2.1, r.2.2)
  | 0, scf, istPos, _, _, bs, _ => (clearThree scf).map fun scf => (scf, istPos, bs)
  | _ + 1, _, _, _, _, _, _ => none

/-! ## The tables -/

/-- `g_scf_partitions`. -/
def gScfPartitions : List (List Nat) :=
  [[6, 5, 5, 5, 6, 5, 5, 5, 6, 5, 7, 3, 11, 10, 0, 0, 7, 7, 7, 0, 6, 6, 6, 3, 8, 8, 5, 0],
    [8, 9, 6, 12, 6, 9, 9, 9, 6, 9, 12, 6, 15, 18, 0, 0, 6, 15, 12, 0, 6, 12, 9, 6, 6, 18, 9, 0],
    [9, 9, 6, 12, 9, 9, 9, 9, 9, 9, 12, 6, 18, 18, 0, 0, 12, 12, 12, 0, 12, 9, 9, 6, 15, 12, 9, 0]]

/-- `g_scfc_decode`. -/
def gScfcDecode : List Nat := [0, 1, 2, 3, 12, 5, 6, 7, 9, 10, 11, 13, 14, 15, 18, 19]

/-- `g_mod`. -/
def gMod : List Nat := [5, 5, 4, 4, 5, 5, 4, 1, 4, 3, 1, 1, 5, 6, 6, 1, 4, 4, 4, 1, 4, 3, 1, 1]

/-- `g_preamp`. -/
def gPreamp : List Nat := [1, 1, 1, 1, 2, 2, 3, 3, 3, 2]

/-- `HDR_TEST_I_STEREO`. -/
def hdrTestIStereo (h : Bytes) : Bool := hdrByte h 3 &&& 0x10 != 0

/-- `HDR_IS_MS_STEREO`. -/
def hdrIsMsStereo (h : Bytes) : Bool := hdrByte h 3 &&& 0xE0 == 0x60

/-- `for (modprod = 1, i = 3; i >= 0; i--)`: the sizes and `modprod`. The entries of `g_mod` come last one first. -/
def modSizes (sfc : Nat) : List Nat → Nat → List Nat → List Nat × Nat
  | [], modprod, sizes => (sizes, modprod)
  | m :: ms, modprod, sizes => modSizes sfc ms (modprod * m) (sfc / modprod % m :: sizes)

/-- `for (k = ist*3*4; sfc >= 0; sfc -= modprod, k += 4)`: the sizes and the last `k`. -/
def modLoop : Nat → Nat → Nat → Option (List Nat × Nat)
  | 0, _, _ => none
  | fuel + 1, k, sfc =>
      if gMod.length < k + 4 then none
      else
        let (sizes, modprod) := modSizes sfc ((gMod.drop k).take 4).reverse 1 []
        if sfc < modprod then some (sizes, k + 4) else modLoop fuel (k + 4) (sfc - modprod)

/-- `scf_partition`, as it is found first. -/
def scfPartition (gr : L3GrInfo) : Option (List Nat) :=
  gScfPartitions[(gr.nShortSfb != 0).toNat + (gr.nLongSfb == 0).toNat]?

/-- `scf_size`, `scf_partition` and `scfsi`. -/
def scfLayout (hdr : Bytes) (gr : L3GrInfo) (ch : Nat) : Option (List Nat × List Nat × Int) :=
  match scfPartition gr with
  | none => none
  | some row =>
      if hdrTestMpeg1 hdr then
        gScfcDecode[gr.scalefacCompress]?.map fun part =>
          ([part >>> 2, part >>> 2, part &&& 3, part &&& 3], row, (gr.scfsi : Int))
      else
        let ist := hdrTestIStereo hdr && ch != 0
        (modLoop gMod.length (ist.toNat * 12) (gr.scalefacCompress >>> ist.toNat)).map fun r =>
          (r.1, row.drop r.2, -16)

/-! ## Gains -/

/-- `iscf[i] += v`. -/
def bump (iscf : Cells) (i v : Nat) : Option Cells :=
  if i < iscf.length then some (iscf.modify i (Option.map fun s => (s + v) % 256)) else none

/-- `for (i = 0; i < gr->n_short_sfb; i += 3)`, from `i` on. -/
def gainLoop (gr : L3GrInfo) (sh : Nat) : Nat → Nat → Cells → Option Cells
  | 0, _, iscf => some iscf
  | fuel + 1, i, iscf =>
      if i < gr.nShortSfb then
        (bump iscf (gr.nLongSfb + i) (gr.subblockGain.1 <<< sh)).bind fun iscf =>
          (bump iscf (gr.nLongSfb + i + 1) (gr.subblockGain.2.1 <<< sh)).bind fun iscf =>
            (bump iscf (gr.nLongSfb + i + 2) (gr.subblockGain.2.2 <<< sh)).bind fun iscf =>
              gainLoop gr sh fuel (i + 3) iscf
      else some iscf

/-- `for (i = 0; i < 10; i++) iscf[11 + i] += g_preamp[i]`, from `i` on. -/
def preampLoop : List Nat → Nat → Cells → Option Cells
  | [], _, iscf => some iscf
  | g :: gs, i, iscf => (bump iscf (11 + i) g).bind fun iscf => preampLoop gs (i + 1) iscf

/-- `scf_shift`. -/
def scfShift (gr : L3GrInfo) : Nat := gr.scalefacScale + 1

/-- The gains of short windows, or the preamplification. -/
def addGains (gr : L3GrInfo) (iscf : Cells) : Option Cells :=
  if gr.nShortSfb ≠ 0 then gainLoop gr (3 - scfShift gr) gr.nShortSfb 0 iscf
  else if gr.preflag ≠ 0 then preampLoop gPreamp 0 iscf
  else some iscf

/-- The factors of a power of two: for each the index into `g_expfrac`, and the power that it goes with. -/
abbrev Factors := List (Nat × Nat)

/-- `L3_ldexp_q2`, on the exponent. -/
def l3LdexpQ2 : Nat → Int → Option Factors
  | 0, _ => none
  | fuel + 1, expQ2 =>
      let e := min (30 * 4) expQ2
      if e < 0 then none
      else if 0 < expQ2 - e then
        (l3LdexpQ2 fuel (expQ2 - e)).map fun factors => ((e % 4).toNat, 30 - (e / 4).toNat) :: factors
      else some [((e % 4).toNat, 30 - (e / 4).toNat)]

/-- `BITS_DEQUANTIZER_OUT`. -/
def bitsDequantizerOut : Int := -1

/-- `MAX_SCF`. -/
def maxScf : Int := 255 + bitsDequantizerOut * 4 - 210

/-- `MAX_SCFI`. -/
def maxScfi : Int := (maxScf + 3) / 4 * 4

/-- `gain_exp`. -/
def gainExp (hdr : Bytes) (gr : L3GrInfo) : Int :=
  gr.globalGain + bitsDequantizerOut * 4 - 210 - if hdrIsMsStereo hdr then 2 else 0

/-- The factors of an exponent. -/
def ldexpFactors (expQ2 : Int) : Option Factors := l3LdexpQ2 (expQ2.toNat + 1) expQ2

/-- The scale factors of a granule and channel. One that comes from a cell without a value has none. -/
abbrev Scf := List (Option Factors)

/-- `for (i = 0; i < n_long_sfb + n_short_sfb; i++) scf[i] = L3_ldexp_q2(gain, iscf[i] << scf_shift)`: the factors of
each. -/
def scaleCells (gain : Factors) (shift : Nat) : Cells → Option Scf
  | [] => some []
  | none :: cells => (scaleCells gain shift cells).map fun scf => none :: scf
  | some v :: cells =>
      (ldexpFactors ↑(v <<< shift)).bind fun factors =>
        (scaleCells gain shift cells).map fun scf => some (gain ++ factors) :: scf

/-- The size of `iscf` and of `scf`. -/
def iscfSize : Nat := 40

/-- The size of `ist_pos[ch]`. -/
def istPosSize : Nat := 39

/-- `scf`, `ist_pos` and the reader behind `L3_decode_scalefactors`. -/
structure ScfOut where
  scf : Scf
  istPos : Cells
  bs : Bs

/-- `L3_decode_scalefactors`. -/
def l3DecodeScalefactors (hdr : Bytes) (istPos : Cells) (bs : Bs) (gr : L3GrInfo) (ch : Nat) : Option ScfOut :=
  (scfLayout hdr gr ch).bind fun (sizes, counts, scfsi) =>
    (l3ReadScalefactors 4 (unset iscfSize) istPos sizes counts bs scfsi).bind fun (iscf, istPos, bs) =>
      (addGains gr iscf).bind fun iscf =>
        (ldexpFactors (maxScfi - gainExp hdr gr)).bind fun gain =>
          -- both arrays have the same size
          if iscfSize < gr.nLongSfb + gr.nShortSfb then none
          else
            (scaleCells gain (scfShift gr) (iscf.take (gr.nLongSfb + gr.nShortSfb))).map fun scf =>
              { scf := scf
                istPos := istPos
                bs := bs }

/-! ## Bands -/

/-- Every cell has a value. -/
def AllSet {α : Type} (cells : List (Option α)) : Prop := ∀ c ∈ cells, c.isSome = true

theorem allSet_append {α : Type} {a b : List (Option α)} : AllSet (a ++ b) ↔ AllSet a ∧ AllSet b :=
  List.forall_mem_append

/-- The cells that the bands take up; `none` is a read past the end of a row of the table. -/
def bandTotal : Nat → List Nat → Option Nat
  | 0, _ => some 0
  | _ + 1, [] => none
  | left + 1, cnt :: counts => if cnt = 0 then some 0 else (bandTotal left counts).map fun total => cnt + total

/-- Some band is copied. -/
def copies : Nat → List Nat → Int → Bool
  | left + 1, cnt :: counts, scfsi => cnt != 0 && (scfsi / 8 % 2 == 1 || copies left counts (scfsi * 2))
  | _, _, _ => false

theorem length_readValues (bits cnt : Nat) (bs : Bs) : (readValues bits cnt bs).1.length = cnt := by
  induction cnt generalizing bs with
  | zero => rfl
  | succ cnt ih => rw [readValues, List.length_cons, ih]

/-- A band fills its cells, and only a copy may leave one without a value. -/
theorem readBand_spec (bits : Nat) {cnt : Nat} (scfsi : Int) {old : Cells} (hold : old.length = cnt) (bs : Bs) :
    (readBand bits cnt scfsi old bs).1.length = cnt ∧ (readBand bits cnt scfsi old bs).2.1.length = cnt ∧
      if scfsi / 8 % 2 = 1 then
        (readBand bits cnt scfsi old bs).1 = old ∧ (readBand bits cnt scfsi old bs).2.1 = old
      else AllSet (readBand bits cnt scfsi old bs).1 ∧ AllSet (readBand bits cnt scfsi old bs).2.1 := by
  have hzero : AllSet (List.replicate cnt (some 0)) := by
    intro c hc
    rw [List.eq_of_mem_replicate hc]
    rfl
  rw [readBand]
  by_cases hcopy : scfsi / 8 % 2 = 1
  · simp only [hcopy, if_true]
    exact ⟨hold, hold, trivial, trivial⟩
  · by_cases hbits : bits = 0
    · simp only [hcopy, hbits, if_true, if_false]
      exact ⟨List.length_replicate, List.length_replicate, hzero, hzero⟩
    · simp only [hcopy, hbits, if_false]
      have hlen := length_readValues bits cnt bs
      refine ⟨by rw [List.length_map, hlen], by rw [List.length_map, hlen], ?_, ?_⟩
      · intro c hc
        obtain ⟨s, -, rfl⟩ := List.mem_map.1 hc
        rfl
      · intro c hc
        obtain ⟨s, -, rfl⟩ := List.mem_map.1 hc
        rfl

/-- What reading leaves: `vals` and `pos` in the cells of the bands, three zeros behind, and the rest as it was. The
positions have values where the scale factors do: everywhere unless a band is copied, and where the copied cells have. -/
structure ScfRead (left : Nat) (counts : List Nat) (scfsi : Int) (istPos : Cells) (vals pos : Cells) : Prop where
  length_pos : pos.length = vals.length
  fresh : copies left counts scfsi = false → AllSet vals ∧ AllSet pos
  copied : AllSet (istPos.take vals.length) → AllSet vals ∧ AllSet pos
  unset : (∀ c ∈ istPos.take vals.length, c = none) → copies left counts scfsi = true → ¬ AllSet vals

theorem allSet_nil : AllSet ([] : Cells) := fun _ hc => absurd hc List.not_mem_nil

/-- Behind the last band. -/
theorem ScfRead.nil {left : Nat} {counts : List Nat} {scfsi : Int} (istPos : Cells)
    (h : copies left counts scfsi = false) : ScfRead left counts scfsi istPos [] [] where
  length_pos := rfl
  fresh := fun _ => ⟨allSet_nil, allSet_nil⟩
  copied := fun _ => ⟨allSet_nil, allSet_nil⟩
  unset := fun _ hcopies => by
    rw [h] at hcopies
    cases hcopies

/-- One more band in front. -/
theorem ScfRead.cons {left cnt : Nat} {counts : List Nat} {scfsi : Int} {istPos vals pos vals' pos' : Cells}
    (hcnt : cnt ≠ 0) (hvals : vals.length = cnt) (hpos : pos.length = cnt)
    (hband : if scfsi / 8 % 2 = 1 then vals = istPos.take cnt ∧ pos = istPos.take cnt else AllSet vals ∧ AllSet pos)
    (hrest : ScfRead left counts (scfsi * 2) (istPos.drop cnt) vals' pos') :
    ScfRead (left + 1) (cnt :: counts) scfsi istPos (vals ++ vals') (pos ++ pos') := by
  have hsplit : istPos.take (vals ++ vals').length = istPos.take cnt ++ (istPos.drop cnt).take vals'.length := by
    rw [List.length_append, hvals, List.take_add]
  have hcopies : copies (left + 1) (cnt :: counts) scfsi =
      (scfsi / 8 % 2 == 1 || copies left counts (scfsi * 2)) := by
    rw [copies, bne_iff_ne.2 hcnt, Bool.true_and]
  refine ⟨?_, fun hfresh => ?_, fun hset => ?_, fun hunset hcopy => ?_⟩
  · rw [List.length_append, List.length_append, hvals, hpos, hrest.length_pos]
  · rw [hcopies, Bool.or_eq_false_iff, beq_eq_false_iff_ne] at hfresh
    rw [if_neg hfresh.1] at hband
    obtain ⟨hvals', hpos'⟩ := hrest.fresh hfresh.2
    exact ⟨allSet_append.2 ⟨hband.1, hvals'⟩, allSet_append.2 ⟨hband.2, hpos'⟩⟩
  · rw [hsplit, allSet_append] at hset
    obtain ⟨hvals', hpos'⟩ := hrest.copied hset.2
    have hfirst : AllSet vals ∧ AllSet pos := by
      split at hband
      · rw [hband.1, hband.2]
        exact ⟨hset.1, hset.1⟩
      · exact hband
    exact ⟨allSet_append.2 ⟨hfirst.1, hvals'⟩, allSet_append.2 ⟨hfirst.2, hpos'⟩⟩
  · rw [hsplit, List.forall_mem_append] at hunset
    rw [hcopies, Bool.or_eq_true, beq_iff_eq] at hcopy
    intro hset
    rw [allSet_append] at hset
    rcases hcopy with hhere | hlater
    · -- the copied cells have no value
      rw [if_pos hhere] at hband
      obtain ⟨c, hc⟩ := List.exists_mem_of_ne_nil vals (List.ne_nil_of_length_pos (by omega))
      have hsome := hset.1 c hc
      rw [hband.1] at hc
      rw [hunset.1 c hc] at hsome
      cases hsome
    · exact hrest.unset hunset.2 hlater hset.2

theorem clearThree_eq {scf : Cells} (h : 3 ≤ scf.length) :
    clearThree scf = some (some 0 :: some 0 :: some 0 :: scf.drop 3) := if_neg (Nat.not_lt.2 h)

/-- **Reading stays in its arrays** when the bands do, with three cells more for the zeros. -/
theorem l3ReadScalefactors_spec : ∀ {left total : Nat} {scf istPos : Cells} {sizes counts : List Nat} (bs : Bs)
    (scfsi : Int), bandTotal left counts = some total → total + 3 ≤ scf.length → total ≤ istPos.length →
      left ≤ sizes.length →
      ∃ vals pos bs', l3ReadScalefactors left scf istPos sizes counts bs scfsi =
          some (vals ++ some 0 :: some 0 :: some 0 :: scf.drop (total + 3), pos ++ istPos.drop total, bs') ∧
        vals.length = total ∧ ScfRead left counts scfsi istPos vals pos := by
  intro left
  induction left with
  | zero =>
      intro total scf istPos sizes counts bs scfsi htotal hscf hist hsizes
      cases htotal
      refine ⟨[], [], bs, ?_, rfl, .nil istPos rfl⟩
      rw [l3ReadScalefactors, clearThree_eq hscf]
      rfl
  | succ left ih =>
      intro total scf istPos sizes counts bs scfsi htotal hscf hist hsizes
      cases counts with
      | nil => cases htotal
      | cons cnt counts =>
          cases sizes with
          | nil => exact absurd hsizes (Nat.not_succ_le_zero left)
          | cons size sizes =>
              rw [bandTotal] at htotal
              rw [l3ReadScalefactors]
              by_cases hcnt : cnt = 0
              · -- the bands have ended
                rw [if_pos hcnt] at htotal
                cases htotal
                refine ⟨[], [], bs, ?_, rfl, .nil istPos (by simp [copies, hcnt])⟩
                rw [if_pos hcnt, clearThree_eq hscf]
                rfl
              · rw [if_neg hcnt] at htotal
                obtain ⟨total', htotal', rfl⟩ := Option.map_eq_some_iff.1 htotal
                have hold : (istPos.take cnt).length = cnt := List.length_take_of_le (by omega)
                have hscf' : total' + 3 ≤ (scf.drop cnt).length := by
                  rw [List.length_drop]
                  omega
                have hist' : total' ≤ (istPos.drop cnt).length := by
                  rw [List.length_drop]
                  omega
                obtain ⟨hvals, hpos, hband⟩ := readBand_spec size scfsi hold bs
                rw [if_neg hcnt, if_neg (by omega)]
                generalize readBand size cnt scfsi (istPos.take cnt) bs = band at hvals hpos hband ⊢
                obtain ⟨vals, pos, bs₁⟩ := band
                obtain ⟨vals', pos', bs₂, hread, hlen, hrest⟩ :=
                  ih bs₁ (scfsi * 2) htotal' hscf' hist' (Nat.le_of_succ_le_succ hsizes)
                refine ⟨vals ++ vals', pos ++ pos', bs₂, ?_, ?_, .cons hcnt hvals hpos hband hrest⟩
                · simp only [hread, Option.map_some, List.append_assoc, List.drop_drop, Nat.add_assoc]
                · rw [List.length_append, hlen]
                  exact congrArg (· + total') hvals

/-! ## Layouts -/

/-- What a record of an accepted side information may be: its windows are long, short or mixed, and short windows
share no scale factors. -/
structure GrShape (hdr : Bytes) (gr : L3GrInfo) : Prop where
  bands : gr.nLongSfb = 22 ∧ gr.nShortSfb = 0 ∨ gr.nLongSfb = 0 ∧ gr.nShortSfb = 39 ∨
    gr.nLongSfb = (if hdrTestMpeg1 hdr then 8 else 6) ∧ gr.nShortSfb = 30
  scalefacCompress_lt : gr.scalefacCompress < if hdrTestMpeg1 hdr then 16 else 512
  globalGain_lt : gr.globalGain < 256
  scfsi_lt : gr.scfsi < 16
  scfsi_short : gr.nShortSfb ≠ 0 → gr.scfsi = 0

theorem length_modSizes (sfc : Nat) (ms : List Nat) (modprod : Nat) (sizes : List Nat) :
    (modSizes sfc ms modprod sizes).1.length = ms.length + sizes.length := by
  induction ms generalizing modprod sizes with
  | nil => rw [modSizes, List.length_nil, Nat.zero_add]
  | cons m ms ih =>
      rw [modSizes, ih, List.length_cons, List.length_cons]
      omega

theorem modSizes_snd (sfc : Nat) (ms : List Nat) (modprod : Nat) (sizes : List Nat) :
    (modSizes sfc ms modprod sizes).2 = modprod * ms.prod := by
  induction ms generalizing modprod sizes with
  | nil => rw [modSizes, List.prod_nil, Nat.mul_one]
  | cons m ms ih => rw [modSizes, ih, List.prod_cons, Nat.mul_assoc]

/-- One round of the loop over `g_mod`: it ends here, or it goes on with what is left of `sfc`. -/
theorem modLoop_succ (fuel sfc : Nat) {k p : Nat} (hk : k + 4 ≤ gMod.length)
    (hp : ((gMod.drop k).take 4).prod = p) :
    (sfc < p ∧ ∃ sizes, modLoop (fuel + 1) k sfc = some (sizes, k + 4) ∧ sizes.length = 4) ∨
      (p ≤ sfc ∧ modLoop (fuel + 1) k sfc = modLoop fuel (k + 4) (sfc - p)) := by
  have hprod : (modSizes sfc ((gMod.drop k).take 4).reverse 1 []).2 = p := by
    rw [modSizes_snd, Nat.one_mul, List.prod_reverse, hp]
  have hlen : (modSizes sfc ((gMod.drop k).take 4).reverse 1 []).1.length = 4 := by
    rw [length_modSizes, List.length_reverse, List.length_take, List.length_drop, List.length_nil]
    omega
  simp only [modLoop, if_neg (Nat.not_lt.2 hk), hprod]
  by_cases hlt : sfc < p
  · rw [if_pos hlt]
    exact Or.inl ⟨hlt, _, rfl, hlen⟩
  · rw [if_neg hlt]
    exact Or.inr ⟨Nat.le_of_not_lt hlt, rfl⟩

/-- Three ranges of `g_mod` cover as many values as their products add up to. -/
theorem modLoop_three (fuel k p₀ p₁ p₂ : Nat) {sfc : Nat} (hk : k + 12 ≤ gMod.length)
    (hp₀ : ((gMod.drop k).take 4).prod = p₀) (hp₁ : ((gMod.drop (k + 4)).take 4).prod = p₁)
    (hp₂ : ((gMod.drop (k + 8)).take 4).prod = p₂) (h : sfc < p₀ + p₁ + p₂) :
    ∃ sizes j, modLoop (fuel + 3) k sfc = some (sizes, j) ∧ sizes.length = 4 ∧
      (j = k + 4 ∨ j = k + 8 ∨ j = k + 12) := by
  rcases modLoop_succ (fuel + 2) sfc (by omega) hp₀ with ⟨-, sizes, hends, hlen⟩ | ⟨hge₀, h₀⟩
  · exact ⟨sizes, k + 4, hends, hlen, Or.inl rfl⟩
  rcases modLoop_succ (fuel + 1) (sfc - p₀) (by omega) hp₁ with ⟨-, sizes, hends, hlen⟩ | ⟨hge₁, h₁⟩
  · exact ⟨sizes, k + 8, h₀.trans hends, hlen, Or.inr (Or.inl rfl)⟩
  rcases modLoop_succ fuel (sfc - p₀ - p₁) (by omega) hp₂ with ⟨-, sizes, hends, hlen⟩ | ⟨hge₂, -⟩
  · exact ⟨sizes, k + 12, h₀.trans (h₁.trans hends), hlen, Or.inr (Or.inr rfl)⟩
  · omega

/-- Where the loop over `g_mod` may end. -/
def modEnds : List Nat := [4, 8, 12, 16, 20, 24]

/-- **The loop over `g_mod` stays in it**: the nine bits of `scalefac_compress` end in one of the first three ranges, the
eight of the second channel in intensity stereo in one of the last. -/
theorem modLoop_spec (ist : Bool) {sfc : Nat} (h : sfc < 512) :
    ∃ sizes k, modLoop gMod.length (ist.toNat * 12) (sfc >>> ist.toNat) = some (sizes, k) ∧ sizes.length = 4 ∧
      k ∈ modEnds := by
  cases ist with
  | false =>
      obtain ⟨sizes, k, hloop, hlen, hk⟩ := modLoop_three 21 0 400 100 12 (by decide) (by decide)
        (by decide) (by decide) h
      refine ⟨sizes, k, hloop, hlen, ?_⟩
      rcases hk with rfl | rfl | rfl <;> decide
  | true =>
      have hhalf : sfc >>> 1 < 180 + 64 + 12 := by
        rw [Nat.shiftRight_eq_div_pow]
        omega
      obtain ⟨sizes, k, hloop, hlen, hk⟩ := modLoop_three 21 12 180 64 12 (by decide) (by decide)
        (by decide) (by decide) hhalf
      refine ⟨sizes, k, hloop, hlen, ?_⟩
      rcases hk with rfl | rfl | rfl <;> decide

/-- A `scfsi` whose low four bits are 0 copies no band. -/
theorem copies_of_dvd {left : Nat} {counts : List Nat} {scfsi : Int} (h : (16 : Int) ∣ scfsi) :
    copies left counts scfsi = false := by
  induction left generalizing counts scfsi with
  | zero => rfl
  | succ left ih =>
      cases counts with
      | nil => rfl
      | cons cnt counts =>
          have hbit : ¬ scfsi / 8 % 2 = 1 := by omega
          rw [copies, ih (by omega), Bool.or_false, beq_eq_false_iff_ne.2 hbit, Bool.and_false]

/-- The granule shares no scale factors with the one in front. -/
def Unshared (hdr : Bytes) (gr : L3GrInfo) : Prop := hdrTestMpeg1 hdr = true → gr.scfsi = 0

instance (hdr : Bytes) (gr : L3GrInfo) : Decidable (Unshared hdr gr) := inferInstanceAs (Decidable (_ → _))

/-- The bands of a layout, `total` cells, and the three zeros cover the scale factors of a granule. -/
structure Covers (gr : L3GrInfo) (total : Nat) : Prop where
  le : total ≤ gr.nLongSfb + gr.nShortSfb
  ge : gr.nLongSfb + gr.nShortSfb ≤ total + 3
  positions : 21 ≤ total
  room : total ≤ 36

/-- A row of the table, with the cells of its bands: at its beginning, as MPEG 1 has them, and behind any end of the
loop over `g_mod`. -/
structure RowTotals (row : List Nat) (first behind : Nat) : Prop where
  first : bandTotal 4 row = some first
  behind : ∀ k ∈ modEnds, bandTotal 4 (row.drop k) = some behind

theorem rowTotals_long : RowTotals (gScfPartitions.getD 0 []) 21 21 := ⟨by decide, by decide⟩

theorem rowTotals_mixed : RowTotals (gScfPartitions.getD 1 []) 35 33 := ⟨by decide, by decide⟩

theorem rowTotals_short : RowTotals (gScfPartitions.getD 2 []) 36 36 := ⟨by decide, by decide⟩

/-- In long windows a bit of `scfsi` is a band that is copied. -/
theorem copies_long : ∀ n : Nat, n < 16 → n ≠ 0 → copies 4 (gScfPartitions.getD 0 []) n = true := by decide

/-- The layout that a row of the table gives. -/
theorem scfLayout_of_row {hdr : Bytes} {gr : L3GrInfo} (h : GrShape hdr gr) (ch : Nat) {row : List Nat}
    {first behind : Nat} (hrow : scfPartition gr = some row) (htotals : RowTotals row first behind) :
    ∃ sizes counts scfsi, scfLayout hdr gr ch = some (sizes, counts, scfsi) ∧ sizes.length = 4 ∧
      bandTotal 4 counts = some (if hdrTestMpeg1 hdr then first else behind) ∧
      if hdrTestMpeg1 hdr then counts = row ∧ scfsi = gr.scfsi else (16 : Int) ∣ scfsi := by
  have hcompress := h.scalefacCompress_lt
  simp only [scfLayout, hrow]
  cases hversion : hdrTestMpeg1 hdr with
  | true =>
      simp only [hversion, if_true] at hcompress ⊢
      rw [List.getElem?_eq_getElem (by exact hcompress)]
      exact ⟨_, row, gr.scfsi, rfl, rfl, htotals.first, rfl, rfl⟩
  | false =>
      simp only [hversion, Bool.false_eq_true, if_false] at hcompress ⊢
      obtain ⟨sizes, k, hloop, hlen, hk⟩ := modLoop_spec (hdrTestIStereo hdr && ch != 0) hcompress
      rw [hloop]
      exact ⟨sizes, row.drop k, -16, rfl, hlen, htotals.behind k hk, ⟨-1, rfl⟩⟩

/-- The row of a granule covers its windows, and only long windows share scale factors. -/
theorem scfPartition_spec {hdr : Bytes} {gr : L3GrInfo} (h : GrShape hdr gr) :
    ∃ row first behind, scfPartition gr = some row ∧ RowTotals row first behind ∧
      Covers gr (if hdrTestMpeg1 hdr then first else behind) ∧
      (gr.scfsi ≠ 0 → copies 4 row gr.scfsi = true ∧ first = 21) := by
  rcases h.bands with ⟨hlong, hshort⟩ | ⟨hlong, hshort⟩ | ⟨hlong, hshort⟩
  · refine ⟨gScfPartitions.getD 0 [], 21, 21, ?_, rowTotals_long, ?_, fun hscfsi => ?_⟩
    · simp only [scfPartition, hlong, hshort]
      rfl
    · rw [ite_self]
      constructor <;> omega
    · exact ⟨copies_long gr.scfsi h.scfsi_lt hscfsi, rfl⟩
  · refine ⟨gScfPartitions.getD 2 [], 36, 36, ?_, rowTotals_short, ?_, fun hscfsi => ?_⟩
    · simp only [scfPartition, hlong, hshort]
      rfl
    · rw [ite_self]
      constructor <;> omega
    · exact absurd (h.scfsi_short (by omega)) hscfsi
  · refine ⟨gScfPartitions.getD 1 [], 35, 33, ?_, rowTotals_mixed, ?_, fun hscfsi => ?_⟩
    · rw [scfPartition, hlong, hshort]
      cases hdrTestMpeg1 hdr <;> rfl
    · cases hversion : hdrTestMpeg1 hdr <;> simp only [hversion, Bool.false_eq_true, if_true, if_false] at hlong ⊢ <;>
        constructor <;> omega
    · exact absurd (h.scfsi_short (by omega)) hscfsi

/-- **A layout for every granule**: the bands fit its windows, and one is copied only if `scfsi` says so. -/
theorem scfLayout_spec {hdr : Bytes} {gr : L3GrInfo} (h : GrShape hdr gr) (ch : Nat) :
    ∃ sizes counts scfsi total, scfLayout hdr gr ch = some (sizes, counts, scfsi) ∧ sizes.length = 4 ∧
      bandTotal 4 counts = some total ∧ Covers gr total ∧
      if Unshared hdr gr then copies 4 counts scfsi = false else copies 4 counts scfsi = true ∧ total = 21 := by
  obtain ⟨row, first, behind, hrow, htotals, hcovers, hcopies⟩ := scfPartition_spec h
  obtain ⟨sizes, counts, scfsi, hlayout, hsizes, htotal, hscfsi⟩ := scfLayout_of_row h ch hrow htotals
  refine ⟨sizes, counts, scfsi, _, hlayout, hsizes, htotal, hcovers, ?_⟩
  cases hversion : hdrTestMpeg1 hdr with
  | true =>
      simp only [hversion, if_true] at hscfsi ⊢
      obtain ⟨rfl, rfl⟩ := hscfsi
      by_cases hzero : gr.scfsi = 0
      · have hunshared : Unshared hdr gr := fun _ => hzero
        rw [if_pos hunshared, hzero]
        exact copies_of_dvd ⟨0, rfl⟩
      · have hshared : ¬ Unshared hdr gr := fun hunshared => hzero (hunshared hversion)
        rw [if_neg hshared]
        exact hcopies hzero
  | false =>
      simp only [hversion, Bool.false_eq_true, if_false] at hscfsi
      have hunshared : Unshared hdr gr := fun hmpeg1 => absurd (hversion.symm.trans hmpeg1) Bool.false_ne_true
      rw [if_pos hunshared]
      exact copies_of_dvd hscfsi

/-! ## Gains -/

/-- The same cells have values. -/
abbrev SamePattern {α β : Type} (a : List (Option α)) (b : List (Option β)) : Prop :=
  a.map Option.isSome = b.map Option.isSome

theorem SamePattern.length_eq {α β : Type} {a : List (Option α)} {b : List (Option β)} (h : SamePattern a b) :
    a.length = b.length := by
  rw [← List.length_map (f := Option.isSome), h, List.length_map]

theorem SamePattern.take {α β : Type} {a : List (Option α)} {b : List (Option β)} (h : SamePattern a b) (n : Nat) :
    SamePattern (a.take n) (b.take n) := by
  rw [SamePattern, List.map_take, h, List.map_take]

theorem SamePattern.allSet_iff {α β : Type} {a : List (Option α)} {b : List (Option β)} (h : SamePattern a b) :
    AllSet a ↔ AllSet b := by
  have hmap : ∀ {γ : Type} (c : List (Option γ)), AllSet c ↔ ∀ x ∈ c.map Option.isSome, x = true := by
    intro γ c
    rw [List.forall_mem_map]
    rfl
  rw [hmap, hmap, h]

/-- A gain is added within the array, and to a cell without a value it adds nothing. -/
theorem bump_spec (iscf : Cells) (i v : Nat) (h : i < iscf.length) :
    ∃ iscf', bump iscf i v = some iscf' ∧ SamePattern iscf' iscf := by
  refine ⟨_, if_pos h, List.ext_getElem? fun j => ?_⟩
  rw [List.getElem?_map, List.getElem?_map, List.getElem?_modify]
  by_cases hij : i = j
  · subst hij
    rw [List.getElem?_eq_getElem h]
    simp
  · simp [hij]

/-- The gains of short windows stay within the bands. -/
theorem gainLoop_spec {gr : L3GrInfo} (sh fuel : Nat) {i : Nat} {iscf : Cells} (hthree : 3 ∣ gr.nShortSfb)
    (hi : 3 ∣ i) (h : gr.nLongSfb + gr.nShortSfb ≤ iscf.length) :
    ∃ iscf', gainLoop gr sh fuel i iscf = some iscf' ∧ SamePattern iscf' iscf := by
  induction fuel generalizing i iscf with
  | zero => exact ⟨iscf, rfl, rfl⟩
  | succ fuel ih =>
      rw [gainLoop]
      split
      · next hlt =>
        obtain ⟨iscf₁, hbump₁, hsame₁⟩ :=
          bump_spec iscf (gr.nLongSfb + i) (gr.subblockGain.1 <<< sh) (by omega)
        have hlen₁ := hsame₁.length_eq
        obtain ⟨iscf₂, hbump₂, hsame₂⟩ :=
          bump_spec iscf₁ (gr.nLongSfb + i + 1) (gr.subblockGain.2.1 <<< sh) (by omega)
        have hlen₂ := hsame₂.length_eq
        obtain ⟨iscf₃, hbump₃, hsame₃⟩ :=
          bump_spec iscf₂ (gr.nLongSfb + i + 2) (gr.subblockGain.2.2 <<< sh) (by omega)
        have hlen₃ := hsame₃.length_eq
        obtain ⟨iscf₄, hloop, hsame₄⟩ := ih (Nat.dvd_add hi ⟨1, rfl⟩) (hlen₃.trans (hlen₂.trans hlen₁) ▸ h)
        refine ⟨iscf₄, ?_, hsame₄.trans (hsame₃.trans (hsame₂.trans hsame₁))⟩
        rw [hbump₁, Option.bind_some, hbump₂, Option.bind_some, hbump₃, Option.bind_some, hloop]
      · exact ⟨iscf, rfl, rfl⟩

/-- The preamplification stays within the long bands. -/
theorem preampLoop_spec (gains : List Nat) {i : Nat} {iscf : Cells} (h : 11 + i + gains.length ≤ iscf.length) :
    ∃ iscf', preampLoop gains i iscf = some iscf' ∧ SamePattern iscf' iscf := by
  induction gains generalizing i iscf with
  | nil => exact ⟨iscf, rfl, rfl⟩
  | cons g gs ih =>
      rw [List.length_cons] at h
      obtain ⟨iscf₁, hbump, hsame⟩ := bump_spec iscf (11 + i) g (by omega)
      have hroom : 11 + (i + 1) + gs.length ≤ iscf₁.length := by
        rw [hsame.length_eq]
        omega
      obtain ⟨iscf₂, hloop, hsame'⟩ := ih hroom
      refine ⟨iscf₂, ?_, hsame'.trans hsame⟩
      rw [preampLoop, hbump, Option.bind_some, hloop]

theorem addGains_spec {hdr : Bytes} {gr : L3GrInfo} (h : GrShape hdr gr) {iscf : Cells}
    (hlen : iscf.length = iscfSize) : ∃ iscf', addGains gr iscf = some iscf' ∧ SamePattern iscf' iscf := by
  have hbands : 3 ∣ gr.nShortSfb ∧ gr.nLongSfb + gr.nShortSfb ≤ 39 := by
    rcases h.bands with ⟨hlong, hshort⟩ | ⟨hlong, hshort⟩ | ⟨hlong, hshort⟩
    · omega
    · omega
    · split at hlong <;> omega
  have hsize : iscfSize = 40 := rfl
  rw [addGains]
  split
  · exact gainLoop_spec _ _ hbands.1 (by omega) (by omega)
  · split
    · exact preampLoop_spec gPreamp (by rw [hlen]; decide)
    · exact ⟨iscf, rfl, rfl⟩

/-! ## Powers of two -/

theorem l3LdexpQ2_spec (fuel : Nat) {expQ2 : Int} (hnonneg : 0 ≤ expQ2) (hfuel : expQ2.toNat < fuel) :
    ∃ factors, l3LdexpQ2 fuel expQ2 = some factors := by
  induction fuel generalizing expQ2 with
  | zero => exact absurd hfuel (Nat.not_lt_zero _)
  | succ fuel ih =>
      have he : ¬ min (30 * 4) expQ2 < 0 := by omega
      simp only [l3LdexpQ2, if_neg he]
      split
      · next hmore =>
        obtain ⟨factors, hrest⟩ := ih (Int.le_of_lt hmore) (by omega)
        exact ⟨_, by rw [hrest, Option.map_some]⟩
      · exact ⟨_, rfl⟩

/-- No count of a shift is negative. -/
theorem ldexpFactors_spec {expQ2 : Int} (h : 0 ≤ expQ2) : ∃ factors, ldexpFactors expQ2 = some factors :=
  l3LdexpQ2_spec _ h (Nat.lt_succ_self _)

theorem scaleCells_spec (gain : Factors) (shift : Nat) (cells : Cells) :
    ∃ scf, scaleCells gain shift cells = some scf ∧ SamePattern scf cells := by
  induction cells with
  | nil => exact ⟨[], rfl, rfl⟩
  | cons c cells ih =>
      obtain ⟨scf, hrest, hsame⟩ := ih
      cases c with
      | none => exact ⟨none :: scf, by rw [scaleCells, hrest, Option.map_some], congrArg (false :: ·) hsame⟩
      | some v =>
          obtain ⟨factors, hfactors⟩ := ldexpFactors_spec (Int.natCast_nonneg (v <<< shift))
          refine ⟨some (gain ++ factors) :: scf, ?_, congrArg (true :: ·) hsame⟩
          rw [scaleCells, hfactors, Option.bind_some, hrest, Option.map_some]

/-- The gain is at most `MAX_SCFI`. -/
theorem gainExp_le {hdr : Bytes} {gr : L3GrInfo} (h : GrShape hdr gr) : 0 ≤ maxScfi - gainExp hdr gr := by
  have hgain := h.globalGain_lt
  have hmax : maxScfi = 44 := by decide
  rw [hmax, gainExp, bitsDequantizerOut]
  split <;> omega

/-! ## A granule and channel -/

/-- The bands and up to three zeros behind them: only the bands may lack values. -/
theorem allSet_take_zeros {vals : Cells} (rest : Cells) {n : Nat} (hle : vals.length ≤ n) (hge : n ≤ vals.length + 3) :
    AllSet ((vals ++ some 0 :: some 0 :: some 0 :: rest).take n) ↔ AllSet vals := by
  obtain ⟨k, rfl⟩ := Nat.exists_eq_add_of_le hle
  have hzeros : AllSet ((some 0 :: some 0 :: some 0 :: rest : Cells).take k) := by
    have hk : k ≤ 3 := Nat.le_of_add_le_add_left hge
    intro c hc
    have hmem := (List.take_sublist_take_left hk).mem hc
    have hzero : c = some 0 := by simpa using hmem
    rw [hzero]
    rfl
  rw [List.take_length_add_append, allSet_append]
  exact and_iff_left hzeros

/-- The bands that a second granule may share have positions. -/
abbrev Ready (istPos : Cells) : Prop := AllSet (istPos.take 21)

/-- **Scale factors of a granule and channel**: nothing outside of an array is touched, and all have values unless a
band is copied whose cells have none. -/
theorem l3DecodeScalefactors_spec {hdr : Bytes} {gr : L3GrInfo} (h : GrShape hdr gr) {istPos : Cells}
    (hlen : istPos.length = istPosSize) (bs : Bs) (ch : Nat) :
    ∃ out, l3DecodeScalefactors hdr istPos bs gr ch = some out ∧
      out.scf.length = gr.nLongSfb + gr.nShortSfb ∧ out.istPos.length = istPosSize ∧
      (Unshared hdr gr ∨ Ready istPos → AllSet out.scf ∧ Ready out.istPos) ∧
      ((∀ c ∈ istPos, c = none) → ¬ Unshared hdr gr → ¬ AllSet out.scf) := by
  obtain ⟨sizes, counts, scfsi, total, hlayout, hsizes, htotal, hcovers, hcopies⟩ := scfLayout_spec h ch
  have hle := hcovers.le
  have hge := hcovers.ge
  have hpositions := hcovers.positions
  have hroom := hcovers.room
  have hscfRoom : total + 3 ≤ (unset iscfSize).length := by
    rw [unset, List.length_replicate, iscfSize]
    omega
  have histRoom : total ≤ istPos.length := by
    rw [hlen, istPosSize]
    omega
  obtain ⟨vals, pos, bs', hread, hvals, hscf⟩ :=
    l3ReadScalefactors_spec bs scfsi htotal hscfRoom histRoom (Nat.le_of_eq hsizes.symm)
  have hpos : pos.length = total := hscf.length_pos.trans hvals
  have hiscf : (vals ++ some 0 :: some 0 :: some 0 :: (unset iscfSize).drop (total + 3)).length = iscfSize := by
    rw [unset, List.length_replicate] at hscfRoom
    simp only [List.length_append, List.length_cons, List.length_drop, unset, List.length_replicate]
    omega
  obtain ⟨iscf, hgains, hsame⟩ := addGains_spec h hiscf
  obtain ⟨gain, hgain⟩ := ldexpFactors_spec (gainExp_le h)
  obtain ⟨scf, hscale, hpattern⟩ :=
    scaleCells_spec gain (scfShift gr) (iscf.take (gr.nLongSfb + gr.nShortSfb))
  have hfits : gr.nLongSfb + gr.nShortSfb ≤ iscfSize := by
    rw [iscfSize]
    omega
  have hset : AllSet scf ↔ AllSet vals :=
    hpattern.allSet_iff.trans ((hsame.take _).allSet_iff.trans (allSet_take_zeros _ (by omega) (by omega)))
  refine ⟨⟨scf, pos ++ istPos.drop total, bs'⟩, ?_, ?_, ?_, fun hready => ?_, fun hunset hshared => ?_⟩
  · simp only [l3DecodeScalefactors, hlayout, hread, hgains, hgain, Option.bind_some, if_neg (Nat.not_lt.2 hfits),
      hscale, Option.map_some]
  · rw [hpattern.length_eq, List.length_take_of_le (by rw [hsame.length_eq, hiscf]; exact hfits)]
  · rw [List.length_append, List.length_drop, hpos]
    omega
  · have hfilled : AllSet vals ∧ AllSet pos := by
      split at hcopies
      · exact hscf.fresh hcopies
      · next hshared =>
        -- what is copied are the positions of long windows
        have hfirst : istPos.take vals.length = istPos.take 21 := by rw [hvals, hcopies.2]
        exact hscf.copied (by rw [hfirst]; exact hready.resolve_left hshared)
    have htake : (pos ++ istPos.drop total).take 21 = pos.take 21 :=
      List.take_append_of_le_length (by omega)
    refine ⟨hset.2 hfilled.1, ?_⟩
    rw [Ready, htake]
    exact fun c hc => hfilled.2 c (List.mem_of_mem_take hc)
  · rw [if_neg hshared] at hcopies
    rw [hset]
    exact hscf.unset (fun c hc => hunset c (List.mem_of_mem_take hc)) hcopies.1

end Casquinha.Decode
