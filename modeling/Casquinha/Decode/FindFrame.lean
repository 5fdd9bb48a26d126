import Casquinha.Decode.Frames
import Casquinha.Decode.Header
import Casquinha.Decode.Sync

/-!
# How the decoder synchronises (`src/minimp3.h`)

`mp3dFindFrame` scans for the first header that its successors confirm: up to ten of them, or as many as the
buffer holds, but at least one. A frame that fills the buffer needs none. In the free format the length of the
frame is searched for.

A buffer pointer is the list of the bytes from there on and the byte count is an argument of its own, so that
the list may go on behind the buffer: what is there makes no difference (`mp3dFindFrame_append`). Behind a
header of a clean stream the match comes out well (`matchFrame_iff`), and a frame that the decoder takes and
`cq_mp3_parse` accepts, which leaves out the free format, `cq_mp3_sync` takes too (`realFrame_of_takenAt`).
-/

set_option autoImplicit false

namespace Casquinha.Decode

open Lib

/-- `MAX_FREE_FORMAT_FRAME_SIZE`. -/
def maxFreeFormatFrameSize : Nat := 2304

/-- `MAX_FRAME_SYNC_MATCHES`. -/
def maxFrameSyncMatches : Nat := 10

/-- Where the header behind the one at `i` stands. -/
def nextHdr (hdr : Bytes) (frameBytes i : Nat) : Nat :=
  i + (hdrFrameBytes (hdr.drop i) frameBytes + hdrPadding (hdr.drop i))

/-- The loop of `mp3d_match_frame`. The first argument is `MAX_FRAME_SYNC_MATCHES - nmatch`. -/
def matchLoop (hdr : Bytes) (mp3Bytes frameBytes : Nat) : Nat → Nat → Nat → Bool
  | 0, _, _ => true
  | left + 1, i, nmatch =>
      let i := nextHdr hdr frameBytes i
      if mp3Bytes < i + hdrSize then decide (0 < nmatch)
      else if !hdrCompare hdr (hdr.drop i) then false
      else matchLoop hdr mp3Bytes frameBytes left i (nmatch + 1)

/-- `mp3d_match_frame`. -/
def mp3dMatchFrame (hdr : Bytes) (mp3Bytes frameBytes : Nat) : Bool :=
  matchLoop hdr mp3Bytes frameBytes maxFrameSyncMatches 0 0

/-- The locals `frame_bytes` and `frame_and_padding`, and `*free_format_bytes`. -/
structure FrameSize where
  frameBytes : Nat
  frameAndPadding : Nat
  freeFormatBytes : Nat
deriving DecidableEq

/-- The search for the length of a frame in the free format, from `k` on. -/
def freeLoop (mp3 : Bytes) (i mp3Bytes : Nat) : Nat → Nat → FrameSize → FrameSize
  | 0, _, size => size
  | fuel + 1, k, size =>
      if size.frameBytes = 0 ∧ k < maxFreeFormatFrameSize ∧ i + 2 * k + hdrSize < mp3Bytes then
        if hdrCompare mp3 (mp3.drop k) then
          let fb := k - hdrPadding mp3
          let nextfb := fb + hdrPadding (mp3.drop k)
          if mp3Bytes < i + k + nextfb + hdrSize ∨ hdrCompare mp3 (mp3.drop (k + nextfb)) = false then
            freeLoop mp3 i mp3Bytes fuel (k + 1) size
          else
            freeLoop mp3 i mp3Bytes fuel (k + 1)
              { frameBytes := fb
                frameAndPadding := k
                freeFormatBytes := fb }
        else freeLoop mp3 i mp3Bytes fuel (k + 1) size
      else size

/-- What is known of the frame behind the valid header at `i`. -/
def frameSizeAt (mp3 : Bytes) (i mp3Bytes freeFormatBytes : Nat) : FrameSize :=
  let frameBytes := hdrFrameBytes mp3 freeFormatBytes
  freeLoop mp3 i mp3Bytes maxFreeFormatFrameSize hdrSize
    { frameBytes := frameBytes
      frameAndPadding := frameBytes + hdrPadding mp3
      freeFormatBytes := freeFormatBytes }

/-- The frame is taken: its successors confirm it, or it fills the buffer. -/
def FrameTaken (mp3 : Bytes) (i mp3Bytes : Nat) (size : FrameSize) : Prop :=
  (size.frameBytes ≠ 0 ∧ i + size.frameAndPadding ≤ mp3Bytes ∧
      mp3dMatchFrame mp3 (mp3Bytes - i) size.frameBytes = true) ∨
    (i = 0 ∧ size.frameAndPadding = mp3Bytes)

instance (mp3 : Bytes) (i mp3Bytes : Nat) (size : FrameSize) : Decidable (FrameTaken mp3 i mp3Bytes size) :=
  inferInstanceAs (Decidable (_ ∨ _))

/-- The result, `*ptr_frame_bytes` and `*free_format_bytes` of `mp3d_find_frame`. -/
structure FoundFrame where
  offset : Nat
  frameBytes : Nat
  freeFormatBytes : Nat
deriving DecidableEq

/-- The scan of `mp3d_find_frame` from `i` on. -/
def findLoop (mp3 : Bytes) (mp3Bytes : Nat) : Nat → Nat → Nat → FoundFrame
  | 0, _, freeFormatBytes =>
      { offset := mp3Bytes
        frameBytes := 0
        freeFormatBytes := freeFormatBytes }
  | fuel + 1, i, freeFormatBytes =>
      if i + hdrSize < mp3Bytes then
        if hdrValid (mp3.drop i) then
          let size := frameSizeAt (mp3.drop i) i mp3Bytes freeFormatBytes
          if FrameTaken (mp3.drop i) i mp3Bytes size then
            { offset := i
              frameBytes := size.frameAndPadding
              freeFormatBytes := size.freeFormatBytes }
          else findLoop mp3 mp3Bytes fuel (i + 1) 0
        else findLoop mp3 mp3Bytes fuel (i + 1) freeFormatBytes
      else
        { offset := mp3Bytes
          frameBytes := 0
          freeFormatBytes := freeFormatBytes }

/-- `mp3d_find_frame`. -/
def mp3dFindFrame (mp3 : Bytes) (mp3Bytes freeFormatBytes : Nat) : FoundFrame :=
  findLoop mp3 mp3Bytes mp3Bytes 0 freeFormatBytes

/-! ## Matching -/

/-- Where the `j`-th successor of the header at 0 stands. -/
def hdrAt (hdr : Bytes) (frameBytes : Nat) : Nat → Nat
  | 0 => 0
  | j + 1 => nextHdr hdr frameBytes (hdrAt hdr frameBytes j)

theorem hdrAt_mono (hdr : Bytes) (frameBytes : Nat) {j k : Nat} (h : j ≤ k) :
    hdrAt hdr frameBytes j ≤ hdrAt hdr frameBytes k := by
  induction k with
  | zero =>
      obtain rfl : j = 0 := Nat.le_zero.1 h
      exact Nat.le_refl _
  | succ k ih =>
      rcases Nat.eq_or_lt_of_le h with rfl | hlt
      · exact Nat.le_refl _
      · exact Nat.le_trans (ih (Nat.le_of_lt_succ hlt)) (Nat.le_add_right _ _)

/-- The loop from the `m`-th match on. -/
theorem matchLoop_iff (hdr : Bytes) (mp3Bytes frameBytes : Nat) (left m : Nat) :
    matchLoop hdr mp3Bytes frameBytes left (hdrAt hdr frameBytes m) m = true ↔
      (0 < left → m = 0 → hdrAt hdr frameBytes 1 + hdrSize ≤ mp3Bytes) ∧
        ∀ j, m < j → j ≤ m + left → hdrAt hdr frameBytes j + hdrSize ≤ mp3Bytes →
          hdrCompare hdr (hdr.drop (hdrAt hdr frameBytes j)) = true := by
  induction left generalizing m with
  | zero =>
      refine ⟨fun _ => ⟨fun h => absurd h (Nat.lt_irrefl 0), ?_⟩, fun _ => rfl⟩
      intro j hlt hle
      omega
  | succ left ih =>
      rw [matchLoop]
      simp only [← show hdrAt hdr frameBytes (m + 1) = nextHdr hdr frameBytes (hdrAt hdr frameBytes m) from rfl]
      split
      · next hover =>
        -- the buffer ends in front of the next header, and of all later ones
        rw [decide_eq_true_iff]
        constructor
        · intro hpos
          refine ⟨fun _ hm => absurd hm (Nat.ne_of_gt hpos), ?_⟩
          intro j hlt _ hfits
          have hmono := hdrAt_mono hdr frameBytes (show m + 1 ≤ j from hlt)
          omega
        · rintro ⟨hfirst, -⟩
          by_contra hm
          obtain rfl : m = 0 := Nat.eq_zero_of_not_pos hm
          exact absurd (hfirst (Nat.succ_pos _) rfl) (Nat.not_le.2 hover)
      · next hfits =>
        have hfits' : hdrAt hdr frameBytes (m + 1) + hdrSize ≤ mp3Bytes := Nat.le_of_not_lt hfits
        split
        · next hdiff =>
          refine ⟨fun h => Bool.noConfusion h, fun h => ?_⟩
          rw [h.2 (m + 1) (Nat.lt_succ_self m) (by omega) hfits'] at hdiff
          exact Bool.noConfusion hdiff
        · next hsame =>
          rw [ih (m + 1)]
          have hmatch : hdrCompare hdr (hdr.drop (hdrAt hdr frameBytes (m + 1))) = true := by
            simpa using hsame
          constructor
          · rintro ⟨-, hlater⟩
            refine ⟨fun _ hm => by subst hm; exact hfits', ?_⟩
            intro j hlt hle hj
            rcases Nat.eq_or_lt_of_le (Nat.succ_le_of_lt hlt) with rfl | hlt'
            · exact hmatch
            · exact hlater j hlt' (by omega) hj
          · rintro ⟨-, hall⟩
            refine ⟨fun _ h => absurd h (Nat.succ_ne_zero m), ?_⟩
            intro j hlt hle hj
            exact hall j (by omega) (by omega) hj

/-- **What a match is**: at least one successor lies in the buffer, and of the first ten those that do are
headers of the same stream. -/
theorem matchFrame_iff (hdr : Bytes) (mp3Bytes frameBytes : Nat) :
    mp3dMatchFrame hdr mp3Bytes frameBytes = true ↔
      hdrAt hdr frameBytes 1 + hdrSize ≤ mp3Bytes ∧
        ∀ j, 0 < j → j ≤ maxFrameSyncMatches → hdrAt hdr frameBytes j + hdrSize ≤ mp3Bytes →
          hdrCompare hdr (hdr.drop (hdrAt hdr frameBytes j)) = true := by
  have h := matchLoop_iff hdr mp3Bytes frameBytes maxFrameSyncMatches 0
  rw [Nat.zero_add] at h
  exact h.trans (and_congr_left fun _ => ⟨fun hf => hf (by decide) rfl, fun hf _ _ => hf⟩)

/-! ## The scan -/

/-- The search in the free format leaves the sizes alone, or finds a length that two more headers bear out. -/
theorem freeLoop_cases (mp3 : Bytes) (i mp3Bytes : Nat) :
    ∀ (fuel k : Nat) (size : FrameSize), hdrSize ≤ k →
      freeLoop mp3 i mp3Bytes fuel k size = size ∨
      ∃ k', hdrSize ≤ k' ∧ k' < maxFreeFormatFrameSize ∧ i + k' + hdrSize ≤ mp3Bytes ∧
        (freeLoop mp3 i mp3Bytes fuel k size).frameAndPadding = k' ∧
        (freeLoop mp3 i mp3Bytes fuel k size).frameBytes = k' - hdrPadding mp3 ∧
        hdrCompare mp3 (mp3.drop k') = true := by
  intro fuel
  induction fuel with
  | zero => exact fun _ _ _ => Or.inl rfl
  | succ fuel ih =>
      intro k size hk
      have hnext := ih (k + 1) size (Nat.le_succ_of_le hk)
      rw [freeLoop]
      split
      · next hgo =>
        split
        · next hcompare =>
          simp only
          split
          · exact hnext
          · next hsecond =>
            -- the length is taken; it stays unless it is 0
            rcases ih (k + 1) ⟨k - hdrPadding mp3, k, k - hdrPadding mp3⟩ (Nat.le_succ_of_le hk) with hsame | hlater
            · refine Or.inr ⟨k, hk, hgo.2.1, ?_, ?_, ?_, hcompare⟩
              · rw [not_or] at hsecond
                omega
              · rw [hsame]
              · rw [hsame]
            · exact Or.inr hlater
        · exact hnext
      · exact Or.inl rfl

/-- A frame that is taken has a length, and lies in the buffer. -/
theorem FrameTaken.bounds {mp3 : Bytes} {i mp3Bytes freeFormatBytes : Nat} (hi : i + hdrSize < mp3Bytes)
    (h : FrameTaken mp3 i mp3Bytes (frameSizeAt mp3 i mp3Bytes freeFormatBytes)) :
    0 < (frameSizeAt mp3 i mp3Bytes freeFormatBytes).frameAndPadding ∧
      i + (frameSizeAt mp3 i mp3Bytes freeFormatBytes).frameAndPadding ≤ mp3Bytes := by
  rcases h with ⟨hne, hle, -⟩ | ⟨rfl, hfills⟩
  · refine ⟨?_, hle⟩
    rcases freeLoop_cases mp3 i mp3Bytes maxFreeFormatFrameSize hdrSize
      ⟨hdrFrameBytes mp3 freeFormatBytes, hdrFrameBytes mp3 freeFormatBytes + hdrPadding mp3, freeFormatBytes⟩
      (Nat.le_refl _) with hsame | ⟨k, hk, -, -, hsize, -⟩
    · rw [frameSizeAt, hsame] at hne ⊢
      exact Nat.lt_of_lt_of_le (Nat.pos_of_ne_zero hne) (Nat.le_add_right _ _)
    · rw [frameSizeAt, hsize]
      exact Nat.lt_of_lt_of_le (by decide) hk
  · omega

/-- The decoder takes a frame at `i`. -/
def TakenAt (mp3 : Bytes) (mp3Bytes i : Nat) : Prop :=
  i + hdrSize < mp3Bytes ∧ hdrValid (mp3.drop i) = true ∧
    FrameTaken (mp3.drop i) i mp3Bytes (frameSizeAt (mp3.drop i) i mp3Bytes 0)

instance (mp3 : Bytes) (mp3Bytes i : Nat) : Decidable (TakenAt mp3 mp3Bytes i) :=
  inferInstanceAs (Decidable (_ ∧ _))

theorem findLoop_spec (mp3 : Bytes) (mp3Bytes : Nat) :
    ∀ (fuel i : Nat), mp3Bytes ≤ i + fuel →
      (∃ j, i ≤ j ∧ TakenAt mp3 mp3Bytes j ∧ (∀ k, i ≤ k → k < j → ¬ TakenAt mp3 mp3Bytes k) ∧
        findLoop mp3 mp3Bytes fuel i 0 =
          ⟨j, (frameSizeAt (mp3.drop j) j mp3Bytes 0).frameAndPadding,
            (frameSizeAt (mp3.drop j) j mp3Bytes 0).freeFormatBytes⟩) ∨
      ((∀ k, i ≤ k → ¬ TakenAt mp3 mp3Bytes k) ∧ findLoop mp3 mp3Bytes fuel i 0 = ⟨mp3Bytes, 0, 0⟩) := by
  intro fuel
  induction fuel with
  | zero =>
      intro i hf
      refine Or.inr ⟨?_, rfl⟩
      rintro k hk ⟨hlt, -⟩
      omega
  | succ fuel ih =>
      intro i hf
      -- past an offset where nothing is taken
      have hskip : ¬ TakenAt mp3 mp3Bytes i → findLoop mp3 mp3Bytes (fuel + 1) i 0 = findLoop mp3 mp3Bytes fuel (i + 1) 0 →
          (∃ j, i ≤ j ∧ TakenAt mp3 mp3Bytes j ∧ (∀ k, i ≤ k → k < j → ¬ TakenAt mp3 mp3Bytes k) ∧
            findLoop mp3 mp3Bytes (fuel + 1) i 0 =
              ⟨j, (frameSizeAt (mp3.drop j) j mp3Bytes 0).frameAndPadding,
                (frameSizeAt (mp3.drop j) j mp3Bytes 0).freeFormatBytes⟩) ∨
          ((∀ k, i ≤ k → ¬ TakenAt mp3 mp3Bytes k) ∧ findLoop mp3 mp3Bytes (fuel + 1) i 0 = ⟨mp3Bytes, 0, 0⟩) := by
        intro hnot heq
        have hfrom : ∀ k, i ≤ k → i + 1 ≤ k ∨ k = i := fun k hk => by omega
        rw [heq]
        rcases ih (i + 1) (by omega) with ⟨j, hj, htaken, hfirst, hres⟩ | ⟨hnone, hres⟩
        · refine Or.inl ⟨j, Nat.le_of_succ_le hj, htaken, ?_, hres⟩
          intro k hk hlt
          rcases hfrom k hk with hk' | rfl
          · exact hfirst k hk' hlt
          · exact hnot
        · refine Or.inr ⟨?_, hres⟩
          intro k hk
          rcases hfrom k hk with hk' | rfl
          · exact hnone k hk'
          · exact hnot
      by_cases hlt : i + hdrSize < mp3Bytes
      · by_cases hvalid : hdrValid (mp3.drop i) = true
        · by_cases htaken : FrameTaken (mp3.drop i) i mp3Bytes (frameSizeAt (mp3.drop i) i mp3Bytes 0)
          · refine Or.inl ⟨i, Nat.le_refl i, ⟨hlt, hvalid, htaken⟩, fun k hk hk' => absurd hk' (Nat.not_lt.2 hk), ?_⟩
            simp only [findLoop, hlt, hvalid, htaken, if_true]
          · apply hskip fun h => htaken h.2.2
            simp only [findLoop, hlt, hvalid, htaken, if_true, if_false]
        · apply hskip fun h => hvalid h.2.1
          simp only [findLoop, hlt, if_true, if_neg hvalid]
      · refine Or.inr ⟨?_, ?_⟩
        · rintro k hk ⟨hklt, -⟩
          omega
        · simp only [findLoop, hlt, if_false]

/-- **The decoder synchronises on the first frame it can take**, and answers with the end of the buffer when
there is none. -/
theorem findFrame_cases (mp3 : Bytes) (mp3Bytes : Nat) :
    (∃ i, TakenAt mp3 mp3Bytes i ∧ (∀ k < i, ¬ TakenAt mp3 mp3Bytes k) ∧
      mp3dFindFrame mp3 mp3Bytes 0 =
        ⟨i, (frameSizeAt (mp3.drop i) i mp3Bytes 0).frameAndPadding,
          (frameSizeAt (mp3.drop i) i mp3Bytes 0).freeFormatBytes⟩) ∨
    ((∀ k, ¬ TakenAt mp3 mp3Bytes k) ∧ mp3dFindFrame mp3 mp3Bytes 0 = ⟨mp3Bytes, 0, 0⟩) := by
  rcases findLoop_spec mp3 mp3Bytes mp3Bytes 0 (Nat.le_add_left _ _) with ⟨i, -, htaken, hfirst, hres⟩ | ⟨hnone, hres⟩
  · exact Or.inl ⟨i, htaken, fun k => hfirst k (Nat.zero_le k), hres⟩
  · exact Or.inr ⟨fun k => hnone k (Nat.zero_le k), hres⟩

/-! ## Nothing behind the buffer -/

theorem drop_append_four {mp3 : Bytes} {i n : Nat} (more : Bytes) (hi : i + hdrSize ≤ n) (hn : n ≤ mp3.length) :
    (mp3 ++ more).drop i = mp3.drop i ++ more ∧ 4 ≤ (mp3.drop i).length := by
  rw [hdrSize] at hi
  rw [List.drop_append_of_le_length (by omega), List.length_drop]
  exact ⟨rfl, by omega⟩

theorem nextHdr_append {hdr : Bytes} {i n : Nat} (more : Bytes) (frameBytes : Nat) (hi : i + hdrSize ≤ n)
    (hn : n ≤ hdr.length) : nextHdr (hdr ++ more) frameBytes i = nextHdr hdr frameBytes i := by
  obtain ⟨hdrop, hfour⟩ := drop_append_four more hi hn
  rw [nextHdr, hdrop, hdrFrameBytes_append more _ hfour, hdrPadding_append more hfour, nextHdr]

theorem matchLoop_append {hdr : Bytes} {n : Nat} (more : Bytes) (frameBytes : Nat) (hn : n ≤ hdr.length) :
    ∀ left i m, i + hdrSize ≤ n →
      matchLoop (hdr ++ more) n frameBytes left i m = matchLoop hdr n frameBytes left i m := by
  intro left
  induction left with
  | zero => exact fun _ _ _ => rfl
  | succ left ih =>
      intro i m hi
      have hfour : 4 ≤ hdr.length := by
        rw [hdrSize] at hi
        omega
      rw [matchLoop, matchLoop, nextHdr_append more frameBytes hi hn]
      split
      · rfl
      · next hfits =>
        obtain ⟨hdrop, hfour'⟩ := drop_append_four more (Nat.le_of_not_lt hfits) hn
        rw [hdrop, hdrCompare_append more more hfour hfour', ih _ _ (Nat.le_of_not_lt hfits)]

theorem freeLoop_append {mp3 : Bytes} {i n : Nat} (more : Bytes) (hn : n ≤ i + mp3.length) :
    ∀ fuel k size, hdrSize ≤ k → freeLoop (mp3 ++ more) i n fuel k size = freeLoop mp3 i n fuel k size := by
  intro fuel
  induction fuel with
  | zero => exact fun _ _ _ => rfl
  | succ fuel ih =>
      intro k size hk
      rw [freeLoop, freeLoop]
      split
      · next hgo =>
        have hlen : 4 ≤ mp3.length ∧ k + hdrSize ≤ mp3.length := by
          rw [hdrSize] at hgo hk ⊢
          omega
        obtain ⟨hdrop, hfour⟩ := drop_append_four more hlen.2 (Nat.le_refl _)
        rw [hdrop, hdrCompare_append more more hlen.1 hfour, hdrPadding_append more hlen.1,
          hdrPadding_append more hfour]
        split
        · simp only
          by_cases hover : n < i + k + (k - hdrPadding mp3 + hdrPadding (mp3.drop k)) + hdrSize
          · -- the second header is not in the buffer
            rw [if_pos (Or.inl hover), if_pos (Or.inl hover)]
            exact ih _ _ (Nat.le_succ_of_le hk)
          · obtain ⟨hdrop', hfour'⟩ := drop_append_four (i := k + (k - hdrPadding mp3 + hdrPadding (mp3.drop k)))
              more (show _ ≤ mp3.length by omega) (Nat.le_refl _)
            rw [hdrop', hdrCompare_append more more hlen.1 hfour', ih _ _ (Nat.le_succ_of_le hk),
              ih _ _ (Nat.le_succ_of_le hk)]
        · exact ih _ _ (Nat.le_succ_of_le hk)
      · rfl

theorem frameSizeAt_append {mp3 : Bytes} {i n : Nat} (more : Bytes) (freeFormatBytes : Nat)
    (hfour : 4 ≤ mp3.length) (hn : n ≤ i + mp3.length) :
    frameSizeAt (mp3 ++ more) i n freeFormatBytes = frameSizeAt mp3 i n freeFormatBytes := by
  rw [frameSizeAt, hdrFrameBytes_append more _ hfour, hdrPadding_append more hfour,
    freeLoop_append more hn _ _ _ (Nat.le_refl _), frameSizeAt]

/-- **What lies behind the buffer makes no difference**: no byte from there is looked at. -/
theorem mp3dFindFrame_append (mp3 more : Bytes) (freeFormatBytes : Nat) :
    mp3dFindFrame (mp3 ++ more) mp3.length freeFormatBytes = mp3dFindFrame mp3 mp3.length freeFormatBytes := by
  have hloop : ∀ fuel i freeFormatBytes, findLoop (mp3 ++ more) mp3.length fuel i freeFormatBytes =
      findLoop mp3 mp3.length fuel i freeFormatBytes := by
    intro fuel
    induction fuel with
    | zero => exact fun _ _ => rfl
    | succ fuel ih =>
        intro i freeFormatBytes
        rw [findLoop, findLoop]
        split
        · next hlt =>
          obtain ⟨hdrop, hfour⟩ := drop_append_four more (Nat.le_of_lt hlt) (Nat.le_refl _)
          have hlen : (mp3.drop i).length = mp3.length - i := List.length_drop
          rw [hdrop, hdrValid_append more hfour]
          split
          · have hmatch : ∀ frameBytes, mp3dMatchFrame (mp3.drop i ++ more) (mp3.length - i) frameBytes =
                mp3dMatchFrame (mp3.drop i) (mp3.length - i) frameBytes := by
              intro frameBytes
              rw [mp3dMatchFrame, matchLoop_append more frameBytes (Nat.le_of_eq hlen.symm) _ _ _
                (by rw [hdrSize]; omega), mp3dMatchFrame]
            have htaken : ∀ size, FrameTaken (mp3.drop i ++ more) i mp3.length size ↔
                FrameTaken (mp3.drop i) i mp3.length size := by
              intro size
              rw [FrameTaken, hmatch, FrameTaken]
            simp only [frameSizeAt_append more _ hfour (show mp3.length ≤ i + (mp3.drop i).length by omega),
              htaken, ih]
          · exact ih _ _
        · rfl
  exact hloop _ _ _

/-! ## The two synchronisations -/

theorem byte1_layer : ∀ b : UInt8, ((b >>> 1) &&& 3).toNat = (((b &&& 0xFE) >>> 1) &&& 3).toNat := by
  exact forall_byte (by decide +kernel)

theorem and_eq_of_xor {a b m : UInt8} (h : (a ^^^ b) &&& m = 0) : a &&& m = b &&& m := by
  have hxor : (a ^^^ b) &&& m = (a &&& m) ^^^ (b &&& m) := by
    rw [← UInt8.toNat_inj, UInt8.toNat_and, UInt8.toNat_xor, UInt8.toNat_xor, UInt8.toNat_and, UInt8.toNat_and,
      Nat.and_xor_distrib_right]
  exact UInt8.xor_eq_zero_iff.1 (hxor.symm.trans h)

/-- A header of the same stream is of Layer III too. -/
theorem hdrLayer3_of_compare {p q : Bytes} (hp : hdrLayer3 p = true) (h : hdrCompare p q = true) :
    hdrLayer3 q = true := by
  simp only [hdrCompare, Bool.and_eq_true, beq_iff_eq, Bool.not_eq_true', bne_eq_false_iff_eq] at h
  obtain ⟨⟨⟨hvalid, h1⟩, -⟩, hfree⟩ := h
  obtain ⟨-, hlayer, hpfree, -⟩ := hdrLayer3_parts hp
  have hq : hdrGetLayer q = 1 := by
    rw [← hlayer, hdrGetLayer, hdrGetLayer, byte1_layer (hdrByte q 1), ← and_eq_of_xor h1, ← byte1_layer]
  simp only [hdrLayer3, hvalid, hq, ← hfree, hpfree]
  rfl

/-- The length of a Layer III frame does not come from the free format. -/
theorem hdrFrameBytes_layer3 {p : Bytes} {f : CqMp3Frame} (hp : cqMp3Parse p = some f) (freeFormatSize : Nat) :
    hdrFrameBytes p freeFormatSize + hdrPadding p = f.frameBytes ∧ hdrFrameBytes p freeFormatSize ≠ 0 := by
  have hge := (frameBytes_bounds hp).1
  obtain ⟨-, hlayer3, rfl⟩ := cqMp3Parse_eq_some_iff.1 hp
  have hlayer1 : hdrIsLayer1 p = false := (byte1_facts (hdrByte p 1) (hdrLayer3_parts hlayer3).2.1).2.2.2.2
  have hpad : hdrPadding p ≤ 1 := by
    rw [hdrPadding, hlayer1]
    split <;> decide
  have hne : hdrFrameBytes p 0 ≠ 0 := by
    simp only [hdrFrame] at hge
    omega
  have hsame : hdrFrameBytes p freeFormatSize = hdrFrameBytes p 0 := by
    simp only [hdrFrameBytes, hlayer1, Bool.false_eq_true, if_false] at hne ⊢
    split at hne
    · next hpos => rw [if_pos hpos, if_pos hpos]
    · exact absurd rfl hne
  exact ⟨by rw [hsame]; rfl, by rwa [hsame]⟩

/-- **What the decoder synchronises on, `cq_mp3_sync` confirms**: a frame that the decoder takes and `cq_mp3_parse`
accepts is a real frame of the buffer, or fills it. -/
theorem realFrame_of_takenAt {mp3 : Bytes} {i : Nat} {f : CqMp3Frame} (h : TakenAt mp3 mp3.length i)
    (hf : cqMp3Parse (mp3.drop i) = some f) : RealFrame mp3 i ∨ i = 0 ∧ f.frameBytes = mp3.length := by
  obtain ⟨hlt, -, htaken⟩ := h
  obtain ⟨hbytes, hne⟩ := hdrFrameBytes_layer3 hf 0
  -- the search for a free format has nothing to do
  have hsize : frameSizeAt (mp3.drop i) i mp3.length 0 =
      ⟨hdrFrameBytes (mp3.drop i) 0, f.frameBytes, 0⟩ := by
    rw [frameSizeAt, hbytes, maxFreeFormatFrameSize, freeLoop, if_neg fun hgo => hne hgo.1]
  rw [hsize] at htaken
  rcases htaken with ⟨-, -, hmatch⟩ | ⟨rfl, hfills⟩
  · obtain ⟨hfirst, hall⟩ := (matchFrame_iff _ _ _).1 hmatch
    have hnext : hdrAt (mp3.drop i) (hdrFrameBytes (mp3.drop i) 0) 1 = f.frameBytes := by
      rw [hdrAt, hdrAt, nextHdr, List.drop_zero, Nat.zero_add,
        (hdrFrameBytes_layer3 hf (hdrFrameBytes (mp3.drop i) 0)).1]
    have hcompare := hall 1 Nat.one_pos (by decide) hfirst
    rw [hnext, List.drop_drop] at hcompare
    rw [hnext, hdrSize] at hfirst
    have hlayer3 := hdrLayer3_of_compare (cqMp3Parse_eq_some_iff.1 hf).2.1 hcompare
    have hg : cqMp3Parse (mp3.drop (i + f.frameBytes)) = some (hdrFrame (mp3.drop (i + f.frameBytes))) :=
      cqMp3Parse_eq_some_iff.2 ⟨by rw [List.length_drop]; omega, hlayer3, rfl⟩
    exact Or.inl ⟨f, _, hf, hg, (coherent_iff_hdrCompare hf hg).2 hcompare⟩
  · exact Or.inr ⟨rfl, hfills⟩

theorem realFrame_of_takenAt_short :
    RealFrame (shortFrame ++ shortFrame) 0 ∨ 0 = 0 ∧ (hdrFrame shortFrame).frameBytes = (shortFrame ++ shortFrame).length :=
  have htaken : TakenAt (shortFrame ++ shortFrame) (shortFrame ++ shortFrame).length 0 := by decide +kernel
  have hparse : cqMp3Parse ((shortFrame ++ shortFrame).drop 0) = some (hdrFrame shortFrame) := by decide +kernel
  realFrame_of_takenAt htaken hparse

end Casquinha.Decode
