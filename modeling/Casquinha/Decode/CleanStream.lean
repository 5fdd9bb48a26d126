import Casquinha.Decode.Minimp3

/-!
# The decoder on a clean stream (`src/minimp3.h`)

At the head of a clean stream, with the next header in the buffer or with nothing behind the frame, the decoder takes
exactly the first frame, whatever state it is in: in step with the stream it compares two headers, out of step it
compares up to ten (`minimp3_streamExact`). With one to three bytes behind the frame it can do neither, and the frame
is lost: it is what the tail gate of the pump is for (`takesHead_iff`).
-/

set_option autoImplicit false

namespace Casquinha.Decode

open Lib

variable {φ : Type} {version samplerate : Nat}

/-! ## Frames are longer than their headers -/

theorem ge_of_getD {l : List Nat} {i a : Nat} (hl : ∀ x ∈ l, x = 0 ∨ a ≤ x) (h : l.getD i 0 ≠ 0) : a ≤ l.getD i 0 := by
  rw [List.getD_eq_getElem?_getD] at h ⊢
  cases hx : l[i]? with
  | none =>
      rw [hx] at h
      exact absurd rfl h
  | some x =>
      rw [hx] at h
      exact (hl x (List.mem_of_getElem? hx)).resolve_left h

theorem headerFrame_ge {version bidx ridx pad mode : Nat} {f : CqMp3Frame}
    (hversion : version = 1 ∨ version = 2 ∨ version = 25)
    (h : headerFrame version bidx ridx pad mode = some f) : 24 ≤ f.frameBytes := by
  have hrate : kRate.getD ridx 0 ≤ 48000 := le_of_getD (by decide) (by decide)
  rcases hversion with rfl | rfl | rfl
  · simp only [headerFrame, if_true, Option.ite_none_left_eq_some, Option.some.injEq, not_or] at h
    obtain ⟨⟨hb, hr⟩, -, rfl⟩ := h
    have hbit : 32 ≤ kBitV1.getD bidx 0 := ge_of_getD (by decide) hb
    have hdiv : 24 ≤ 144 * (kBitV1.getD bidx 0 * 1000) / kRate.getD ridx 0 :=
      (Nat.le_div_iff_mul_le (Nat.pos_of_ne_zero hr)).2 (by omega)
    exact Nat.le_trans hdiv (Nat.le_add_right _ _)
  · simp only [headerFrame, Option.ite_none_left_eq_some, Option.some.injEq, not_or] at h
    obtain ⟨⟨hb, hr⟩, -, rfl⟩ := h
    have hbit : 8 ≤ kBitV2.getD bidx 0 := ge_of_getD (by decide) hb
    have hr' := (kRate_getD ridx).resolve_left hr
    have hdiv : 24 ≤ 72 * (kBitV2.getD bidx 0 * 1000) / (kRate.getD ridx 0 / 2) :=
      (Nat.le_div_iff_mul_le (by omega)).2 (by omega)
    exact Nat.le_trans hdiv (Nat.le_add_right _ _)
  · simp only [headerFrame, Option.ite_none_left_eq_some, Option.some.injEq, not_or] at h
    obtain ⟨⟨hb, hr⟩, -, rfl⟩ := h
    have hbit : 8 ≤ kBitV2.getD bidx 0 := ge_of_getD (by decide) hb
    have hr' := (kRate_getD ridx).resolve_left hr
    have hdiv : 24 ≤ 72 * (kBitV2.getD bidx 0 * 1000) / (kRate.getD ridx 0 / 4) :=
      (Nat.le_div_iff_mul_le (by omega)).2 (by omega)
    exact Nat.le_trans hdiv (Nat.le_add_right _ _)

/-- The shortest frame has 24 bytes. -/
theorem frameBytes_ge {p : Bytes} {f : CqMp3Frame} (h : cqMp3Parse p = some f) : 24 ≤ f.frameBytes := by
  unfold cqMp3Parse at h
  split at h
  · simp only at h
    split at h
    · cases h
    · split at h
      · cases h
      · refine headerFrame_ge ?_ h
        split
        · exact Or.inl rfl
        · split
          · exact Or.inr (Or.inl rfl)
          · exact Or.inr (Or.inr rfl)
  · cases h

/-! ## What follows a frame -/

/-- Nothing follows the frame, or the first bytes of a clean stream do: the next header at least. -/
def CleanRest (version samplerate : Nat) (rest : Bytes) : Prop :=
  rest = [] ∨ 4 ≤ rest.length ∧ ∃ frames : List Bytes, (∀ b ∈ frames, IsFrame version samplerate b) ∧
    rest <+: frames.flatten

/-- A decoder that takes exactly the first frame of a clean stream, and looks at nothing else. -/
structure StreamExact {σ : Type} (d : Mp3Decoder σ) (version samplerate : Nat) : Prop where
  decode_append : ∀ s b rest, IsFrame version samplerate b → CleanRest version samplerate rest →
    d.decodeFrame s (b ++ rest) = d.decodeFrame s b
  consumed_eq : ∀ s b, IsFrame version samplerate b → (d.decodeFrame s b).2.consumed = b.length

/-- The first header of a piece of a clean stream. -/
theorem parse_of_prefix {buf : Bytes} {frames : List Bytes} (hframes : ∀ b ∈ frames, IsFrame version samplerate b)
    (hpre : buf <+: frames.flatten) (hlen : 4 ≤ buf.length) :
    ∃ b frames' f, frames = b :: frames' ∧ cqMp3Parse buf = some f ∧ f.frameBytes = b.length ∧
      f.version = version ∧ f.samplerate = samplerate := by
  obtain ⟨more, hmore⟩ := hpre
  cases frames with
  | nil =>
      have hnil := List.append_eq_nil_iff.1 hmore
      rw [hnil.1] at hlen
      exact absurd hlen (by decide)
  | cons b frames' =>
      obtain ⟨f, hf, hrest⟩ := (hframes b List.mem_cons_self).parse_append frames'.flatten
      refine ⟨b, frames', f, rfl, ?_, hrest⟩
      rw [← List.flatten_cons, ← hmore, cqMp3Parse_append more hlen] at hf
      exact hf

/-- The headers that a match walks along in a piece of a clean stream are headers of its frames. -/
theorem drop_hdrAt {buf : Bytes} {frames : List Bytes} (hframes : ∀ b ∈ frames, IsFrame version samplerate b)
    (hpre : buf <+: frames.flatten) (freeFormatSize j : Nat)
    (hfits : ∀ k < j, hdrAt buf freeFormatSize k + hdrSize ≤ buf.length) :
    ∃ later : List Bytes, (∀ b ∈ later, IsFrame version samplerate b) ∧
      buf.drop (hdrAt buf freeFormatSize j) <+: later.flatten := by
  induction j with
  | zero => exact ⟨frames, hframes, hpre⟩
  | succ j ih =>
      obtain ⟨later, hlater, hdrop⟩ := ih fun k hk => hfits k (Nat.lt_succ_of_lt hk)
      have hfour := hfits j (Nat.lt_succ_self j)
      have hlen : 4 ≤ (buf.drop (hdrAt buf freeFormatSize j)).length := by
        rw [List.length_drop]
        rw [hdrSize] at hfour
        omega
      obtain ⟨b, later', f, rfl, hf, hbytes, -, -⟩ := parse_of_prefix hlater hdrop hlen
      refine ⟨later', fun c hc => hlater c (List.mem_cons_of_mem _ hc), ?_⟩
      rw [hdrAt, nextHdr, (hdrFrameBytes_layer3 hf freeFormatSize).1, hbytes, ← List.drop_drop]
      -- past the frame at the head, or past the end of the buffer
      obtain ⟨more, hmore⟩ := hdrop
      rw [List.flatten_cons] at hmore
      have hcut := congrArg (List.drop b.length) hmore
      rw [List.drop_left, List.drop_append] at hcut
      rw [← hcut]
      exact List.prefix_append _ _

/-- Every header that the match meets in a piece of a clean stream is a header of the same stream. -/
theorem matchFrame_clean {buf : Bytes} {frames : List Bytes} (hframes : ∀ b ∈ frames, IsFrame version samplerate b)
    (hpre : buf <+: frames.flatten) (freeFormatSize : Nat)
    (hfirst : hdrAt buf freeFormatSize 1 + hdrSize ≤ buf.length) :
    mp3dMatchFrame buf buf.length freeFormatSize = true := by
  refine (matchFrame_iff _ _ _).2 ⟨hfirst, fun j hpos _ hfits => ?_⟩
  have hmono : ∀ k < j, hdrAt buf freeFormatSize k + hdrSize ≤ buf.length := fun k hk =>
    Nat.le_trans (Nat.add_le_add_right (hdrAt_mono buf freeFormatSize (Nat.le_of_lt hk)) _) hfits
  obtain ⟨later, hlater, hdrop⟩ := drop_hdrAt hframes hpre freeFormatSize j hmono
  have hlen : 4 ≤ (buf.drop (hdrAt buf freeFormatSize j)).length := by
    rw [List.length_drop]
    rw [hdrSize] at hfits
    omega
  have hlen' : 4 ≤ buf.length := by
    rw [List.length_drop] at hlen
    omega
  obtain ⟨-, -, g, -, hg, -, hgv, hgr⟩ := parse_of_prefix hlater hdrop hlen
  obtain ⟨-, -, f, -, hf, -, hfv, hfr⟩ := parse_of_prefix hframes hpre hlen'
  exact (coherent_iff_hdrCompare hf hg).1 ⟨hgv.trans hfv.symm, hgr.trans hfr.symm⟩

variable {b rest : Bytes}

/-- The first frame and what the header behind it says. -/
structure AtHead (b rest : Bytes) : Prop where
  length_pos : hdrSize < b.length
  valid : hdrValid (b ++ rest) = true
  bytes : ∀ freeFormatSize, hdrFrameBytes (b ++ rest) freeFormatSize + hdrPadding (b ++ rest) = b.length ∧
    hdrFrameBytes (b ++ rest) freeFormatSize ≠ 0
  next : rest = [] ∨ hdrSize ≤ rest.length ∧ hdrCompare (b ++ rest) rest = true
  confirmed : rest = [] ∨ ∀ freeFormatSize, mp3dMatchFrame (b ++ rest) (b ++ rest).length freeFormatSize = true

theorem CleanRest.atHead (hb : IsFrame version samplerate b) (hrest : CleanRest version samplerate rest) :
    AtHead b rest := by
  obtain ⟨f, hf, hlen, hv, hr⟩ := hb.parse_append rest
  have hge := frameBytes_ge hf
  have hbytes : ∀ freeFormatSize, hdrFrameBytes (b ++ rest) freeFormatSize + hdrPadding (b ++ rest) = b.length ∧
      hdrFrameBytes (b ++ rest) freeFormatSize ≠ 0 := by
    intro freeFormatSize
    rw [← hlen]
    exact hdrFrameBytes_layer3 hf freeFormatSize
  have hnext : rest = [] ∨ hdrSize ≤ rest.length ∧ hdrCompare (b ++ rest) rest = true := by
    rcases hrest with rfl | ⟨hfour, frames, hframes, hpre⟩
    · exact Or.inl rfl
    · obtain ⟨-, -, g, -, hg, -, hgv, hgr⟩ := parse_of_prefix hframes hpre hfour
      exact Or.inr ⟨hfour, (coherent_iff_hdrCompare hf hg).1 ⟨hgv.trans hv.symm, hgr.trans hr.symm⟩⟩
  refine ⟨by rw [← hlen, hdrSize]; omega, (hdrLayer3_parts (cqMp3Parse_eq_some_iff.1 hf).2.1).1, hbytes, hnext, ?_⟩
  rcases hrest with rfl | ⟨hfour, frames, hframes, hpre⟩
  · exact Or.inl rfl
  · refine Or.inr fun freeFormatSize => ?_
    have hall : ∀ c ∈ b :: frames, IsFrame version samplerate c := by
      intro c hc
      rcases List.mem_cons.1 hc with rfl | hc
      · exact hb
      · exact hframes c hc
    apply matchFrame_clean hall ((List.prefix_append_right_inj b).2 hpre)
    rw [hdrAt, hdrAt, nextHdr, List.drop_zero, Nat.zero_add, (hbytes freeFormatSize).1, List.length_append]
    exact Nat.add_le_add_left hfour _

/-- In step, the decoder takes the first frame if and only if its header continues the stream. -/
theorem AtHead.lockedSize (h : AtHead b rest) (dec : Mp3Dec φ) :
    lockedSize dec (b ++ rest) (b ++ rest).length =
      if hdrByte dec.header 0 = 0xFF ∧ hdrCompare dec.header (b ++ rest) = true then b.length else 0 := by
  have hlen : 4 < (b ++ rest).length := by
    have hpos := h.length_pos
    rw [List.length_append]
    rw [hdrSize] at hpos
    omega
  simp only [Casquinha.Decode.lockedSize, hlen, true_and, (h.bytes dec.freeFormatBytes).1, List.drop_left]
  have hkeep : ¬ (b.length ≠ (b ++ rest).length ∧
      ((b ++ rest).length < b.length + hdrSize ∨ hdrCompare (b ++ rest) rest = false)) := by
    rintro ⟨hne, hno⟩
    rcases h.next with rfl | ⟨hfour, hcompare⟩
    · exact hne (by rw [List.append_nil])
    · rcases hno with hshort | hdiff
      · rw [List.length_append] at hshort
        omega
      · rw [hcompare] at hdiff
        cases hdiff
  rw [if_neg hkeep]

/-- Out of step, the search finds it. -/
theorem AtHead.findFrame (h : AtHead b rest) :
    mp3dFindFrame (b ++ rest) (b ++ rest).length 0 = ⟨0, b.length, 0⟩ := by
  obtain ⟨hbytes, hne⟩ := h.bytes 0
  have hsize : frameSizeAt (b ++ rest) 0 (b ++ rest).length 0 =
      ⟨hdrFrameBytes (b ++ rest) 0, b.length, 0⟩ := by
    rw [frameSizeAt, hbytes, maxFreeFormatFrameSize, freeLoop, if_neg fun hgo => hne hgo.1]
  have htaken : TakenAt (b ++ rest) (b ++ rest).length 0 := by
    refine ⟨?_, h.valid, ?_⟩
    · have hpos := h.length_pos
      rw [List.length_append]
      omega
    · rw [List.drop_zero, hsize]
      rcases h.confirmed with rfl | hmatch
      · exact Or.inr ⟨rfl, by rw [List.append_nil]⟩
      · refine Or.inl ⟨hne, ?_, hmatch _⟩
        rw [Nat.zero_add, List.length_append]
        exact Nat.le_add_right _ _
  rcases findFrame_cases (b ++ rest) (b ++ rest).length with ⟨i, -, hfirst, hfound⟩ | ⟨hnone, -⟩
  · have hi : i = 0 := by
      by_contra hpos
      exact hfirst 0 (Nat.pos_of_ne_zero hpos) htaken
    subst hi
    rw [hfound, List.drop_zero, hsize]
  · exact absurd htaken (hnone 0)

/-- The frame at the head is found, with the state it is read in. -/
theorem AtHead.locateFrame (h : AtHead b rest) (y : Synthesis φ) (dec : Mp3Dec φ) :
    locateFrame y dec (b ++ rest) (b ++ rest).length =
      (if hdrByte dec.header 0 = 0xFF ∧ hdrCompare dec.header (b ++ rest) = true then dec else zeroed y, 0, b.length) := by
  have hpos : b.length ≠ 0 := Nat.ne_of_gt (Nat.lt_of_le_of_lt (Nat.zero_le _) h.length_pos)
  have hfits : ¬ (b ++ rest).length < 0 + b.length := by
    rw [List.length_append]
    omega
  simp only [Casquinha.Decode.locateFrame, h.lockedSize dec]
  by_cases hstep : hdrByte dec.header 0 = 0xFF ∧ hdrCompare dec.header (b ++ rest) = true
  · rw [if_pos hstep, if_neg hpos, if_pos hstep]
  · rw [if_neg hstep, if_pos rfl, if_neg hstep, show (zeroed y).freeFormatBytes = 0 from rfl, h.findFrame]
    rw [if_neg (not_or.2 ⟨hpos, hfits⟩)]
    rfl

/-! ## Exactness -/

/-- A call at the head of a clean stream reads the first frame and nothing else. -/
theorem AtHead.decodeFrame (h : AtHead b rest) (y : Synthesis φ) (scratch : Mp3decScratch) (dec : Mp3Dec φ)
    (info : Mp3decFrameInfo) :
    mp3decDecodeFrame y scratch dec (b ++ rest) (b ++ rest).length info =
      decodeAt y scratch
        { (if hdrByte dec.header 0 = 0xFF ∧ hdrCompare dec.header (b ++ rest) = true then dec else zeroed y) with
          header := b.take hdrSize }
        (b.take hdrSize) ((b.drop hdrSize).take (b.length - hdrSize)) b.length
        (frameInfoAt (b.take hdrSize) 0 b.length) := by
  have hpos := h.length_pos
  have hne : b.length ≠ 0 := Nat.ne_of_gt (Nat.lt_of_le_of_lt (Nat.zero_le _) hpos)
  have hdrop : ((b ++ rest).drop hdrSize).take (b.length - hdrSize) = (b.drop hdrSize).take (b.length - hdrSize) := by
    rw [List.drop_append_of_le_length (Nat.le_of_lt hpos),
      List.take_append_of_le_length (by rw [List.length_drop])]
  simp only [mp3decDecodeFrame, h.locateFrame y dec]
  rw [if_neg hne, List.drop_zero, Nat.zero_add, hdrop, List.take_append_of_le_length (Nat.le_of_lt hpos)]

/-- **The decoder on a clean stream**: it takes exactly the first frame, whatever state it is in. -/
theorem minimp3_streamExact (y : Synthesis φ) (info : Mp3decFrameInfo) (version samplerate : Nat) :
    StreamExact (minimp3 y info) version samplerate where
  decode_append := by
    intro ⟨dec, scratch⟩ b rest hb hrest
    have h := CleanRest.atHead hb hrest
    have halone := CleanRest.atHead hb (Or.inl rfl)
    have hpos := h.length_pos
    have hsame : hdrCompare dec.header (b ++ rest) = hdrCompare dec.header (b ++ []) := by
      rw [List.append_nil]
      exact append_of_take (fun p => hdrCompare_take_right dec.header p) rest (Nat.le_of_lt hpos)
    have hcall : mp3decDecodeFrame y (scratch 0) dec (b ++ rest) (b ++ rest).length info =
        mp3decDecodeFrame y (scratch 0) dec b b.length info := by
      have hb' := halone.decodeFrame y (scratch 0) dec info
      rw [← hsame, List.append_nil] at hb'
      rw [h.decodeFrame y (scratch 0) dec info, hb']
    simp only [minimp3, hcall]
  consumed_eq := by
    intro ⟨dec, scratch⟩ b hb
    have hcall := (CleanRest.atHead hb (Or.inl rfl)).decodeFrame y (scratch 0) dec info
    rw [List.append_nil] at hcall
    simp only [minimp3, hcall, (decodeAt_spec y _ _ _ _ _ _).1, frameInfoAt, Nat.zero_add]

/-! ## One to three bytes behind the frame -/

/-- Without the whole next header in the buffer, the decoder is out of step. -/
theorem lockedSize_short (hb : IsFrame version samplerate b) (hne : rest ≠ []) (hshort : rest.length < hdrSize)
    (dec : Mp3Dec φ) : lockedSize dec (b ++ rest) (b ++ rest).length = 0 := by
  obtain ⟨f, hf, hlen, -, -⟩ := hb.parse_append rest
  have hmore := List.length_pos_iff.2 hne
  simp only [lockedSize, (hdrFrameBytes_layer3 hf dec.freeFormatBytes).1, hlen]
  split
  · rw [if_pos ⟨by rw [List.length_append]; omega, Or.inl (by rw [List.length_append]; omega)⟩]
  · rfl

/-- The search cannot confirm the frame either. -/
theorem not_takenAt_short (hb : IsFrame version samplerate b) (hne : rest ≠ []) (hshort : rest.length < hdrSize) :
    ¬ TakenAt (b ++ rest) (b ++ rest).length 0 := by
  obtain ⟨f, hf, hlen, -, -⟩ := hb.parse_append rest
  have hmore := List.length_pos_iff.2 hne
  obtain ⟨hbytes, hbytesne⟩ := hdrFrameBytes_layer3 hf 0
  rintro ⟨-, -, htaken⟩
  rw [List.drop_zero, frameSizeAt, hbytes, hlen, maxFreeFormatFrameSize, freeLoop, if_neg fun hgo => hbytesne hgo.1]
    at htaken
  rcases htaken with ⟨-, -, hmatch⟩ | ⟨-, hfills⟩
  · have hfirst := ((matchFrame_iff _ _ _).1 hmatch).1
    rw [hdrAt, hdrAt, nextHdr, List.drop_zero, Nat.zero_add, (hdrFrameBytes_layer3 hf _).1, hlen, Nat.sub_zero,
      List.length_append] at hfirst
    omega
  · rw [List.length_append] at hfills
    simp only at hfills
    omega

/-- **Why the pump waits for the next header.** At the head of a piece of a clean stream the decoder takes the first
frame if and only if nothing follows it in the buffer, or the next header does. With less than a header behind the
frame it forgets the stream and looks for a frame further on. -/
theorem takesHead_iff (y : Synthesis φ) (dec : Mp3Dec φ) {frames : List Bytes} (hb : IsFrame version samplerate b)
    (hframes : ∀ c ∈ frames, IsFrame version samplerate c) (hpre : rest <+: frames.flatten) :
    ((locateFrame y dec (b ++ rest) (b ++ rest).length).2 = (0, b.length) ↔ rest = [] ∨ hdrSize ≤ rest.length) ∧
      (¬ (rest = [] ∨ hdrSize ≤ rest.length) →
        (locateFrame y dec (b ++ rest) (b ++ rest).length).1.synth = y.zero ∧
          (locateFrame y dec (b ++ rest) (b ++ rest).length).1.reserv = 0 ∧
          0 < (locateFrame y dec (b ++ rest) (b ++ rest).length).2.1) := by
  have hshort : ¬ (rest = [] ∨ hdrSize ≤ rest.length) →
      (locateFrame y dec (b ++ rest) (b ++ rest).length).1.synth = y.zero ∧
        (locateFrame y dec (b ++ rest) (b ++ rest).length).1.reserv = 0 ∧
        0 < (locateFrame y dec (b ++ rest) (b ++ rest).length).2.1 := by
    intro hno
    rw [not_or, Nat.not_le] at hno
    have hlocked := lockedSize_short hb hno.1 hno.2 dec
    have hnot := not_takenAt_short hb hno.1 hno.2
    have hpos : 0 < (b ++ rest).length := by
      have hmore := List.length_pos_iff.2 hno.1
      rw [List.length_append]
      omega
    simp only [locateFrame, hlocked, if_true, show (zeroed y).freeFormatBytes = 0 from rfl]
    rcases findFrame_cases (b ++ rest) (b ++ rest).length with ⟨i, htaken, -, hfound⟩ | ⟨-, hfound⟩
    · have hi : 0 < i := by
        refine Nat.pos_of_ne_zero ?_
        rintro rfl
        exact hnot htaken
      rw [hfound]
      split <;> exact ⟨rfl, rfl, hi⟩
    · rw [hfound, if_pos (Or.inl rfl)]
      exact ⟨rfl, rfl, hpos⟩
  refine ⟨⟨fun htaken => ?_, fun hrest => ?_⟩, hshort⟩
  · by_contra hno
    have hlost := (hshort hno).2.2
    rw [htaken] at hlost
    exact Nat.lt_irrefl 0 hlost
  · have hclean : CleanRest version samplerate rest := by
      rcases hrest with hnil | hfour
      · exact Or.inl hnil
      · exact Or.inr ⟨hfour, frames, hframes, hpre⟩
    rw [(CleanRest.atHead hb hclean).locateFrame y dec]

/-- Two bytes of the next frame have come. -/
theorem takesHead_iff_short :
    (locateFrame silentSynthesis (zeroed silentSynthesis) (shortFrame ++ [0xFF, 0xF3])
        (shortFrame ++ [0xFF, 0xF3]).length).2 = (0, shortFrame.length) ↔
      ([0xFF, 0xF3] : Bytes) = [] ∨ hdrSize ≤ ([0xFF, 0xF3] : Bytes).length :=
  have hframe : IsFrame 2 24000 shortFrame :=
    ⟨hdrFrame shortFrame, by decide +kernel, by decide +kernel, by decide +kernel, by decide +kernel⟩
  have hpre : [0xFF, 0xF3] <+: [shortFrame].flatten := ⟨shortFrame.drop 2, by decide⟩
  (takesHead_iff silentSynthesis (zeroed silentSynthesis) hframe (List.forall_mem_singleton.2 hframe) hpre).1

end Casquinha.Decode
