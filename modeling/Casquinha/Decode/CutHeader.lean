import Casquinha.Decode.Sync

/-!
# Frames whose headers are not all there

A buffer may end within a header, or in front of the one that a header predicts. An offset is then
undecided, and still some of its bytes are known. `MayStart` completes what is there of the two headers and
asks whether they are those of coherent frames. It holds exactly if the buffer goes on, in some stream, in
such a way that a real frame starts at the offset (`mayStart_iff`).
-/

set_option autoImplicit false

namespace Casquinha.Decode

open Lib

/-! ## What the bytes of a header decide -/

/-- The version that the second byte of a header names. -/
def headerVersion (p1 : UInt8) : Nat :=
  if ((p1 >>> 3) &&& 3).toNat = 3 then 1 else if ((p1 >>> 3) &&& 3).toNat = 2 then 2 else 25

/-- The sync bits, a version and Layer III. -/
def HeaderStart (p0 p1 : UInt8) : Prop :=
  (p0 = 0xFF ∧ p1 &&& 0xE0 = 0xE0) ∧ ((p1 >>> 3) &&& 3).toNat ≠ 1 ∧ ((p1 >>> 1) &&& 3).toNat = 1

/-- The frame that the third and the fourth byte describe. -/
def headerRest (version : Nat) (p2 p3 : UInt8) : Option CqMp3Frame :=
  headerFrame version ((p2 >>> 4) &&& 0x0F).toNat ((p2 >>> 2) &&& 3).toNat ((p2 >>> 1) &&& 1).toNat
    ((p3 >>> 6) &&& 3).toNat

/-- A header is its start and the frame that its rest describes. -/
theorem parse_eq_some_iff {p0 p1 p2 p3 : UInt8} {rest : Bytes} {f : CqMp3Frame} :
    cqMp3Parse (p0 :: p1 :: p2 :: p3 :: rest) = some f ↔
      HeaderStart p0 p1 ∧ headerRest (headerVersion p1) p2 p3 = some f := by
  simp only [cqMp3Parse, HeaderStart, headerRest, headerVersion]
  by_cases hsync : p0 ≠ 0xFF ∨ p1 &&& 0xE0 ≠ 0xE0
  · rw [if_pos hsync]
    constructor
    · rintro ⟨⟩
    · rintro ⟨⟨⟨h0, h1⟩, -⟩, -⟩
      rcases hsync with h | h
      · exact absurd h0 h
      · exact absurd h1 h
  · rw [if_neg hsync]
    rw [not_or, not_not, not_not] at hsync
    by_cases hbits : ((p1 >>> 3) &&& 3).toNat = 1 ∨ ((p1 >>> 1) &&& 3).toNat ≠ 1
    · rw [if_pos hbits]
      constructor
      · rintro ⟨⟩
      · rintro ⟨⟨-, hv, hl⟩, -⟩
        rcases hbits with h | h
        · exact absurd h hv
        · exact absurd hl h
    · rw [if_neg hbits]
      rw [not_or, not_not] at hbits
      exact ⟨fun h => ⟨⟨hsync, hbits⟩, h⟩, fun h => h.2⟩

/-- The channel mode decides nothing but the channels. -/
theorem headerRest_mode {version : Nat} {p2 p3 : UInt8} {f : CqMp3Frame} (p3' : UInt8)
    (h : headerRest version p2 p3 = some f) :
    ∃ g, headerRest version p2 p3' = some g ∧ Coherent g f := by
  simp only [headerRest, headerFrame, Option.ite_none_left_eq_some, Option.some.injEq] at h ⊢
  obtain ⟨hrates, hbytes, rfl⟩ := h
  exact ⟨_, ⟨hrates, hbytes, rfl⟩, rfl, rfl⟩

theorem headerRest_version {version : Nat} {p2 p3 : UInt8} {f : CqMp3Frame}
    (h : headerRest version p2 p3 = some f) : f.version = version := by
  simp only [headerRest, headerFrame, Option.ite_none_left_eq_some, Option.some.injEq] at h
  obtain ⟨-, -, rfl⟩ := h
  rfl

/-! ## Completing a header -/

/-- The bytes `xs`, completed as `header` goes on. -/
def completed (xs header : Bytes) : Bytes := xs ++ header.drop xs.length

/-- A header: MPEG 1, 128 kbit/s, 44.1 kHz. -/
def someHeader : Bytes := [0xFF, 0xFB, 0x90, 0xC0]

theorem completed_of_le {xs header : Bytes} (hheader : header.length = 4) (h : 4 ≤ xs.length) :
    completed xs header = xs := by
  rw [completed, List.drop_of_length_le (hheader.trans_le h), List.append_nil]

theorem exists_four_of_parse {p : Bytes} {f : CqMp3Frame} (h : cqMp3Parse p = some f) :
    ∃ p0 p1 p2 p3 rest, p = p0 :: p1 :: p2 :: p3 :: rest := by
  have hlen := four_le_length_of_parse h
  match p, hlen with
  | p0 :: p1 :: p2 :: p3 :: rest, _ => exact ⟨p0, p1, p2, p3, rest, rfl⟩

/-- What may go on as a coherent header does so with the bytes of the header it is to be coherent with. -/
theorem parse_completed {xs more : Bytes} {h0 h1 h2 h3 : UInt8} {a b : CqMp3Frame}
    (ha : cqMp3Parse [h0, h1, h2, h3] = some a) (hb : cqMp3Parse (xs ++ more) = some b)
    (hco : Coherent b a) :
    ∃ c, cqMp3Parse (completed xs [h0, h1, h2, h3]) = some c ∧ Coherent c a := by
  obtain ⟨p0, p1, p2, p3, rest, hbytes⟩ := exists_four_of_parse hb
  have hb' := hb
  rw [hbytes] at hb'
  obtain ⟨hstart, hrest⟩ := parse_eq_some_iff.1 ha
  obtain ⟨hstart', hrest'⟩ := parse_eq_some_iff.1 hb'
  match xs with
  | [] => exact ⟨a, ha, rfl, rfl⟩
  | [x] =>
      -- the first byte is always the same
      obtain ⟨rfl, -⟩ := List.cons.inj hbytes
      have hfirst : x = h0 := hstart'.1.1.trans hstart.1.1.symm
      rw [hfirst]
      exact ⟨a, ha, rfl, rfl⟩
  | [x, y] =>
      -- the second one names the version
      simp only [List.cons_append, List.cons.injEq] at hbytes
      obtain ⟨rfl, rfl, -⟩ := hbytes
      have hversion : headerVersion y = headerVersion h1 := by
        rw [← headerRest_version hrest, ← headerRest_version hrest']
        exact hco.1
      rw [← hversion] at hrest
      exact ⟨a, parse_eq_some_iff.2 ⟨hstart', hrest⟩, rfl, rfl⟩
  | [x, y, z] =>
      -- the third one names the sample rate
      simp only [List.cons_append, List.cons.injEq] at hbytes
      obtain ⟨rfl, rfl, rfl, -⟩ := hbytes
      obtain ⟨c, hc, hcoherent⟩ := headerRest_mode h3 hrest'
      exact ⟨c, parse_eq_some_iff.2 ⟨hstart', hc⟩, hcoherent.1.trans hco.1, hcoherent.2.trans hco.2⟩
  | x :: y :: z :: u :: xs =>
      have hlen : 4 ≤ (x :: y :: z :: u :: xs).length := by simp
      rw [completed_of_le rfl hlen]
      exact ⟨b, (cqMp3Parse_append more hlen).symm.trans hb, hco⟩

/-- With every version the rest of `someHeader` describes a frame. -/
theorem headerRest_some (p1 : UInt8) : (headerRest (headerVersion p1) 0x90 0xC0).isSome := by
  rw [headerVersion]
  split
  · decide
  · split
    · decide
    · decide

/-- What may go on as a header does so with the bytes of `someHeader`. -/
theorem parse_completed_someHeader {xs more : Bytes} {a : CqMp3Frame}
    (ha : cqMp3Parse (xs ++ more) = some a) : ∃ c, cqMp3Parse (completed xs someHeader) = some c := by
  obtain ⟨p0, p1, p2, p3, rest, hbytes⟩ := exists_four_of_parse ha
  have ha' := ha
  rw [hbytes] at ha'
  obtain ⟨hstart, hrest⟩ := parse_eq_some_iff.1 ha'
  match xs with
  | [] => exact Option.isSome_iff_exists.1 (by decide)
  | [x] =>
      obtain ⟨rfl, -⟩ := List.cons.inj hbytes
      rw [hstart.1.1]
      exact Option.isSome_iff_exists.1 (by decide)
  | [x, y] =>
      simp only [List.cons_append, List.cons.injEq] at hbytes
      obtain ⟨rfl, rfl, -⟩ := hbytes
      obtain ⟨c, hc⟩ := Option.isSome_iff_exists.1 (headerRest_some y)
      exact ⟨c, parse_eq_some_iff.2 ⟨hstart, hc⟩⟩
  | [x, y, z] =>
      simp only [List.cons_append, List.cons.injEq] at hbytes
      obtain ⟨rfl, rfl, rfl, -⟩ := hbytes
      obtain ⟨c, hc, -⟩ := headerRest_mode 0xC0 hrest
      exact ⟨c, parse_eq_some_iff.2 ⟨hstart, hc⟩⟩
  | x :: y :: z :: u :: xs =>
      have hlen : 4 ≤ (x :: y :: z :: u :: xs).length := by simp
      rw [completed_of_le rfl hlen]
      exact ⟨a, (cqMp3Parse_append more hlen).symm.trans ha⟩

/-! ## What may still be a frame -/

/-- The header at `i`, as far as it is there. -/
def headerSoFar (buf : Bytes) (i : Nat) : Bytes := (completed (buf.drop i) someHeader).take 4

/-- As far as they are there, the header at `i` and the one that it predicts are those of coherent frames. -/
def MayStart (buf : Bytes) (i : Nat) : Prop :=
  ∃ a ∈ cqMp3Parse (headerSoFar buf i),
    ∃ b ∈ cqMp3Parse (completed (buf.drop (i + a.frameBytes)) (headerSoFar buf i)), Coherent b a

instance (buf : Bytes) (i : Nat) : Decidable (MayStart buf i) := inferInstanceAs (Decidable (∃ a ∈ _, _))

theorem length_completed {xs header : Bytes} (h : header.length = 4) :
    (completed xs header).length = max xs.length 4 := by
  rw [completed, List.length_append, List.length_drop]
  omega

theorem length_headerSoFar (buf : Bytes) (i : Nat) : (headerSoFar buf i).length = 4 := by
  rw [headerSoFar, List.length_take, length_completed rfl]
  omega

theorem parse_headerSoFar (buf : Bytes) (i : Nat) :
    cqMp3Parse (headerSoFar buf i) = cqMp3Parse (completed (buf.drop i) someHeader) :=
  cqMp3Parse_take (Nat.le_refl 4)

/-- Nothing is completed to the whole header. -/
theorem completed_nil (header : Bytes) : completed [] header = header := rfl

/-- The header that is to be coherent goes on as one of the frame at `i`. -/
theorem parse_completed_headerSoFar {buf xs more : Bytes} {i : Nat} {a b : CqMp3Frame}
    (ha : cqMp3Parse (headerSoFar buf i) = some a) (hb : cqMp3Parse (xs ++ more) = some b)
    (hco : Coherent b a) : ∃ c, cqMp3Parse (completed xs (headerSoFar buf i)) = some c ∧ Coherent c a := by
  have hlen := length_headerSoFar buf i
  generalize headerSoFar buf i = header at ha hlen ⊢
  match header, hlen with
  | [h0, h1, h2, h3], _ => exact parse_completed ha hb hco

/-- **An offset may start a frame** exactly if the buffer can go on so that it does. -/
theorem mayStart_iff {buf : Bytes} {i : Nat} (hi : i < buf.length) :
    MayStart buf i ↔ ∃ more, RealFrame (buf ++ more) i := by
  have hdrop : ∀ more, (buf ++ more).drop i = buf.drop i ++ more := fun more =>
    List.drop_append_of_le_length (Nat.le_of_lt hi)
  have hleft : (buf.drop i).length = buf.length - i := List.length_drop
  constructor
  · rintro ⟨a, ha, b, hb, hco⟩
    have ha' := (parse_headerSoFar buf i).symm.trans ha
    have hbytes := (frameBytes_bounds ha).1
    by_cases hfits : i + a.frameBytes ≤ buf.length
    · -- the predicted header is cut: it goes on as it is completed
      have hwhole : completed (buf.drop i) someHeader = buf.drop i :=
        completed_of_le rfl (by omega)
      rw [hwhole] at ha'
      refine ⟨(headerSoFar buf i).drop (buf.drop (i + a.frameBytes)).length, a, b, ?_, ?_, hco⟩
      · rw [hdrop, cqMp3Parse_append _ (by omega)]
        exact ha'
      · rw [List.drop_append_of_le_length hfits]
        exact hb
    · -- the predicted header is not there: the one at `i` is repeated
      have hlen : (completed (buf.drop i) someHeader).length = max (buf.length - i) 4 := by
        rw [length_completed rfl, hleft]
      obtain ⟨gap, hgap⟩ : ∃ gap, (completed (buf.drop i) someHeader).length + gap = a.frameBytes :=
        ⟨a.frameBytes - (completed (buf.drop i) someHeader).length, by omega⟩
      refine ⟨someHeader.drop (buf.drop i).length ++ (List.replicate gap 0 ++ headerSoFar buf i), a, a, ?_, ?_,
        rfl, rfl⟩
      · rw [hdrop, ← List.append_assoc]
        exact (cqMp3Parse_append _ (by rw [← completed]; omega)).trans ha'
      · rw [← List.drop_drop, hdrop, ← List.append_assoc, ← completed, ← List.append_assoc]
        rw [List.drop_left' (by rw [List.length_append, List.length_replicate]; exact hgap)]
        exact ha
  · rintro ⟨more, a, b, ha, hb, hco⟩
    rw [hdrop] at ha
    by_cases hthere : 4 ≤ (buf.drop i).length
    · -- the header is there
      rw [cqMp3Parse_append more hthere] at ha
      have hheader : cqMp3Parse (headerSoFar buf i) = some a := by
        rw [parse_headerSoFar, completed_of_le rfl hthere, ha]
      refine ⟨a, hheader, ?_⟩
      by_cases hfits : i + a.frameBytes ≤ buf.length
      · rw [List.drop_append_of_le_length hfits] at hb
        exact parse_completed_headerSoFar hheader hb hco
      · rw [List.drop_of_length_le (Nat.le_of_not_le hfits), completed_nil]
        exact ⟨a, hheader, rfl, rfl⟩
    · -- not even that: the frame that some header describes ends behind the buffer
      obtain ⟨c, hc⟩ := parse_completed_someHeader ha
      rw [← parse_headerSoFar] at hc
      have hbytes := (frameBytes_bounds hc).1
      refine ⟨c, hc, ?_⟩
      rw [List.drop_of_length_le (by omega), completed_nil]
      exact ⟨c, hc, rfl, rfl⟩

/-- A real frame of the buffer is one that may start there. -/
theorem RealFrame.mayStart {buf : Bytes} {i : Nat} (h : RealFrame buf i) : MayStart buf i :=
  (mayStart_iff h.lt_length).2 ⟨[], by rwa [List.append_nil]⟩

/-- No frame starts with another byte than the first of a header. -/
theorem not_mayStart_of_ne {buf : Bytes} {j : Nat} {x : UInt8} (hx : buf[j]? = some x) (hne : x ≠ 0xFF) :
    ¬ MayStart buf j := by
  rintro ⟨a, ha, -⟩
  obtain ⟨hj, hget⟩ := List.getElem?_eq_some_iff.1 hx
  rw [parse_headerSoFar, completed, List.drop_eq_getElem_cons hj, hget] at ha
  obtain ⟨p0, p1, p2, p3, rest, hbytes⟩ := exists_four_of_parse ha
  rw [hbytes] at ha
  -- the first byte is the one of a header
  have hfirst : x = p0 := (List.cons.inj hbytes).1
  exact hne (hfirst.trans (parse_eq_some_iff.1 ha).1.1.1)

/-- The scan gives up on a buffer in which nothing may start a frame. -/
theorem sync_none_of_settled {buf : Bytes} (h : ∀ j < buf.length, ¬ MayStart buf j) : cqMp3Sync buf = none := by
  cases hsync : cqMp3Sync buf with
  | none => rfl
  | some answer =>
      obtain ⟨off, f⟩ := answer
      have hreal := (sync_some hsync).1
      exact absurd hreal.mayStart (h off hreal.lt_length)

end Casquinha.Decode
