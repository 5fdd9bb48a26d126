import Casquinha.Decode.Mp3

/-!
# What `cq_mp3_sync` decides

A frame of a stream is real when the header it predicts is there and coherent. In a buffer that holds
only the beginning of the stream an offset may also be undecided: the bytes that would settle it are not
there yet. `cq_mp3_sync` passes over the offsets that it can reject. It answers with the first real
frame (`sync_some`), and gives up at the first undecided offset (`sync_none`), whatever comes behind it.
-/

set_option autoImplicit false

namespace Casquinha.Decode

open Lib

/-- A header parses at `i`, and a coherent one at the position it predicts. -/
def RealFrame (buf : Bytes) (i : Nat) : Prop :=
  ∃ a b, cqMp3Parse (buf.drop i) = some a ∧ cqMp3Parse (buf.drop (i + a.frameBytes)) = some b ∧
    Coherent b a

/-- The buffer ends within the header at `i`, or before the end of the one that it predicts. -/
def Undecided (buf : Bytes) (i : Nat) : Prop :=
  buf.length < i + 4 ∨ ∃ a ∈ cqMp3Parse (buf.drop i), buf.length < i + a.frameBytes + 4

instance (buf : Bytes) (i : Nat) : Decidable (Undecided buf i) := inferInstanceAs (Decidable (_ ∨ _))

/-- Neither: more bytes change nothing. -/
def Rejected (buf : Bytes) (i : Nat) : Prop := ¬ RealFrame buf i ∧ ¬ Undecided buf i

/-! ## The scan -/

/-- A parsed header lies within the buffer. -/
theorem add_four_le_of_parse {buf : Bytes} {i : Nat} {f : CqMp3Frame}
    (h : cqMp3Parse (buf.drop i) = some f) : i + 4 ≤ buf.length := by
  have hlen := four_le_length_of_parse h
  rw [List.length_drop] at hlen
  omega

theorem RealFrame.lt_length {buf : Bytes} {i : Nat} (h : RealFrame buf i) : i < buf.length := by
  obtain ⟨a, b, ha, -⟩ := h
  have hlen := add_four_le_of_parse ha
  omega

/-- Whether a real frame starts at an offset, once there is a header. -/
theorem realFrame_iff {buf : Bytes} {i : Nat} {a : CqMp3Frame} (ha : cqMp3Parse (buf.drop i) = some a) :
    RealFrame buf i ↔
      ∃ b ∈ cqMp3Parse (buf.drop (i + a.frameBytes)), Coherent b a := by
  constructor
  · rintro ⟨a', b, ha', hb, hco⟩
    cases ha.symm.trans ha'
    exact ⟨b, hb, hco⟩
  · rintro ⟨b, hb, hco⟩
    exact ⟨a, b, ha, hb, hco⟩

instance (buf : Bytes) (i : Nat) : Decidable (RealFrame buf i) :=
  match ha : cqMp3Parse (buf.drop i) with
  | none => isFalse (by rintro ⟨a, b, ha', -⟩; cases ha.symm.trans ha')
  | some _ => decidable_of_iff _ (realFrame_iff ha).symm

theorem undecided_iff_of_none {buf : Bytes} {i : Nat} (h : cqMp3Parse (buf.drop i) = none) :
    Undecided buf i ↔ buf.length < i + 4 := by
  constructor
  · rintro (hshort | ⟨a, ha, -⟩)
    · exact hshort
    · cases h.symm.trans ha
  · exact Or.inl

theorem undecided_iff_of_some {buf : Bytes} {i : Nat} {a : CqMp3Frame}
    (ha : cqMp3Parse (buf.drop i) = some a) :
    Undecided buf i ↔ buf.length < i + a.frameBytes + 4 := by
  constructor
  · rintro (hshort | ⟨a', ha', hshort⟩)
    · omega
    · cases ha.symm.trans ha'
      exact hshort
  · intro hshort
    exact Or.inr ⟨a, ha, hshort⟩

theorem RealFrame.not_undecided {buf : Bytes} {i : Nat} (h : RealFrame buf i) :
    ¬ Undecided buf i := by
  obtain ⟨a, b, ha, hb, -⟩ := h
  have hlen := add_four_le_of_parse hb
  rw [undecided_iff_of_some ha]
  omega

/-- **One offset of the scan**: it gives up, answers, or moves on. -/
theorem syncLoop_succ (buf : Bytes) (fuel i : Nat) :
    (Undecided buf i ∧ syncLoop buf (fuel + 1) i = none) ∨
    (RealFrame buf i ∧ ∃ a, cqMp3Parse (buf.drop i) = some a ∧
      syncLoop buf (fuel + 1) i = some (i, a)) ∨
    (Rejected buf i ∧ syncLoop buf (fuel + 1) i = syncLoop buf fuel (i + 1)) := by
  rw [syncLoop]
  cases ha : cqMp3Parse (buf.drop i) with
  | none =>
      -- no header here: the end of the buffer, or junk
      by_cases hlt : i + 4 ≤ buf.length
      · right
        right
        rw [if_pos hlt]
        refine ⟨⟨?_, ?_⟩, rfl⟩
        · rintro ⟨a, b, ha', -⟩
          rw [ha] at ha'
          cases ha'
        · rw [undecided_iff_of_none ha]
          exact Nat.not_lt.2 hlt
      · left
        rw [if_neg hlt]
        exact ⟨Or.inl (Nat.lt_of_not_le hlt), rfl⟩
  | some a =>
      have hlt := add_four_le_of_parse ha
      rw [if_pos hlt]
      simp only
      by_cases hshort : buf.length < i + a.frameBytes + 4
      · left
        rw [if_pos hshort]
        exact ⟨(undecided_iff_of_some ha).2 hshort, rfl⟩
      · rw [if_neg hshort]
        have hdecided : ¬ Undecided buf i := by
          rw [undecided_iff_of_some ha]
          exact hshort
        have hreal := realFrame_iff ha
        right
        cases hb : cqMp3Parse (buf.drop (i + a.frameBytes)) with
        | none =>
            right
            refine ⟨⟨?_, hdecided⟩, rfl⟩
            rw [hreal, hb]
            rintro ⟨b, hb', -⟩
            cases hb'
        | some b =>
            simp only
            by_cases hco : Coherent b a
            · left
              rw [if_pos hco]
              exact ⟨hreal.2 ⟨b, hb, hco⟩, a, rfl, rfl⟩
            · right
              rw [if_neg hco]
              refine ⟨⟨?_, hdecided⟩, rfl⟩
              rw [hreal, hb]
              rintro ⟨b', hb', hco'⟩
              cases hb'
              exact hco hco'

/-- Behind the end of the buffer everything is undecided. -/
theorem undecided_of_length_le {buf : Bytes} {i : Nat} (h : buf.length ≤ i) : Undecided buf i :=
  Or.inl (by omega)

/-- What the scan from `i` on has passed over before it answers, and where it gives up. -/
theorem syncLoop_cases (buf : Bytes) :
    ∀ (fuel i : Nat), buf.length ≤ i + fuel →
      (∃ off a, syncLoop buf fuel i = some (off, a) ∧ cqMp3Parse (buf.drop off) = some a ∧
        RealFrame buf off ∧ ∀ j, i ≤ j → j < off → Rejected buf j) ∨
      (syncLoop buf fuel i = none ∧
        ∃ off, Undecided buf off ∧ ∀ j, i ≤ j → j < off → Rejected buf j) := by
  intro fuel
  induction fuel with
  | zero =>
      intro i hi
      refine Or.inr ⟨rfl, i, undecided_of_length_le hi, fun j hij hji => ?_⟩
      exact absurd hij (Nat.not_le.2 hji)
  | succ fuel ih =>
      intro i hi
      have hnone : ∀ j, i ≤ j → j < i → Rejected buf j :=
        fun j hij hji => absurd hij (Nat.not_le.2 hji)
      rcases syncLoop_succ buf fuel i with ⟨hund, hres⟩ | ⟨hreal, a, ha, hres⟩ | ⟨hrej, hres⟩
      · exact Or.inr ⟨hres, i, hund, hnone⟩
      · exact Or.inl ⟨i, a, hres, ha, hreal, hnone⟩
      · -- the offset joins those behind it
        have hcons : ∀ off, (∀ j, i + 1 ≤ j → j < off → Rejected buf j) →
            ∀ j, i ≤ j → j < off → Rejected buf j := by
          intro off hall j hij hj
          rcases Nat.eq_or_lt_of_le hij with rfl | hlt
          · exact hrej
          · exact hall j hlt hj
        rw [hres]
        rcases ih (i + 1) (by omega) with ⟨off, a, hsome, ha, hreal, hall⟩ | ⟨hnone', off, hund, hall⟩
        · exact Or.inl ⟨off, a, hsome, ha, hreal, hcons off hall⟩
        · exact Or.inr ⟨hnone', off, hund, hcons off hall⟩

/-- **The answer** is the first real frame with its header, and everything in front of it is rejected. -/
theorem sync_eq_some_iff {buf : Bytes} {off : Nat} {a : CqMp3Frame} :
    cqMp3Sync buf = some (off, a) ↔
      RealFrame buf off ∧ cqMp3Parse (buf.drop off) = some a ∧ ∀ j < off, Rejected buf j := by
  have hscan := syncLoop_cases buf buf.length 0 (by omega)
  constructor
  · intro h
    rcases hscan with ⟨off', a', hsome, ha, hreal, hall⟩ | ⟨hnone, -⟩
    · cases h.symm.trans hsome
      exact ⟨hreal, ha, fun j hj => hall j (Nat.zero_le j) hj⟩
    · cases h.symm.trans hnone
  · rintro ⟨hreal, ha, hall⟩
    rcases hscan with ⟨off', a', hsome, ha', hfirst, hall'⟩ | ⟨-, u, hund, hall'⟩
    · -- the scan cannot answer earlier, nor pass over the frame
      rcases Nat.lt_trichotomy off' off with hlt | rfl | hgt
      · exact absurd hfirst (hall off' hlt).1
      · cases ha'.symm.trans ha
        exact hsome
      · exact absurd hreal (hall' off (Nat.zero_le _) hgt).1
    · -- nor give up in front of it
      exfalso
      rcases Nat.lt_trichotomy u off with hlt | rfl | hgt
      · exact (hall u hlt).2 hund
      · exact hreal.not_undecided hund
      · exact (hall' off (Nat.zero_le _) hgt).1 hreal

/-- An answer is a real frame, and everything in front of it is rejected. -/
theorem sync_some {buf : Bytes} {off : Nat} {a : CqMp3Frame} (h : cqMp3Sync buf = some (off, a)) :
    RealFrame buf off ∧ ∀ j < off, Rejected buf j := by
  obtain ⟨hreal, -, hall⟩ := sync_eq_some_iff.1 h
  exact ⟨hreal, hall⟩

/-- **No answer**: everything in front of some undecided offset is rejected. -/
theorem sync_none {buf : Bytes} (h : cqMp3Sync buf = none) :
    ∃ off, Undecided buf off ∧ ∀ j < off, Rejected buf j := by
  rcases syncLoop_cases buf buf.length 0 (by omega) with ⟨off, a, hsome, -⟩ | ⟨-, off, hund, hall⟩
  · cases h.symm.trans hsome
  · exact ⟨off, hund, fun j hj => hall j (Nat.zero_le j) hj⟩

/-- An undecided offset with nothing but rejected ones in front of it leaves the scan without an answer. -/
theorem sync_none_of_undecided {buf : Bytes} {off : Nat} (hund : Undecided buf off)
    (hall : ∀ j < off, Rejected buf j) : cqMp3Sync buf = none := by
  rw [Option.eq_none_iff_forall_not_mem]
  rintro ⟨off', a⟩ hsome
  obtain ⟨hreal, hall'⟩ := sync_some hsome
  rcases Nat.lt_trichotomy off' off with hlt | rfl | hgt
  · exact (hall off' hlt).1 hreal
  · exact hreal.not_undecided hund
  · exact (hall' off hgt).2 hund

/-! ## More bytes -/

/-- The stream behind a position. -/
theorem realFrame_drop (buf : Bytes) (n i : Nat) :
    RealFrame (buf.drop n) i ↔ RealFrame buf (n + i) := by
  simp only [RealFrame, List.drop_drop, Nat.add_assoc]

/-- A header that lies within the buffer is that of the stream. -/
theorem parse_stable {buf stream : Bytes} (hpre : buf <+: stream) {j : Nat}
    (hj : j + 4 ≤ buf.length) : cqMp3Parse (stream.drop j) = cqMp3Parse (buf.drop j) := by
  obtain ⟨more, rfl⟩ := hpre
  rw [List.drop_append_of_le_length (by omega)]
  apply cqMp3Parse_append
  rw [List.length_drop]
  omega

/-- An offset is decided in the stream as it was in the buffer. -/
theorem realFrame_stable {buf stream : Bytes} (hpre : buf <+: stream) {i : Nat}
    (hdecided : ¬ Undecided buf i) : RealFrame stream i ↔ RealFrame buf i := by
  have hlt : i + 4 ≤ buf.length := by
    by_contra hge
    exact hdecided (Or.inl (Nat.lt_of_not_le hge))
  cases ha : cqMp3Parse (buf.drop i) with
  | none =>
      have ha' := (parse_stable hpre hlt).trans ha
      constructor
      · rintro ⟨a, -, hsome, -⟩
        cases ha'.symm.trans hsome
      · rintro ⟨a, -, hsome, -⟩
        cases ha.symm.trans hsome
  | some a =>
      have hfits : i + a.frameBytes + 4 ≤ buf.length := by
        rw [undecided_iff_of_some ha] at hdecided
        exact Nat.le_of_not_lt hdecided
      rw [realFrame_iff ha, realFrame_iff ((parse_stable hpre hlt).trans ha),
        parse_stable hpre hfits]

/-- What has been rejected stays rejected when more of the stream is there. -/
theorem Rejected.stable {buf stream : Bytes} (hpre : buf <+: stream) {i : Nat}
    (h : Rejected buf i) : ¬ RealFrame stream i := by
  rw [realFrame_stable hpre h.2]
  exact h.1

/-- What is decided stays decided. -/
theorem undecided_stable {buf stream : Bytes} (hpre : buf <+: stream) {i : Nat}
    (h : Undecided stream i) : Undecided buf i := by
  by_contra hdecided
  have hlen := hpre.length_le
  have hlt : i + 4 ≤ buf.length := by
    by_contra hge
    exact hdecided (Or.inl (Nat.lt_of_not_le hge))
  rcases h with hshort | ⟨a, ha, hshort⟩
  · omega
  · have ha' := (parse_stable hpre hlt).symm.trans ha
    rw [undecided_iff_of_some ha'] at hdecided
    omega

/-- **The sync is stable**: more bytes do not change its answer. -/
theorem sync_stable {buf stream : Bytes} (hpre : buf <+: stream) {off : Nat} {a : CqMp3Frame}
    (h : cqMp3Sync buf = some (off, a)) : cqMp3Sync stream = some (off, a) := by
  obtain ⟨hreal, ha, hall⟩ := sync_eq_some_iff.1 h
  apply sync_eq_some_iff.2
  refine ⟨(realFrame_stable hpre hreal.not_undecided).2 hreal,
    (parse_stable hpre (add_four_le_of_parse ha)).trans ha, ?_⟩
  intro j hj
  constructor
  · exact (hall j hj).stable hpre
  · intro hund
    exact (hall j hj).2 (undecided_stable hpre hund)

/-- A window onto a stream that syncs within `n` bytes gives the same answer, or it gives none and holds less than
these bytes. -/
theorem sync_window {window stream : Bytes} (hpre : window <+: stream) {n off : Nat} {a : CqMp3Frame}
    (h : cqMp3Sync (stream.take n) = some (off, a)) :
    cqMp3Sync window = some (off, a) ∨ (cqMp3Sync window = none ∧ window.length < min n stream.length) := by
  rcases Nat.lt_or_ge window.length (min n stream.length) with hlt | hge
  · cases hwindow : cqMp3Sync window with
    | none => exact Or.inr ⟨rfl, hlt⟩
    | some answer =>
        left
        have hshort : window <+: stream.take n := by
          rw [List.prefix_take_iff]
          exact ⟨hpre, by omega⟩
        rw [← h, sync_stable hshort hwindow]
  · left
    have hlong : stream.take n <+: window := by
      refine List.prefix_of_prefix_length_le (List.take_prefix n stream) hpre ?_
      rw [List.length_take]
      exact hge
    exact sync_stable hlong h

/-! ## Whole frames at the head -/

/-- The walk counts up. -/
theorem le_walkLoop (buf : Bytes) :
    ∀ (left off cnt : Nat) (first : Option CqMp3Frame), cnt ≤ (walkLoop buf left off cnt first).2 := by
  intro left
  induction left with
  | zero => exact fun off cnt first => Nat.le_refl cnt
  | succ left ih =>
      intro off cnt first
      have hnext : ∀ off' first', cnt ≤ (walkLoop buf left off' (cnt + 1) first').2 :=
        fun off' first' => Nat.le_trans (Nat.le_succ cnt) (ih off' (cnt + 1) first')
      rw [walkLoop]
      split
      · exact Nat.le_refl cnt
      · split
        · exact Nat.le_refl cnt
        · split
          · exact hnext _ _
          · split
            · exact hnext _ _
            · exact Nat.le_refl cnt

/-- The walk counts the frame at the head exactly if it is whole. -/
theorem one_le_walkFrames_iff (buf : Bytes) :
    1 ≤ walkFrames buf 2 ↔ ∃ f, cqMp3Parse buf = some f ∧ f.frameBytes ≤ buf.length := by
  rw [walkFrames, cqMp3Walk, walkLoop, List.drop_zero]
  constructor
  · intro h
    split at h
    · cases h
    · next f hf =>
      split at h
      · cases h
      · next hfits => exact ⟨f, hf, by omega⟩
  · rintro ⟨f, hf, hfits⟩
    rw [hf]
    simp only
    rw [if_neg (by omega)]
    exact le_walkLoop buf 1 (0 + f.frameBytes) (0 + 1) (some f)

end Casquinha.Decode
