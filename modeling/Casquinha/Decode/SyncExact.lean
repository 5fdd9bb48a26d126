import Casquinha.Decode.Sync
import Mathlib.Order.Bounds.Defs

/-!
# Exactness of `cq_mp3_sync`

An offset is a candidate when a header parses there; the candidate is decided when the header that it
predicts lies within the buffer, and confirmed when that header parses and is coherent (`RealFrame`). The
sync answers with a confirmed offset exactly if every candidate in front of it is decided and not
confirmed (`sync_exact_buffer`).

An endless stream arrives in growing prefixes. Frames are at most 1441 bytes long, so every candidate is
decided some time, and the answers are the first confirmed offset of the whole stream from some length on
(`answers_once`). In a stream that ends, the scan may also stay without an answer.
-/

set_option autoImplicit false

namespace Casquinha.Decode

open Lib

/-! ## One buffer -/

/-- A header parses at `i`. -/
def Candidate (buf : Bytes) (i : Nat) : Prop :=
  i + 4 ≤ buf.length ∧ (cqMp3Parse (buf.drop i)).isSome

/-- The header that the one at `i` predicts lies within the buffer. -/
def Decided (buf : Bytes) (i : Nat) : Prop :=
  ∃ a ∈ cqMp3Parse (buf.drop i), i + a.frameBytes + 4 ≤ buf.length

/-- In front of an offset that has room for a header, what is rejected are the candidates that are decided and
not confirmed, and the offsets that are no candidates. -/
theorem rejected_iff {buf : Bytes} {i : Nat} (hlt : i + 4 ≤ buf.length) :
    Rejected buf i ↔ (Candidate buf i → Decided buf i ∧ ¬ RealFrame buf i) := by
  constructor
  · rintro ⟨hreal, hdecided⟩ ⟨-, hsome⟩
    obtain ⟨a, ha⟩ := Option.isSome_iff_exists.1 hsome
    rw [undecided_iff_of_some ha] at hdecided
    exact ⟨⟨a, ha, Nat.le_of_not_lt hdecided⟩, hreal⟩
  · intro h
    cases ha : cqMp3Parse (buf.drop i) with
    | none =>
        constructor
        · rintro ⟨a, -, ha', -⟩
          cases ha.symm.trans ha'
        · rw [undecided_iff_of_none ha]
          exact Nat.not_lt.2 hlt
    | some a =>
        obtain ⟨⟨a', ha', hfits⟩, hreal⟩ := h ⟨hlt, by rw [ha]; rfl⟩
        refine ⟨hreal, ?_⟩
        rw [undecided_iff_of_some ha']
        exact Nat.not_lt.2 hfits

/-- **The answer for one buffer.** -/
theorem sync_exact_buffer (buf : Bytes) (off : Nat) (f : CqMp3Frame) :
    cqMp3Sync buf = some (off, f) ↔
      RealFrame buf off ∧ cqMp3Parse (buf.drop off) = some f ∧
        ∀ j < off, Candidate buf j → Decided buf j ∧ ¬ RealFrame buf j := by
  rw [sync_eq_some_iff]
  constructor
  · rintro ⟨hreal, hf, hall⟩
    have hlen := add_four_le_of_parse hf
    refine ⟨hreal, hf, ?_⟩
    intro j hj
    exact (rejected_iff (by omega)).1 (hall j hj)
  · rintro ⟨hreal, hf, hall⟩
    have hlen := add_four_le_of_parse hf
    refine ⟨hreal, hf, ?_⟩
    intro j hj
    exact (rejected_iff (by omega)).2 (hall j hj)

/-! ## Growing prefixes -/

/-- The first `n` bytes of an endless stream. -/
def firstBytes (stream : Nat → UInt8) (n : Nat) : Bytes := (List.range n).map stream

@[simp] theorem length_firstBytes (stream : Nat → UInt8) (n : Nat) :
    (firstBytes stream n).length = n := by
  rw [firstBytes, List.length_map, List.length_range]

theorem firstBytes_isPrefix (stream : Nat → UInt8) {m n : Nat} (h : m ≤ n) :
    firstBytes stream m <+: firstBytes stream n := by
  obtain ⟨k, rfl⟩ := Nat.exists_eq_add_of_le h
  rw [firstBytes, firstBytes, List.range_add, List.map_append]
  exact List.prefix_append _ _

/-- The header at offset `i` of the stream. -/
def headerAt (stream : Nat → UInt8) (i : Nat) : Option CqMp3Frame :=
  cqMp3Parse [stream i, stream (i + 1), stream (i + 2), stream (i + 3)]

/-- Offset `i` is confirmed in the stream. -/
def StreamFrame (stream : Nat → UInt8) (i : Nat) : Prop :=
  ∃ a b, headerAt stream i = some a ∧ headerAt stream (i + a.frameBytes) = some b ∧ Coherent b a

/-- A prefix that holds the header shows it. -/
theorem parse_firstBytes (stream : Nat → UInt8) {n i : Nat} (h : i + 4 ≤ n) :
    cqMp3Parse ((firstBytes stream n).drop i) = headerAt stream i := by
  rw [← cqMp3Parse_take (Nat.le_refl 4), headerAt]
  congr 1
  apply List.ext_getElem
  · rw [List.length_take, List.length_drop, length_firstBytes, Nat.min_eq_left (by omega)]
    rfl
  · intro k hk _
    rw [List.length_take] at hk
    have hk4 : k < 4 := by omega
    rw [List.getElem_take, List.getElem_drop]
    simp only [firstBytes, List.getElem_map, List.getElem_range]
    match k, hk4 with
    | 0, _ | 1, _ | 2, _ | 3, _ => rfl

/-- What is confirmed in a prefix is confirmed in the stream. -/
theorem streamFrame_of_realFrame {stream : Nat → UInt8} {n i : Nat}
    (h : RealFrame (firstBytes stream n) i) : StreamFrame stream i := by
  obtain ⟨a, b, ha, hb, hco⟩ := h
  have hlen := add_four_le_of_parse ha
  have hlen' := add_four_le_of_parse hb
  rw [length_firstBytes] at hlen hlen'
  rw [parse_firstBytes stream hlen] at ha
  rw [parse_firstBytes stream hlen'] at hb
  exact ⟨a, b, ha, hb, hco⟩

/-- A prefix that goes on for the length of a frame and a header has decided the offset. -/
theorem not_undecided_firstBytes (stream : Nat → UInt8) {n i : Nat} (h : i + 1445 ≤ n) :
    ¬ Undecided (firstBytes stream n) i := by
  rintro (hshort | ⟨a, ha, hshort⟩)
  · rw [length_firstBytes] at hshort
    omega
  · have hbounds := frameBytes_bounds ha
    rw [length_firstBytes] at hshort
    omega

theorem realFrame_firstBytes_iff {stream : Nat → UInt8} {n i : Nat} (h : i + 1445 ≤ n) :
    RealFrame (firstBytes stream n) i ↔ StreamFrame stream i := by
  refine ⟨streamFrame_of_realFrame, ?_⟩
  rintro ⟨a, b, ha, hb, hco⟩
  rw [← parse_firstBytes stream (n := n) (by omega)] at ha
  have hbounds := frameBytes_bounds ha
  rw [← parse_firstBytes stream (n := n) (by omega)] at hb
  exact ⟨a, b, ha, hb, hco⟩

/-- Far enough into the stream the answer is its first confirmed offset. -/
theorem sync_firstBytes {stream : Nat → UInt8} {off n : Nat} {f : CqMp3Frame}
    (hleast : IsLeast {i | StreamFrame stream i} off) (hf : headerAt stream off = some f)
    (hn : off + 1445 ≤ n) : cqMp3Sync (firstBytes stream n) = some (off, f) := by
  apply sync_eq_some_iff.2
  refine ⟨(realFrame_firstBytes_iff hn).2 hleast.1, (parse_firstBytes stream (by omega)).trans hf, ?_⟩
  intro j hj
  refine ⟨?_, not_undecided_firstBytes stream (by omega)⟩
  intro hreal
  exact absurd (hleast.2 (streamFrame_of_realFrame hreal)) (Nat.not_le.2 hj)

/-- **The answers over a stream** that has a confirmed offset: none up to some length, and then always the
first one. -/
theorem answers_once {stream : Nat → UInt8} (h : ∃ i, StreamFrame stream i) :
    ∃ off f n₀, IsLeast {i | StreamFrame stream i} off ∧ headerAt stream off = some f ∧
      ∀ n, cqMp3Sync (firstBytes stream n) = if n < n₀ then none else some (off, f) := by
  classical
  have hleast : IsLeast {i | StreamFrame stream i} (Nat.find h) :=
    ⟨Nat.find_spec h, fun j hj => Nat.find_min' h hj⟩
  obtain ⟨f, b, hf, -⟩ := id hleast.1
  have hfar := sync_firstBytes hleast hf (Nat.le_refl _)
  -- the first length at which there is an answer
  have hanswers : ∃ n, (cqMp3Sync (firstBytes stream n)).isSome := ⟨_, by rw [hfar]; rfl⟩
  refine ⟨Nat.find h, f, Nat.find hanswers, hleast, hf, ?_⟩
  intro n
  split
  · next hlt =>
    rw [← Option.not_isSome_iff_eq_none]
    exact Nat.find_min hanswers hlt
  · next hge =>
    -- it is the answer for all that is longer, and so the one far into the stream
    obtain ⟨⟨off', f'⟩, hfirst⟩ := Option.isSome_iff_exists.1 (Nat.find_spec hanswers)
    have hlong := sync_stable
      (firstBytes_isPrefix stream (Nat.le_max_left (Nat.find hanswers) (Nat.find h + 1445))) hfirst
    rw [sync_firstBytes hleast hf (Nat.le_max_right _ _)] at hlong
    rw [hlong]
    exact sync_stable (firstBytes_isPrefix stream (Nat.le_of_not_lt hge)) hfirst

/-- A stream without a confirmed offset is never answered. -/
theorem never_answers {stream : Nat → UInt8} (h : ¬ ∃ i, StreamFrame stream i) (n : Nat) :
    cqMp3Sync (firstBytes stream n) = none := by
  rw [Option.eq_none_iff_forall_not_mem]
  rintro ⟨off, f⟩ hsome
  exact h ⟨off, streamFrame_of_realFrame (sync_some hsome).1⟩

/-- The answers over a stream that ends: none up to some length, and then always that for all of it. -/
theorem answers_once_list (stream : Bytes) :
    ∃ n₀, ∀ n ≤ stream.length,
      cqMp3Sync (stream.take n) = if n < n₀ then none else cqMp3Sync stream := by
  classical
  by_cases hanswers : ∃ n, n ≤ stream.length ∧ (cqMp3Sync (stream.take n)).isSome
  · refine ⟨Nat.find hanswers, ?_⟩
    intro n hn
    split
    · next hlt =>
      rw [← Option.not_isSome_iff_eq_none]
      intro hsome
      exact Nat.find_min hanswers hlt ⟨hn, hsome⟩
    · next hge =>
      obtain ⟨⟨off, f⟩, hfirst⟩ := Option.isSome_iff_exists.1 (Nat.find_spec hanswers).2
      rw [sync_stable (List.take_prefix _ stream) hfirst]
      apply sync_stable _ hfirst
      exact List.take_prefix_take_left (Nat.le_of_not_lt hge)
  · refine ⟨stream.length + 1, ?_⟩
    intro n hn
    rw [if_pos (Nat.lt_succ_of_le hn), ← Option.not_isSome_iff_eq_none]
    intro hsome
    exact hanswers ⟨n, hn, hsome⟩

/-- **`cq_mp3_sync` is exact and stable**: on one buffer, over the growing prefixes of an endless stream, and
over those of a stream that ends. -/
theorem sync_exact :
    (∀ (buf : Bytes) (off : Nat) (f : CqMp3Frame),
      cqMp3Sync buf = some (off, f) ↔
        RealFrame buf off ∧ cqMp3Parse (buf.drop off) = some f ∧
          ∀ j < off, Candidate buf j → Decided buf j ∧ ¬ RealFrame buf j) ∧
    (∀ stream : Nat → UInt8,
      (∃ off f n₀, IsLeast {i | StreamFrame stream i} off ∧ headerAt stream off = some f ∧
        ∀ n, cqMp3Sync (firstBytes stream n) = if n < n₀ then none else some (off, f)) ∨
      (¬ ∃ i, StreamFrame stream i) ∧ ∀ n, cqMp3Sync (firstBytes stream n) = none) ∧
    (∀ stream : Bytes,
      (∃ n₀, ∀ n ≤ stream.length,
        cqMp3Sync (stream.take n) = if n < n₀ then none else cqMp3Sync stream) ∧
      ∀ off f, cqMp3Sync stream = some (off, f) → IsLeast {i | RealFrame stream i} off) := by
  refine ⟨sync_exact_buffer, ?_, ?_⟩
  · intro stream
    by_cases h : ∃ i, StreamFrame stream i
    · exact Or.inl (answers_once h)
    · exact Or.inr ⟨h, never_answers h⟩
  · intro stream
    refine ⟨answers_once_list stream, ?_⟩
    intro off f h
    obtain ⟨hreal, hall⟩ := sync_some h
    refine ⟨hreal, ?_⟩
    intro j hj
    exact Nat.le_of_not_lt fun hlt => (hall j hlt).1 hj

end Casquinha.Decode
