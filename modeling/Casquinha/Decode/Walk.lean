import Casquinha.Decode.Sync
import Mathlib.Order.Bounds.Basic

/-!
# What `cq_mp3_walk` walks

A coherent prefix of a buffer is a list of headers: each parses where the frame in front of it ends, its
frame lies within the buffer, and it agrees with the first one. The prefixes of one buffer are determined
by their lengths, and `cq_mp3_walk` returns the longest one that its cap allows (`walk_isGreatest`). More
bytes leave a coherent prefix one (`CoherentPrefix.stable`), so a walk of a longer buffer is no shorter.
-/

set_option autoImplicit false

namespace Casquinha.Decode

open Lib

/-- The bytes of consecutive frames. -/
def spanBytes (fs : List CqMp3Frame) : Nat := (fs.map CqMp3Frame.frameBytes).sum

/-- Consecutive whole frames from `off` on. -/
def WholeFrom (buf : Bytes) : Nat → List CqMp3Frame → Prop
  | _, [] => True
  | off, f :: fs =>
      cqMp3Parse (buf.drop off) = some f ∧ off + f.frameBytes ≤ buf.length ∧
        WholeFrom buf (off + f.frameBytes) fs

/-- All frames agree with the first one, which is `first` if the walk has passed it. -/
def AllCoherent (first : Option CqMp3Frame) (fs : List CqMp3Frame) : Prop :=
  ∀ g ∈ first.or fs.head?, ∀ f ∈ fs, Coherent f g

/-- Whole frames from the start of the buffer that agree with the first of them. -/
structure CoherentPrefix (buf : Bytes) (fs : List CqMp3Frame) : Prop where
  whole : WholeFrom buf 0 fs
  agree : AllCoherent none fs

@[simp] theorem spanBytes_nil : spanBytes [] = 0 := rfl

@[simp] theorem spanBytes_cons (f : CqMp3Frame) (fs : List CqMp3Frame) :
    spanBytes (f :: fs) = f.frameBytes + spanBytes fs := by
  simp [spanBytes]

theorem allCoherent_nil (first : Option CqMp3Frame) : AllCoherent first [] :=
  fun _ _ _ hf => absurd hf List.not_mem_nil

/-- One frame more: it agrees with the first frame of the walk, or becomes it. -/
theorem allCoherent_cons_iff {first : Option CqMp3Frame} {f : CqMp3Frame} {fs : List CqMp3Frame} :
    AllCoherent first (f :: fs) ↔ (∀ g ∈ first, Coherent f g) ∧ AllCoherent (some (first.getD f)) fs := by
  cases first with
  | none =>
      constructor
      · intro h
        refine ⟨fun g hg => absurd hg (Option.not_mem_none g), ?_⟩
        rintro g ⟨⟩ f' hf'
        exact h f rfl f' (List.mem_cons_of_mem f hf')
      · rintro ⟨-, h⟩ g ⟨⟩ f' hf'
        rcases List.mem_cons.1 hf' with rfl | hf'
        · exact ⟨rfl, rfl⟩
        · exact h f rfl f' hf'
  | some g =>
      constructor
      · intro h
        refine ⟨?_, ?_⟩
        · rintro g' ⟨⟩
          exact h g rfl f List.mem_cons_self
        · rintro g' ⟨⟩ f' hf'
          exact h g rfl f' (List.mem_cons_of_mem f hf')
      · rintro ⟨hf, h⟩ g' ⟨⟩ f' hf'
        rcases List.mem_cons.1 hf' with rfl | hf'
        · exact hf g rfl
        · exact h g rfl f' hf'

/-! ## The loop -/

/-- One turn of the walk: it takes a whole frame that agrees with the first one, or it ends. -/
theorem walkLoop_succ (buf : Bytes) (left off cnt : Nat) (first : Option CqMp3Frame) :
    (∃ f, cqMp3Parse (buf.drop off) = some f ∧ off + f.frameBytes ≤ buf.length ∧
      (∀ g ∈ first, Coherent f g) ∧
      walkLoop buf (left + 1) off cnt first =
        walkLoop buf left (off + f.frameBytes) (cnt + 1) (some (first.getD f))) ∨
    ((∀ f, cqMp3Parse (buf.drop off) = some f → off + f.frameBytes ≤ buf.length →
      ¬ ∀ g ∈ first, Coherent f g) ∧
      walkLoop buf (left + 1) off cnt first = (off, cnt)) := by
  rw [walkLoop]
  cases hf : cqMp3Parse (buf.drop off) with
  | none =>
      right
      refine ⟨?_, rfl⟩
      rintro f ⟨⟩
  | some f =>
      simp only
      by_cases hlen : buf.length < off + f.frameBytes
      · right
        rw [if_pos hlen]
        refine ⟨?_, rfl⟩
        rintro f' ⟨⟩ hle
        exact absurd hlen (Nat.not_lt.2 hle)
      · rw [if_neg hlen]
        have hfits := Nat.le_of_not_lt hlen
        cases first with
        | none => exact Or.inl ⟨f, rfl, hfits, fun g hg => absurd hg (Option.not_mem_none g), rfl⟩
        | some g =>
            simp only
            by_cases hco : Coherent f g
            · left
              rw [if_pos hco]
              refine ⟨f, rfl, hfits, ?_, rfl⟩
              rintro g' ⟨⟩
              exact hco
            · right
              rw [if_neg hco]
              refine ⟨?_, rfl⟩
              rintro f' ⟨⟩ - hall
              exact hco (hall g rfl)

/-- **The walk from an offset**: the longest list of whole frames behind it that agree with the first one,
as far as the cap goes. -/
theorem walkLoop_spec (buf : Bytes) :
    ∀ (left off cnt : Nat) (first : Option CqMp3Frame), off ≤ buf.length →
      ∃ fs, WholeFrom buf off fs ∧ AllCoherent first fs ∧ fs.length ≤ left ∧ off + spanBytes fs ≤ buf.length ∧
        walkLoop buf left off cnt first = (off + spanBytes fs, cnt + fs.length) ∧
        ∀ gs, WholeFrom buf off gs → AllCoherent first gs → gs.length ≤ left → gs.length ≤ fs.length := by
  intro left
  induction left with
  | zero =>
      intro off cnt first hoff
      exact ⟨[], trivial, allCoherent_nil first, Nat.le_refl 0, hoff, rfl, fun gs _ _ hgs => hgs⟩
  | succ left ih =>
      intro off cnt first hoff
      rcases walkLoop_succ buf left off cnt first with ⟨f, hf, hfits, hco, hstep⟩ | ⟨hends, hstep⟩
      · obtain ⟨fs, hwhole, hagree, hlen, hspan, hwalk, hmax⟩ :=
          ih (off + f.frameBytes) (cnt + 1) (some (first.getD f)) hfits
        refine ⟨f :: fs, ⟨hf, hfits, hwhole⟩, allCoherent_cons_iff.2 ⟨hco, hagree⟩,
          Nat.succ_le_succ hlen, ?_, ?_, ?_⟩
        · rw [spanBytes_cons]
          omega
        · rw [hstep, hwalk, spanBytes_cons, List.length_cons]
          ext <;> simp only <;> omega
        · -- another list takes the same first frame
          intro gs hgs hagree' hlen'
          cases gs with
          | nil => exact Nat.zero_le _
          | cons g gs =>
              obtain ⟨hg, -, hgs⟩ := hgs
              cases hf.symm.trans hg
              exact Nat.succ_le_succ
                (hmax gs hgs (allCoherent_cons_iff.1 hagree').2 (Nat.le_of_succ_le_succ hlen'))
      · refine ⟨[], trivial, allCoherent_nil first, Nat.zero_le _, hoff, hstep, ?_⟩
        intro gs hgs hagree _
        cases gs with
        | nil => exact Nat.le_refl 0
        | cons g gs =>
            obtain ⟨hg, hfits, -⟩ := hgs
            exact absurd (allCoherent_cons_iff.1 hagree).1 (hends g hg hfits)

/-- The walked prefix, with its length and its number of frames. -/
theorem walk_covers (buf : Bytes) (maxFrames : Nat) :
    ∃ fs, CoherentPrefix buf fs ∧ fs.length ≤ maxFrames ∧ spanBytes fs ≤ buf.length ∧
      cqMp3Walk buf maxFrames = (spanBytes fs, fs.length) := by
  obtain ⟨fs, hwhole, hagree, hlen, hspan, hwalk, -⟩ :=
    walkLoop_spec buf maxFrames 0 0 none (Nat.zero_le _)
  rw [Nat.zero_add] at hspan
  refine ⟨fs, ⟨hwhole, hagree⟩, hlen, hspan, ?_⟩
  rw [cqMp3Walk, hwalk, Nat.zero_add, Nat.zero_add]

/-- **No coherent prefix within the cap has more frames** than the walk reports. -/
theorem walk_isGreatest (buf : Bytes) (maxFrames : Nat) :
    IsGreatest {k | k ≤ maxFrames ∧ ∃ fs, CoherentPrefix buf fs ∧ fs.length = k}
      (walkFrames buf maxFrames) := by
  obtain ⟨fs, hwhole, hagree, hlen, -, hwalk, hmax⟩ :=
    walkLoop_spec buf maxFrames 0 0 none (Nat.zero_le _)
  have hcount : walkFrames buf maxFrames = fs.length := by
    rw [walkFrames, cqMp3Walk, hwalk]
    exact Nat.zero_add fs.length
  rw [hcount]
  refine ⟨⟨hlen, fs, ⟨hwhole, hagree⟩, rfl⟩, ?_⟩
  rintro k ⟨hk, gs, hgs, rfl⟩
  exact hmax gs hgs.whole hgs.agree hk

/-- A coherent prefix of as many frames as the cap allows is walked. -/
theorem CoherentPrefix.le_walkFrames {buf : Bytes} {fs : List CqMp3Frame} (h : CoherentPrefix buf fs)
    {maxFrames : Nat} (hlen : fs.length ≤ maxFrames) : fs.length ≤ walkFrames buf maxFrames :=
  (walk_isGreatest buf maxFrames).2 ⟨hlen, fs, h, rfl⟩

/-! ## More bytes -/

theorem WholeFrom.stable {buf stream : Bytes} (hpre : buf <+: stream) {fs : List CqMp3Frame} :
    ∀ {off : Nat}, WholeFrom buf off fs → WholeFrom stream off fs := by
  induction fs with
  | nil => exact fun h => h
  | cons f fs ih =>
      rintro off ⟨hf, hfits, hwhole⟩
      exact ⟨(parse_stable hpre (add_four_le_of_parse hf)).trans hf, hfits.trans hpre.length_le,
        ih hwhole⟩

/-- A coherent prefix of a buffer is one of every longer buffer. -/
theorem CoherentPrefix.stable {buf stream : Bytes} (hpre : buf <+: stream) {fs : List CqMp3Frame}
    (h : CoherentPrefix buf fs) : CoherentPrefix stream fs :=
  ⟨h.whole.stable hpre, h.agree⟩

theorem walkFrames_mono {buf stream : Bytes} (hpre : buf <+: stream) (maxFrames : Nat) :
    walkFrames buf maxFrames ≤ walkFrames stream maxFrames := by
  obtain ⟨⟨hlen, fs, hfs, hcount⟩, -⟩ := walk_isGreatest buf maxFrames
  rw [← hcount] at hlen ⊢
  exact (hfs.stable hpre).le_walkFrames hlen

/-! ## Behind a sync -/

/-- The frame that the sync answers with is whole. -/
theorem coherentPrefix_of_sync {buf : Bytes} {off : Nat} {a : CqMp3Frame}
    (h : cqMp3Sync buf = some (off, a)) : CoherentPrefix (buf.drop off) [a] := by
  obtain ⟨⟨a', b, ha', hb, -⟩, ha, -⟩ := sync_eq_some_iff.1 h
  cases ha.symm.trans ha'
  have hlen := add_four_le_of_parse hb
  refine ⟨⟨ha, ?_, trivial⟩, ?_⟩
  · rw [List.length_drop]
    omega
  · exact allCoherent_cons_iff.2
      ⟨fun g hg => absurd hg (Option.not_mem_none g), allCoherent_nil (some a)⟩

/-- With the frame that confirms it, as soon as that one is whole. -/
theorem coherentPrefix_of_confirmed {buf : Bytes} {off : Nat} {a b : CqMp3Frame}
    (h : cqMp3Sync buf = some (off, a)) (hb : cqMp3Parse (buf.drop (off + a.frameBytes)) = some b)
    (hwhole : off + a.frameBytes + b.frameBytes ≤ buf.length) :
    CoherentPrefix (buf.drop off) [a, b] := by
  obtain ⟨⟨a', b', ha', hb', hco⟩, ha, -⟩ := sync_eq_some_iff.1 h
  cases ha.symm.trans ha'
  cases hb.symm.trans hb'
  obtain ⟨⟨hfirst, hfits, -⟩, -⟩ := coherentPrefix_of_sync h
  refine ⟨⟨hfirst, hfits, ?_, ?_, trivial⟩, ?_⟩
  · rw [Nat.zero_add, List.drop_drop]
    exact hb
  · rw [List.length_drop]
    omega
  · apply allCoherent_cons_iff.2
    refine ⟨fun g hg => absurd hg (Option.not_mem_none g), allCoherent_cons_iff.2 ⟨?_, allCoherent_nil _⟩⟩
    rintro g ⟨⟩
    exact hco

/-- **`cq_mp3_walk` is the longest coherent prefix**: its length is that of exactly the counted frames and
lies within the buffer, no coherent prefix within the cap has more frames, and a longer buffer has no fewer.
Behind the offset of a sync there is at least one frame, and the confirming one as soon as it is whole. -/
theorem walk_longest_coherent (buf : Bytes) (maxFrames : Nat) (hmax : 1 ≤ maxFrames) :
    (cqMp3Walk buf maxFrames).1 ≤ buf.length ∧
    (∃ fs, CoherentPrefix buf fs ∧ fs.length = (cqMp3Walk buf maxFrames).2 ∧
      spanBytes fs = (cqMp3Walk buf maxFrames).1) ∧
    IsGreatest {k | k ≤ maxFrames ∧ ∃ fs, CoherentPrefix buf fs ∧ fs.length = k}
      (cqMp3Walk buf maxFrames).2 ∧
    (∀ stream, buf <+: stream → (cqMp3Walk buf maxFrames).2 ≤ (cqMp3Walk stream maxFrames).2) ∧
    ∀ off a, cqMp3Sync buf = some (off, a) →
      1 ≤ (cqMp3Walk (buf.drop off) maxFrames).2 ∧
      ∀ b, cqMp3Parse (buf.drop (off + a.frameBytes)) = some b →
        off + a.frameBytes + b.frameBytes ≤ buf.length →
        min 2 maxFrames ≤ (cqMp3Walk (buf.drop off) maxFrames).2 := by
  obtain ⟨fs, hfs, -, hspan, hwalk⟩ := walk_covers buf maxFrames
  refine ⟨?_, ⟨fs, hfs, ?_, ?_⟩, walk_isGreatest buf maxFrames,
    fun stream hpre => walkFrames_mono hpre maxFrames, ?_⟩
  · rw [hwalk]
    exact hspan
  · rw [hwalk]
  · rw [hwalk]
  · intro off a hsync
    have hone : 1 ≤ walkFrames (buf.drop off) maxFrames :=
      (coherentPrefix_of_sync hsync).le_walkFrames hmax
    refine ⟨hone, fun b hb hwhole => ?_⟩
    rcases Nat.lt_or_ge maxFrames 2 with hlt | hge
    · exact (Nat.min_le_right 2 maxFrames).trans ((Nat.le_of_lt_succ hlt).trans hone)
    · exact (Nat.min_le_left 2 maxFrames).trans
        ((coherentPrefix_of_confirmed hsync hb hwhole).le_walkFrames hge)

/-- Two mono MPEG 2 frames of 24 bytes. -/
def framePair : Bytes :=
  [0xFF, 0xF3, 0x14, 0xC0] ++ List.replicate 20 0 ++ ([0xFF, 0xF3, 0x14, 0xC0] ++ List.replicate 20 0)

theorem walk_framePair : min 2 16 ≤ (cqMp3Walk (framePair.drop 0) 16).2 :=
  ((walk_longest_coherent framePair 16 (by decide)).2.2.2.2 0 ⟨2, 8, 24000, 1, 576, 24⟩
    (by decide)).2 ⟨2, 8, 24000, 1, 576, 24⟩ (by decide) (by decide)

end Casquinha.Decode
