import Casquinha.Decode.Decring
import Casquinha.Lib.Run

/-!
# The decode ring across its three contexts

The producer claims, fills and commits; the pump tops up, decodes round by round and compacts; the
sound interrupt reads PCM. Any of these steps may come next. A step that reads another party's cursor
sees some earlier value of it: the step runs the source function on the ring as that party sees it.

Two readings of "an earlier value" are distinguished. With `coherent` a party never sees a cursor run
backwards; without it, any value the cursor has ever had may be seen. Both rings are instances of
`RingLog`, and with coherent views every step keeps `RingLog.Inv` of both (`Inv.step`). Without
coherent views the producer can overwrite committed bytes (`spsc_overwrite`).
-/

set_option autoImplicit false

namespace Casquinha.Decode

open Lib

/-- Where the producer stands: between claims, holding a claim, or with a filled claim. -/
inductive Producer (w : Nat) where
  | idle
  | claimed (pos contig : BitVec w)
  | filled (n : Nat)

/-- A pump pass between two of its steps: the locals, and whether the loop has been left. -/
structure InPass where
  used : Nat
  progress : Bool
  stopped : Bool

/-- The ring, the decoder, and where each party stands. The logs record what has gone through each
ring; `compBase` and `pcmBase` are the values the cursors started from. -/
structure Spsc (w : Nat) (σ : Type) where
  ring : CqDecring w
  dec : σ
  producer : Producer w
  pass : Option InPass
  compBase : Nat
  pcmBase : Nat
  compLog : RingLog UInt8
  pcmLog : RingLog UInt8

/-- The steps. A view `v` says which value of the other side's cursor is seen: the one it had after
`v` bytes. -/
inductive SpscStep where
  /-- `cq_decring_claim`. -/
  | claim (v : Nat)
  /-- The producer writes the claimed bytes. -/
  | fill (xs : Bytes)
  /-- `cq_decring_commit`. -/
  | commit
  /-- `cq_decring_eof`. -/
  | eof
  /-- The pump tops up its stage. -/
  | topUp (v : Nat)
  /-- One round of the pump's decode loop, seeing `eof` as given: set only if it has been raised. -/
  | round (v : Nat) (eof : Bool)
  /-- The pump compacts its stage and returns. -/
  | finish
  /-- The interrupt copies `k` PCM bytes out. -/
  | read (v k : Nat)

/-- The values of a cursor at `now` that a side may see after it has seen `last`. -/
def Visible (coherent : Bool) (last v now : Nat) : Prop := v ≤ now ∧ (coherent = true → last ≤ v)

instance (coherent : Bool) (last v now : Nat) : Decidable (Visible coherent last v now) :=
  inferInstanceAs (Decidable (_ ∧ _))

variable {w : Nat} {σ : Type}

namespace Spsc

/-- The ring as the producer sees it. -/
def producerView (s : Spsc w σ) (v : Nat) : CqDecring w :=
  { s.ring with compRd := counter w s.compBase v }

/-- The ring as the pump sees it in its top-up. -/
def topUpView (s : Spsc w σ) (v : Nat) : CqDecring w :=
  { s.ring with compWr := counter w s.compBase v }

/-- The pass as a round of the pump sees it. -/
def roundView (s : Spsc w σ) (p : InPass) (v : Nat) (eof : Bool) : Pass w σ :=
  { ring := { s.ring with pcmRd := counter w s.pcmBase v, eof := eof }
    dec := s.dec
    used := p.used
    progress := p.progress
    fed := []
    decoded := [] }

/-- Bytes the interrupt sees ready. -/
def readable (s : Spsc w σ) (v : Nat) : Nat := (counter w s.pcmBase v - s.ring.pcmRd).toNat

/-- The bytes the interrupt copies out. -/
def readBytes (s : Spsc w σ) (k : Nat) : Bytes :=
  ringRead s.ring.pcmSize.toNat s.ring.pcm (s.ring.pcmRd % s.ring.pcmSize).toNat k

/-- The pump has topped up its stage, seeing the write cursor after `v` bytes. -/
def afterTopUp (s : Spsc w σ) (v : Nat) : Spsc w σ :=
  let seen := s.topUpView v
  let ring := pumpTopUp seen
  { s with
    ring := { ring with compWr := s.ring.compWr }
    pass := some ⟨0, topUpTake seen ≠ 0, false⟩
    compLog := (s.compLog.lookSent v).take (ring.stage.drop s.ring.stage.length) }

/-- The pump has done one round, seeing the PCM read cursor after `v` bytes. -/
def afterRound (d : Mp3Decoder σ) (s : Spsc w σ) (p : InPass) (v : Nat) (eof : Bool) : Spsc w σ :=
  let r := pumpRound d (s.roundView p v eof)
  { s with
    ring := { r.1.ring with pcmRd := s.ring.pcmRd, eof := s.ring.eof }
    dec := r.1.dec
    pass := some ⟨r.1.used, r.1.progress, !r.2⟩
    pcmLog := ((s.pcmLog.lookTaken v).write r.1.decoded).publish }

/-- One step; `none` when the party is not at it or cannot see the value. -/
def step (coherent : Bool) (d : Mp3Decoder σ) (s : Spsc w σ) : SpscStep → Option (Spsc w σ)
  | .claim v =>
      match s.producer with
      | .idle =>
          if Visible coherent s.compLog.seenTaken v s.compLog.taken.length then
            let claim := cqDecringClaim (s.producerView v)
            some { s with
              producer := .claimed claim.1 claim.2
              compLog := s.compLog.lookTaken v }
          else none
      | _ => none
  | .fill xs =>
      match s.producer with
      | .claimed pos contig =>
          if xs.length ≤ contig.toNat then
            some { s with
              ring := fillClaim s.ring pos xs
              producer := .filled xs.length
              compLog := s.compLog.write xs }
          else none
      | _ => none
  | .commit =>
      match s.producer with
      | .filled n =>
          some { s with
            ring := cqDecringCommit s.ring n
            producer := .idle
            compLog := s.compLog.publish }
      | _ => none
  | .eof => some { s with ring := cqDecringEof s.ring }
  | .topUp v =>
      match s.pass with
      | none =>
          if Visible coherent s.compLog.seenSent v s.compLog.sent.length then
            some (s.afterTopUp v)
          else none
      | some _ => none
  | .round v eof =>
      match s.pass with
      | some ⟨used, progress, false⟩ =>
          if Visible coherent s.pcmLog.seenTaken v s.pcmLog.taken.length ∧
              (eof = true → s.ring.eof = true) then
            some (s.afterRound d ⟨used, progress, false⟩ v eof)
          else none
      | _ => none
  | .finish =>
      match s.pass with
      | some ⟨used, _, true⟩ =>
          some { s with
            ring := { s.ring with stage := s.ring.stage.drop used }
            pass := none }
      | _ => none
  | .read v k =>
      if Visible coherent s.pcmLog.seenSent v s.pcmLog.sent.length ∧ k ≤ s.readable v then
        some { s with
          ring := { s.ring with pcmRd := s.ring.pcmRd + BitVec.ofNat w k }
          pcmLog := (s.pcmLog.lookSent v).take (s.readBytes k) }
      else none

/-- What each step asks for, and what it leaves. -/
inductive Stepped (coherent : Bool) (d : Mp3Decoder σ) (s : Spsc w σ) : SpscStep → Spsc w σ → Prop where
  | claim {v : Nat} (hidle : s.producer = .idle)
      (hv : Visible coherent s.compLog.seenTaken v s.compLog.taken.length) :
      Stepped coherent d s (.claim v)
        { s with
          producer := .claimed (cqDecringClaim (s.producerView v)).1 (cqDecringClaim (s.producerView v)).2
          compLog := s.compLog.lookTaken v }
  | fill {xs : Bytes} {pos contig : BitVec w} (hclaimed : s.producer = .claimed pos contig)
      (hxs : xs.length ≤ contig.toNat) :
      Stepped coherent d s (.fill xs)
        { s with
          ring := fillClaim s.ring pos xs
          producer := .filled xs.length
          compLog := s.compLog.write xs }
  | commit {n : Nat} (hfilled : s.producer = .filled n) :
      Stepped coherent d s .commit
        { s with
          ring := cqDecringCommit s.ring n
          producer := .idle
          compLog := s.compLog.publish }
  | eof : Stepped coherent d s .eof { s with ring := cqDecringEof s.ring }
  | topUp {v : Nat} (hpass : s.pass = none)
      (hv : Visible coherent s.compLog.seenSent v s.compLog.sent.length) :
      Stepped coherent d s (.topUp v) (s.afterTopUp v)
  | round {v : Nat} {eof : Bool} {used : Nat} {progress : Bool}
      (hpass : s.pass = some ⟨used, progress, false⟩)
      (hv : Visible coherent s.pcmLog.seenTaken v s.pcmLog.taken.length)
      (heof : eof = true → s.ring.eof = true) :
      Stepped coherent d s (.round v eof) (s.afterRound d ⟨used, progress, false⟩ v eof)
  | finish {used : Nat} {progress : Bool} (hpass : s.pass = some ⟨used, progress, true⟩) :
      Stepped coherent d s .finish
        { s with
          ring := { s.ring with stage := s.ring.stage.drop used }
          pass := none }
  | read {v k : Nat} (hv : Visible coherent s.pcmLog.seenSent v s.pcmLog.sent.length)
      (hk : k ≤ s.readable v) :
      Stepped coherent d s (.read v k)
        { s with
          ring := { s.ring with pcmRd := s.ring.pcmRd + BitVec.ofNat w k }
          pcmLog := (s.pcmLog.lookSent v).take (s.readBytes k) }

/-- A step is one of these. -/
theorem stepped_of_step {coherent : Bool} {d : Mp3Decoder σ} {s t : Spsc w σ} {a : SpscStep}
    (ht : s.step coherent d a = some t) : Stepped coherent d s a t := by
  cases a with
  | claim v =>
      rw [Spsc.step] at ht
      split at ht
      · next hidle =>
        split at ht
        · next hv =>
          cases ht
          exact .claim hidle hv
        · cases ht
      · cases ht
  | fill xs =>
      rw [Spsc.step] at ht
      split at ht
      · next hclaimed =>
        split at ht
        · next hxs =>
          cases ht
          exact .fill hclaimed hxs
        · cases ht
      · cases ht
  | commit =>
      rw [Spsc.step] at ht
      split at ht
      · next hfilled =>
        cases ht
        exact .commit hfilled
      · cases ht
  | eof =>
      cases ht
      exact .eof
  | topUp v =>
      rw [Spsc.step] at ht
      split at ht
      · next hpass =>
        split at ht
        · next hv =>
          cases ht
          exact .topUp hpass hv
        · cases ht
      · cases ht
  | round v eof =>
      rw [Spsc.step] at ht
      split at ht
      · next hpass =>
        split at ht
        · next hv =>
          cases ht
          exact .round hpass hv.1 hv.2
        · cases ht
      · cases ht
  | finish =>
      rw [Spsc.step] at ht
      split at ht
      · next hpass =>
        cases ht
        exact .finish hpass
      · cases ht
  | read v k =>
      rw [Spsc.step] at ht
      split at ht
      · next hv =>
        cases ht
        exact .read hv.1 hv.2
      · cases ht

/-- A new stream on `ring`: nobody is in the middle of anything and nothing has gone through. -/
def init (ring : CqDecring w) (dec : σ) : Spsc w σ :=
  { ring := ring
    dec := dec
    producer := .idle
    pass := none
    compBase := ring.compRd.toNat
    pcmBase := ring.pcmRd.toNat
    compLog := .empty
    pcmLog := .empty }

end Spsc

/-- Rings of some size whose cursors agree, with an empty stage. -/
structure Fresh (r : CqDecring w) : Prop where
  comp_empty : r.compWr = r.compRd
  pcm_empty : r.pcmWr = r.pcmRd
  stage_empty : r.stage = []
  comp_pos : 0 < r.compSize.toNat
  pcm_pos : 0 < r.pcmSize.toNat

/-- Sizes that divide the cursors' range: a wrapped cursor still addresses the right cell. -/
structure SizesDivide (r : CqDecring w) : Prop where
  comp_dvd : r.compSize.toNat ∣ 2 ^ w
  pcm_dvd : r.pcmSize.toNat ∣ 2 ^ w

/-! ## What each step does to a cursor -/

theorem toNat_counter_umod {w base n : Nat} {size : BitVec w}
    (h : size.toNat ∣ 2 ^ w ∨ base + n < 2 ^ w) :
    (counter w base n % size).toNat = (base + n) % size.toNat := by
  rw [BitVec.toNat_umod, toNat_counter_mod h]

/-- A claim is the free space behind the write cursor, cut at the end of the buffer. -/
theorem cqDecringClaim_spec {r : CqDecring w} {base n v : Nat} (hwr : r.compWr = counter w base n)
    (hrd : r.compRd = counter w base v) (hpos : 0 < r.compSize.toNat) (hvn : v ≤ n)
    (hnv : n ≤ v + r.compSize.toNat) :
    (cqDecringClaim r).1 = r.compWr % r.compSize ∧
      (cqDecringClaim r).1.toNat + (cqDecringClaim r).2.toNat ≤ r.compSize.toNat ∧
      n + (cqDecringClaim r).2.toNat ≤ v + r.compSize.toNat := by
  have hspace : (cqDecringSpace r).toNat = r.compSize.toNat - (n - v) := by
    rw [cqDecringSpace, hwr, hrd, toNat_sub_counter_sub hvn hnv]
  have hmod : (r.compWr % r.compSize).toNat < r.compSize.toNat := by
    rw [BitVec.toNat_umod]
    exact Nat.mod_lt _ hpos
  have hlin : (r.compSize - r.compWr % r.compSize).toNat =
      r.compSize.toNat - (r.compWr % r.compSize).toNat :=
    BitVec.toNat_sub_of_le (BitVec.le_def.2 (Nat.le_of_lt hmod))
  refine ⟨rfl, ?_, ?_⟩ <;> simp only [cqDecringClaim, BitVec.lt_def, hspace, hlin] <;> split <;>
    omega

/-- A write that does not reach the end of the buffer is one copy. -/
theorem ringWrite_eq_blit {size pos : Nat} (mem : Nat → UInt8) {xs : Bytes}
    (h : pos + xs.length ≤ size) : ringWrite size mem pos xs = blit mem pos xs := by
  have hmin : min (size - pos) xs.length = xs.length := by omega
  rw [ringWrite, hmin, List.take_length, List.drop_length, blit_nil]

/-- The top-up takes what it sees, as far as the stage has room. -/
theorem topUpTake_spec {r : CqDecring w} {base n t : Nat} (hwr : r.compWr = counter w base n)
    (hrd : r.compRd = counter w base t) (htn : t ≤ n) (hlt : n - t < 2 ^ w) :
    topUpTake r = min (n - t) (cqDecringStage - r.stage.length) := by
  have havail : (r.compWr - r.compRd).toNat = n - t := by
    rw [hwr, hrd, toNat_counter_sub htn hlt]
  simp only [topUpTake, havail]
  split <;> omega

/-- What the top-up does to the stage and to the read cursor. -/
theorem pumpTopUp_spec (r : CqDecring w) :
    pumpTopUp r = { r with
      stage := r.stage ++
        ringRead r.compSize.toNat r.comp (r.compRd % r.compSize).toNat (topUpTake r)
      compRd := r.compRd + BitVec.ofNat w (topUpTake r) } := by
  rw [pumpTopUp]
  by_cases h : topUpTake r = 0
  · have hnil : ringRead r.compSize.toNat r.comp (r.compRd % r.compSize).toNat 0 = [] :=
      List.length_eq_zero_iff.1 (length_ringRead _ _ _ 0)
    simp only [h, if_true, hnil, List.append_nil, BitVec.add_zero]
  · simp only [h, if_false]

/-! ## The invariant -/

namespace Spsc

/-- What the producer holds is free, and what it has filled is not published yet. -/
def ProducerOk (s : Spsc w σ) : Prop :=
  match s.producer with
  | .idle => s.compLog.pending = []
  | .claimed pos contig =>
      s.compLog.pending = [] ∧ pos = s.ring.compWr % s.ring.compSize ∧
        pos.toNat + contig.toNat ≤ s.ring.compSize.toNat ∧
        s.compLog.sent.length + contig.toNat ≤ s.compLog.seenTaken + s.ring.compSize.toNat
  | .filled n => s.compLog.pending.length = n

/-- Both rings are in order, the cursors say what the logs say, and the stage holds the last staged
bytes. -/
structure Inv (s : Spsc w σ) : Prop where
  comp_pos : 0 < s.ring.compSize.toNat
  pcm_pos : 0 < s.ring.pcmSize.toNat
  compWr : s.ring.compWr = counter w s.compBase s.compLog.sent.length
  compRd : s.ring.compRd = counter w s.compBase s.compLog.taken.length
  pcmWr : s.ring.pcmWr = counter w s.pcmBase s.pcmLog.sent.length
  pcmRd : s.ring.pcmRd = counter w s.pcmBase s.pcmLog.taken.length
  comp : s.compLog.Inv s.ring.compSize.toNat s.compBase s.ring.comp
  pcm : s.pcmLog.Inv s.ring.pcmSize.toNat s.pcmBase s.ring.pcm
  producer : s.ProducerOk
  pcm_pending : s.pcmLog.pending = []
  stage_le : s.ring.stage.length ≤ cqDecringStage
  stage_suffix : s.ring.stage <:+ s.compLog.taken
  used_le : ∀ p, s.pass = some p → p.used ≤ s.ring.stage.length

/-- Both write cursors address the right cell: the size divides their range, or they have not
wrapped. -/
structure Addressed (s : Spsc w σ) : Prop where
  comp : s.ring.compSize.toNat ∣ 2 ^ w ∨ s.compBase + s.compLog.sent.length < 2 ^ w
  pcm : s.ring.pcmSize.toNat ∣ 2 ^ w ∨ s.pcmBase + s.pcmLog.sent.length < 2 ^ w

theorem Addressed.of_divide {s : Spsc w σ} (h : SizesDivide s.ring) : s.Addressed :=
  ⟨Or.inl h.comp_dvd, Or.inl h.pcm_dvd⟩

/-- The read cursor of the compressed ring. -/
theorem Inv.toNat_compRd {s : Spsc w σ} (h : s.Inv) (ha : s.Addressed) :
    s.ring.compSize.toNat ∣ 2 ^ w ∨ s.compBase + s.compLog.taken.length < 2 ^ w := by
  have := h.comp.taken_le_sent
  exact ha.comp.imp_right fun hlt => by omega

/-- The read cursor of the PCM ring. -/
theorem Inv.toNat_pcmRd {s : Spsc w σ} (h : s.Inv) (ha : s.Addressed) :
    s.ring.pcmSize.toNat ∣ 2 ^ w ∨ s.pcmBase + s.pcmLog.taken.length < 2 ^ w := by
  have := h.pcm.taken_le_sent
  exact ha.pcm.imp_right fun hlt => by omega

theorem Inv.init {r : CqDecring w} (h : Fresh r) (dec : σ) : (init r dec).Inv :=
  { comp_pos := h.comp_pos
    pcm_pos := h.pcm_pos
    compWr := by simp [Spsc.init, counter, RingLog.empty, h.comp_empty]
    compRd := by simp [Spsc.init, counter, RingLog.empty]
    pcmWr := by simp [Spsc.init, counter, RingLog.empty, h.pcm_empty]
    pcmRd := by simp [Spsc.init, counter, RingLog.empty]
    comp := RingLog.Inv.empty _ _ _
    pcm := RingLog.Inv.empty _ _ _
    producer := rfl
    pcm_pending := rfl
    stage_le := by simp [Spsc.init, h.stage_empty]
    stage_suffix := by simp [Spsc.init, h.stage_empty]
    used_le := fun p hp => by cases hp }

variable {s : Spsc w σ}

theorem Inv.claim (h : s.Inv) {v : Nat} (hidle : s.producer = .idle)
    (hge : s.compLog.seenTaken ≤ v) (hle : v ≤ s.compLog.taken.length) :
    Inv { s with
      producer := .claimed (cqDecringClaim (s.producerView v)).1 (cqDecringClaim (s.producerView v)).2
      compLog := s.compLog.lookTaken v } := by
  have hpending : s.compLog.pending = [] := by
    have := h.producer
    rwa [ProducerOk, hidle] at this
  have hroom := h.comp.room
  have hsent := h.comp.taken_le_sent
  obtain ⟨hpos, hend, hfit⟩ := cqDecringClaim_spec (r := s.producerView v) (v := v) h.compWr rfl
    h.comp_pos (by omega) (by simp only [producerView]; omega)
  exact
    { h with
      comp := h.comp.lookTaken hge hle
      producer := ⟨hpending, hpos, hend, hfit⟩ }

theorem Inv.fill (h : s.Inv) (ha : s.Addressed) {pos contig : BitVec w} {xs : Bytes}
    (hclaimed : s.producer = .claimed pos contig) (hxs : xs.length ≤ contig.toNat) :
    Inv { s with
      ring := fillClaim s.ring pos xs
      producer := .filled xs.length
      compLog := s.compLog.write xs } := by
  have hp := h.producer
  rw [ProducerOk, hclaimed] at hp
  obtain ⟨hpending, hpos, hend, hfit⟩ := hp
  have hw := h.comp.write h.comp_pos xs (by rw [hpending]; simp; omega)
  have hcell : (s.compBase + (s.compLog.sent.length + s.compLog.pending.length)) %
      s.ring.compSize.toNat = pos.toNat := by
    rw [hpos, h.compWr, toNat_counter_umod ha.comp, hpending]
    rfl
  rw [hcell, ringWrite_eq_blit _ (by omega)] at hw
  exact
    { h with
      comp := hw
      producer := by simp [ProducerOk, RingLog.write, hpending] }

theorem Inv.commit (h : s.Inv) {n : Nat} (hfilled : s.producer = .filled n) :
    Inv { s with
      ring := cqDecringCommit s.ring n
      producer := .idle
      compLog := s.compLog.publish } := by
  have hn := h.producer
  rw [ProducerOk, hfilled] at hn
  simp only at hn
  exact
    { h with
      compWr := by
        rw [cqDecringCommit, h.compWr, counter_add, RingLog.publish, List.length_append, hn]
      comp := h.comp.publish
      producer := rfl }

/-- The top-up takes bytes the producer has published and nothing else. -/
theorem Inv.topUp (h : s.Inv) (ha : s.Addressed) {v : Nat} (hge : s.compLog.seenSent ≤ v)
    (hle : v ≤ s.compLog.sent.length) : (s.afterTopUp v).Inv := by
  have htaken := h.comp.taken_le
  have hsent := h.comp.sent_le
  have hsize := s.ring.compSize.isLt
  -- in the absolute positions of the log the take is a difference
  have htake : topUpTake (s.topUpView v) =
      min (v - s.compLog.taken.length) (cqDecringStage - s.ring.stage.length) :=
    topUpTake_spec rfl h.compRd (by omega) (by omega)
  have hpos : (s.ring.compRd % s.ring.compSize).toNat =
      (s.compBase + s.compLog.taken.length) % s.ring.compSize.toNat := by
    rw [h.compRd, toNat_counter_umod (h.toNat_compRd ha)]
  have hstage := h.stage_le
  rw [afterTopUp, pumpTopUp_spec, htake]
  generalize hn : min (v - s.compLog.taken.length) (cqDecringStage - s.ring.stage.length) = n
  simp only [topUpView, List.drop_left, hpos]
  -- the bytes read are those that were committed there
  have hcomp := (h.comp.lookSent hge hle).take h.comp_pos (n := n)
    (by simp only [RingLog.lookSent]; omega)
  exact
    { h with
      compRd := by
        rw [h.compRd, counter_add]
        simp only [RingLog.take, RingLog.lookSent, List.length_append, length_ringRead]
      comp := hcomp
      producer := h.producer
      stage_le := by
        rw [List.length_append, length_ringRead]
        omega
      stage_suffix := by
        obtain ⟨gone, hgone⟩ := h.stage_suffix
        refine ⟨gone, ?_⟩
        simp only [RingLog.take, RingLog.lookSent]
        rw [← List.append_assoc, hgone]
      used_le := by
        rintro p ⟨⟩
        exact Nat.zero_le _ }

/-- A round puts a decoded frame behind the PCM that is not read yet, or puts nothing. -/
theorem Inv.round {d : Mp3Decoder σ} (hd : d.Bounded) (h : s.Inv) (ha : s.Addressed) {q : InPass} {v : Nat}
    (hq : s.pass = some q) (hge : s.pcmLog.seenTaken ≤ v) (hle : v ≤ s.pcmLog.taken.length)
    (eof : Bool) : (s.afterRound d q v eof).Inv := by
  have hused := (pumpRound_used hd.consumed_le (p := s.roundView q v eof) (h.used_le q hq)).2
  rw [afterRound]
  have hroom := h.pcm.room
  have hsent := h.pcm.taken_le_sent
  rcases pumpRound_ring d (s.roundView q v eof) with
    ⟨n, m, k, hring, hdecoded⟩ | ⟨hspace, out, hout, hring, hdecoded⟩
  · have hlog : ((s.pcmLog.lookTaken v).write []).publish = s.pcmLog.lookTaken v := by
      simp [RingLog.write, RingLog.publish, RingLog.lookTaken, h.pcm_pending]
    rw [hring, hdecoded]
    simp only [roundView, hlog] at hused ⊢
    exact
      { h with
        pcm := h.pcm.lookTaken hge hle
        producer := h.producer
        used_le := by
          rintro p ⟨⟩
          exact hused }
  · have hlen : out.pcm.length ≤ cqMp3decMaxSamples * 2 := by
      rw [hout]
      exact cqMp3decFrame_pcm_le hd _ _
    -- the space is computed from an old read cursor, so there is at least as much
    have hfree : (pcmSpace (s.roundView q v eof).ring).toNat =
        s.ring.pcmSize.toNat - (s.pcmLog.sent.length - v) := by
      simp only [pcmSpace, roundView]
      rw [h.pcmWr, toNat_sub_counter_sub (by omega) (by omega)]
    rw [PcmRoom, hfree] at hspace
    have hpos : (s.ring.pcmWr % s.ring.pcmSize).toNat =
        (s.pcmBase + (s.pcmLog.sent.length + s.pcmLog.pending.length)) % s.ring.pcmSize.toNat := by
      rw [h.pcmWr, toNat_counter_umod ha.pcm, h.pcm_pending]
      rfl
    have hpcm := ((h.pcm.lookTaken hge hle).write h.pcm_pos out.pcm (by
      simp only [RingLog.lookTaken, h.pcm_pending, List.length_nil]
      omega)).publish
    rw [hring, hdecoded]
    simp only [roundView, pumpPut, hpos, List.nil_append] at hused ⊢
    exact
      { h with
        pcmWr := by
          rw [h.pcmWr, counter_add]
          simp [RingLog.publish, RingLog.write, RingLog.lookTaken, h.pcm_pending]
        pcm := hpcm
        pcm_pending := rfl
        producer := h.producer
        used_le := by
          rintro p ⟨⟩
          exact hused }

theorem Inv.finish (h : s.Inv) (used : Nat) :
    Inv { s with
      ring := { s.ring with stage := s.ring.stage.drop used }
      pass := none } :=
  { h with
    producer := h.producer
    stage_le := by
      have := h.stage_le
      simp only [List.length_drop]
      omega
    stage_suffix := (List.drop_suffix _ _).trans h.stage_suffix
    used_le := fun p hp => by cases hp }

theorem Inv.eof (h : s.Inv) : Inv { s with ring := cqDecringEof s.ring } :=
  { h with producer := h.producer }

/-- The interrupt reads PCM that is published and nothing else. -/
theorem Inv.read (h : s.Inv) (ha : s.Addressed) {v k : Nat} (hge : s.pcmLog.seenSent ≤ v)
    (hle : v ≤ s.pcmLog.sent.length) (hk : k ≤ s.readable v) :
    Inv { s with
      ring := { s.ring with pcmRd := s.ring.pcmRd + BitVec.ofNat w k }
      pcmLog := (s.pcmLog.lookSent v).take (s.readBytes k) } := by
  have htaken := h.pcm.taken_le
  have hsent := h.pcm.sent_le
  have hsize := s.ring.pcmSize.isLt
  -- what the interrupt may read, and where it reads, in absolute positions
  have hready : s.readable v = v - s.pcmLog.taken.length := by
    rw [readable, h.pcmRd, toNat_counter_sub (by omega) (by omega)]
  have hbytes : s.readBytes k = ringRead s.ring.pcmSize.toNat s.ring.pcm
      ((s.pcmBase + s.pcmLog.taken.length) % s.ring.pcmSize.toNat) k := by
    rw [readBytes, h.pcmRd, toNat_counter_umod (h.toNat_pcmRd ha)]
  have hpcm := (h.pcm.lookSent hge hle).take h.pcm_pos (n := k)
    (by simp only [RingLog.lookSent]; omega)
  rw [hbytes]
  exact
    { h with
      pcmRd := by
        rw [h.pcmRd, counter_add]
        simp only [RingLog.take, RingLog.lookSent, List.length_append, length_ringRead]
      pcm := hpcm
      producer := h.producer }

/-- **Every step with coherent views keeps the invariant.** -/
theorem Inv.step {d : Mp3Decoder σ} (hd : d.Bounded) {t : Spsc w σ} (h : s.Inv) (ha : s.Addressed)
    {a : SpscStep} (ht : s.step true d a = some t) : t.Inv := by
  cases stepped_of_step ht with
  | claim hidle hv => exact h.claim hidle (hv.2 rfl) hv.1
  | fill hclaimed hxs => exact h.fill ha hclaimed hxs
  | commit hfilled => exact h.commit hfilled
  | eof => exact h.eof
  | topUp _ hv => exact h.topUp ha (hv.2 rfl) hv.1
  | round hpass hv => exact h.round hd ha hpass (hv.2 rfl) hv.1 _
  | finish _ => exact h.finish _
  | read hv hk => exact h.read ha (hv.2 rfl) hv.1 hk

/-- What has been written goes on as a stream does, if what is filled next does. -/
theorem Inv.written_step {d : Mp3Decoder σ} {stream : Bytes} {t : Spsc w σ} {a : SpscStep} (h : s.Inv)
    (hwritten : s.compLog.sent ++ s.compLog.pending <+: stream)
    (hfill : ∀ xs, a = .fill xs → s.compLog.sent ++ xs <+: stream) (ht : s.step true d a = some t) :
    t.compLog.sent ++ t.compLog.pending <+: stream := by
  cases stepped_of_step ht with
  | @fill xs _ _ hclaimed =>
      -- nothing was pending before the claim was filled
      have hpending : s.compLog.pending = [] := by
        have hproducer := h.producer
        rw [ProducerOk, hclaimed] at hproducer
        exact hproducer.1
      simp only [RingLog.write, hpending, List.nil_append]
      exact hfill xs rfl
  | commit =>
      simp only [RingLog.publish, List.append_nil]
      exact hwritten
  | claim | eof | topUp | round | finish | read => exact hwritten

/-- The sizes of the rings and the first cursor values never change. -/
theorem step_sizes {coherent : Bool} {d : Mp3Decoder σ} {t : Spsc w σ} {a : SpscStep}
    (ht : s.step coherent d a = some t) :
    t.ring.compSize = s.ring.compSize ∧ t.ring.pcmSize = s.ring.pcmSize ∧
      t.compBase = s.compBase ∧ t.pcmBase = s.pcmBase := by
  cases stepped_of_step ht with
  | claim | fill | commit | eof | finish | read => exact ⟨rfl, rfl, rfl, rfl⟩
  | topUp => simp only [afterTopUp, pumpTopUp_spec, topUpView, and_self]
  | @round v eof used progress =>
      -- a round changes telemetry, or puts a frame
      rw [afterRound]
      rcases pumpRound_ring d (s.roundView ⟨used, progress, false⟩ v eof) with
        ⟨n, m, k, hring, -⟩ | ⟨-, out, -, hring, -⟩
      · rw [hring]
        exact ⟨rfl, rfl, rfl, rfl⟩
      · rw [hring]
        exact ⟨rfl, rfl, rfl, rfl⟩

/-- The invariant, and sizes for which it never has to ask whether a cursor has wrapped, hold on along a run. -/
theorem Inv.run {d : Mp3Decoder σ} (hd : d.Bounded) (hs : s.Inv) (hdvd : SizesDivide s.ring)
    {steps : List SpscStep} {t : Spsc w σ} (ht : Lib.run (Spsc.step true d) s steps = some t) :
    t.Inv ∧ SizesDivide t.ring := by
  refine run_invariant (fun u => u.Inv ∧ SizesDivide u.ring) ?_ ⟨hs, hdvd⟩ ht
  rintro u a u' ⟨hu, hdiv⟩ hstep
  obtain ⟨hcomp, hpcm, -, -⟩ := step_sizes hstep
  exact ⟨hu.step hd (Addressed.of_divide hdiv) hstep,
    ⟨hcomp ▸ hdiv.comp_dvd, hpcm ▸ hdiv.pcm_dvd⟩⟩

theorem Inv.run_of_divide {d : Mp3Decoder σ} (hd : d.Bounded) {r : CqDecring w} (hr : Fresh r)
    (hdvd : SizesDivide r) (dec : σ) {steps : List SpscStep} {t : Spsc w σ}
    (ht : Lib.run (Spsc.step true d) (Spsc.init r dec) steps = some t) : t.Inv ∧ SizesDivide t.ring :=
  Inv.run hd (Inv.init hr dec) hdvd ht

end Spsc

/-! ## Safety -/

/-- **The decode ring under any interleaving.** When the cursor values a party sees do not run
backwards, no ring and no stage ever holds more than its size, every byte that is committed and not
staged and every PCM byte that is published and not read is intact in its ring, what has gone into
the stage is a prefix of what was committed, and what the interrupt has read is a prefix of what was
decoded. -/
theorem spsc_safe {d : Mp3Decoder σ} (hd : d.Bounded) {r : CqDecring w} (hr : Fresh r)
    (hdvd : SizesDivide r) (dec : σ) (steps : List SpscStep) {s : Spsc w σ}
    (hs : run (Spsc.step true d) (Spsc.init r dec) steps = some s) :
    (s.ring.compWr - s.ring.compRd).toNat ≤ s.ring.compSize.toNat ∧
      s.ring.stage.length ≤ cqDecringStage ∧
      (s.ring.pcmWr - s.ring.pcmRd).toNat ≤ s.ring.pcmSize.toNat ∧
      Holds s.ring.compSize.toNat s.ring.comp s.ring.compRd.toNat
        (s.compLog.sent.drop s.compLog.taken.length) ∧
      Holds s.ring.pcmSize.toNat s.ring.pcm s.ring.pcmRd.toNat
        (s.pcmLog.sent.drop s.pcmLog.taken.length) ∧
      s.compLog.taken <+: s.compLog.sent ∧ s.ring.stage <:+ s.compLog.taken ∧
      s.pcmLog.taken <+: s.pcmLog.sent := by
  obtain ⟨h, hdiv⟩ := Spsc.Inv.run_of_divide hd hr hdvd dec hs
  have hcomp := h.comp.sent_le
  have hpcm := h.pcm.sent_le
  have hcs := s.ring.compSize.isLt
  have hps := s.ring.pcmSize.isLt
  have hct := h.comp.taken_le_sent
  have hpt := h.pcm.taken_le_sent
  refine ⟨?_, h.stage_le, ?_, ?_, ?_, h.comp.taken_prefix, h.stage_suffix, h.pcm.taken_prefix⟩
  · -- a fill level is the distance of two positions
    rw [h.compWr, h.compRd, toNat_counter_sub hct (by omega)]
    omega
  · rw [h.pcmWr, h.pcmRd, toNat_counter_sub hpt (by omega)]
    omega
  · -- the ring is read from the cursor, the log from the position
    rw [h.compRd]
    exact (holds_counter (Or.inl hdiv.comp_dvd)).2 h.comp.unread
  · rw [h.pcmRd]
    exact (holds_counter (Or.inl hdiv.pcm_dvd)).2 h.pcm.unread

/-- A decoder that decodes nothing. -/
def mutedDecoder : Mp3Decoder Unit := ⟨fun s _ => (s, .nothing)⟩

theorem mutedDecoder_bounded : mutedDecoder.Bounded :=
  { consumed_nonneg := fun _ _ => le_refl _
    consumed_le := fun _ _ => Int.natCast_nonneg _
    samples_le := fun _ _ => Nat.zero_le _ }

/-- A compressed ring of four bytes and a PCM ring of 8192. -/
def fourByteRing : CqDecring 32 := cqDecringInit (fun _ => 0) 4 (fun _ => 0) 8192 0 0

theorem fourByteRing_fresh : Fresh fourByteRing :=
  { comp_empty := rfl
    pcm_empty := rfl
    stage_empty := rfl
    comp_pos := by decide
    pcm_pos := by decide }

theorem fourByteRing_divide : SizesDivide fourByteRing := ⟨by decide, by decide⟩

/-- Four bytes go in and out, four more go in, and a last claim sees the read cursor run backwards
from four to zero. -/
def backwardsSteps : List SpscStep :=
  [.claim 0, .fill [0, 0, 0, 0], .commit, .topUp 4, .claim 4, .fill [1, 1, 1, 1], .commit,
    .claim 0, .fill [2, 2, 2, 2], .commit]

theorem spsc_safe_sample :
    ((run (Spsc.step true mutedDecoder) (Spsc.init fourByteRing ()) (backwardsSteps.take 7)).get
      (by decide)).ring.stage.length ≤ cqDecringStage :=
  (spsc_safe mutedDecoder_bounded fourByteRing_fresh fourByteRing_divide () (backwardsSteps.take 7)
    (Option.some_get _).symm).2.1

/-- **A view that runs backwards overwrites committed bytes.** The last claim computes its space from
the read cursor's first value, the subtraction wraps, and the ring of four bytes ends up with eight
committed bytes in it, the oldest of which is no longer the byte that was committed. -/
theorem spsc_overwrite :
    Fresh fourByteRing ∧ SizesDivide fourByteRing ∧ 4608 ≤ fourByteRing.pcmSize.toNat ∧ mutedDecoder.Bounded ∧
      (run (Spsc.step false mutedDecoder) (Spsc.init fourByteRing ()) backwardsSteps).map
          (fun s => ((s.ring.compWr - s.ring.compRd).toNat, s.compLog.sent[s.compLog.taken.length]?,
            s.ring.comp (s.ring.compRd % s.ring.compSize).toNat)) =
        some (8, some 1, 2) :=
  ⟨fourByteRing_fresh, fourByteRing_divide, by decide, mutedDecoder_bounded, by decide⟩

end Casquinha.Decode
