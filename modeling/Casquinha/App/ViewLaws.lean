import Casquinha.App.View

/-!
# What the view promises

`cqViewRender` combines the snapshot, the `/stream` fact, the engine phase, the PCM ring, two counters and the
pending intent. Whatever they are, the words on the screen do not contradict the snapshot or each other
(`view_consistent`). The status is characterised phase by phase (`status_buffering`, `status_onAir`), and the
receive counter speaks only where the fact is not usable.
-/

set_option autoImplicit false

namespace Casquinha.App

open Lib Wire

/-- The snapshot says that the track is playing. -/
def SnapPlays (v : CqViewIn) : Prop := ∃ s, v.snap = some s ∧ s.state = .playing

/-- The snapshot says that the track is playing on the active device. -/
def SnapPlaysHere (v : CqViewIn) : Prop :=
  ∃ s, v.snap = some s ∧ s.state = .playing ∧ s.device = .active

/-- Somebody believes that the track is playing, and nothing arrives: by the fact while the engine buffers or is
on air, by the receive counter when there is no usable fact. -/
def MountSilent (v : CqViewIn) : Prop :=
  (factUsable v = true ∧ v.live = 0 ∧ SnapPlaysHere v ∧ (v.engine = .buffering ∨ v.engine = .onAir)) ∨
    (factUsable v = false ∧ v.engine = .onAir ∧ SnapPlays v ∧ cqViewDryTicks ≤ v.rxDryTicks)

/-- The status that shows a percentage. -/
def percentText (n : Int) : CStr := .lit "buffering... " ++ decimalInt n ++ .lit "%"

/-- The texts that acknowledge an intent. -/
def ackWords : List CStr := [.lit "Skipping...", .lit "Starting...", .lit "Pausing..."]

/-- The word for the snapshot's state. -/
def snapWord : Option CqNow → CStr
  | none => .empty
  | some s =>
      match s.state with
      | .playing => .lit "Playing"
      | .paused => .lit "Paused"
      | .stopped => .lit "Stopped"

/-! ## The words -/

theorem playingActive_iff (v : CqViewIn) : playingActive v = true ↔ SnapPlaysHere v := by
  rw [playingActive, SnapPlaysHere]
  cases v.snap with
  | none => simp
  | some s => simp

/-- A percentage is not the text of a silent mount. -/
theorem percentText_ne (n : Int) : percentText n ≠ .lit "waiting for Spotify..." := by
  intro h
  have hhead := congrArg (fun t : CStr => t.bytes.head?) h
  have htext : (CStr.lit "buffering... ").bytes = 98 :: (CStr.lit "uffering... ").bytes := by decide
  rw [percentText] at hhead
  simp only [CStr.bytes_append, htext, List.cons_append, List.head?_cons] at hhead
  revert hhead
  decide

theorem tailStatus_cases (v : CqViewIn) :
    tailStatus v = .lit "playing out..." ∨ tailStatus v = .lit "standing by" := by
  rw [tailStatus]
  split
  · exact Or.inl rfl
  · exact Or.inr rfl

/-- What is left of the track is neither air nor starvation nor a silent mount. -/
theorem tailStatus_notMem (v : CqViewIn) :
    tailStatus v ∉ [CStr.lit "on air", .lit "buffering...", .lit "waiting for Spotify..."] := by
  rcases tailStatus_cases v with h | h <;> rw [h] <;> decide

/-- The percentage is one while the ring is no larger than it is built. -/
theorem bufferPercent_bounds {v : CqViewIn} (h : v.ringFill.toNat ≤ 2 * 1024 * 1024) :
    0 ≤ bufferPercent v ∧ bufferPercent v ≤ 99 := by
  simp only [bufferPercent]
  generalize htgt : (if v.prebufTarget = 0 then (1 : BitVec 32) else v.prebufTarget) = tgt
  -- neither the product nor the quotient reaches the sign bit
  have hproduct : (v.ringFill * 100).toNat ≤ 209715200 := by
    rw [BitVec.toNat_mul]
    exact (Nat.mod_le _ _).trans (by simp; omega)
  have hquotient : (v.ringFill * 100 / tgt).toNat ≤ 209715200 := by
    rw [BitVec.toNat_udiv]
    exact (Nat.div_le_self _ _).trans hproduct
  have hsigned : (v.ringFill * 100 / tgt).toInt = (v.ringFill * 100 / tgt).toNat := by
    apply BitVec.toInt_eq_toNat_of_lt
    omega
  rw [hsigned]
  split <;> omega

/-! ## The status, phase by phase -/

/-- While the prebuffer fills, only the fact may say that the count will not move. -/
theorem status_buffering {v : CqViewIn} (h : v.engine = .buffering) :
    (MountSilent v ∧ viewStatus v = (.lit "waiting for Spotify...", -1)) ∨
      (¬ MountSilent v ∧ viewStatus v = (percentText (bufferPercent v), bufferPercent v)) := by
  have hsilent : MountSilent v ↔ (factUsable v && v.live == 0 && playingActive v) = true := by
    rw [MountSilent, h, Bool.and_eq_true, Bool.and_eq_true, playingActive_iff, beq_iff_eq]
    simp [and_assoc]
  rw [hsilent, viewStatus, h]
  by_cases hwait : (factUsable v && v.live == 0 && playingActive v) = true
  · left
    simp only [hwait, if_true, and_self]
  · right
    simp only [hwait, Bool.false_eq_true, if_false, not_false_eq_true, true_and]
    rfl

/-- On air the anomaly is the silent mount. -/
theorem mountAnomaly_iff {v : CqViewIn} (h : v.engine = .onAir) :
    mountAnomaly v = true ↔ MountSilent v := by
  rw [mountAnomaly, MountSilent, h]
  by_cases hfact : factUsable v = true
  · simp [hfact, playingActive_iff]
  · rw [if_neg hfact, SnapPlays]
    rw [Bool.not_eq_true] at hfact
    cases v.snap with
    | none => simp [hfact]
    | some s =>
        -- a counter at the mark is not negative
        have hmark : (0 : Int) ≤ cqViewDryTicks := by decide
        simp only [hfact, Bool.and_eq_true, beq_iff_eq, decide_eq_true_eq, Bool.false_eq_true,
          false_and, Option.some.injEq, exists_eq_left', true_and, false_or]
        constructor
        · rintro ⟨⟨hplays, -⟩, hdry⟩
          exact ⟨hplays, hdry⟩
        · rintro ⟨hplays, hdry⟩
          exact ⟨⟨hplays, hmark.trans hdry⟩, hdry⟩

/-- On air: the track is paused or stopped and its tail is left; or the mount is silent; or the silence is
expected and the tail is left; or the interrupt has starved or not. -/
theorem status_onAir {v : CqViewIn} (h : v.engine = .onAir) :
    (¬ MountSilent v ∧ viewStatus v = (tailStatus v, -1)) ∨
      (MountSilent v ∧ viewStatus v = (.lit "waiting for Spotify...", -1)) ∨
      (¬ MountSilent v ∧ (v.snap = none ∨ SnapPlays v) ∧
        (viewStatus v = (.lit "buffering...", -1) ∨ viewStatus v = (.lit "on air", -1))) := by
  rw [← mountAnomaly_iff h, viewStatus, h]
  by_cases hidle : (v.snap.any fun s => s.state != .playing) = true
  · left
    simp only [hidle, if_true, and_true]
    rw [mountAnomaly_iff h]
    obtain ⟨s, hs, hstate⟩ := (Option.any_eq_true _ _).1 hidle
    rintro (⟨-, -, ⟨s', hs', hplays, -⟩, -⟩ | ⟨-, -, ⟨s', hs', hplays⟩, -⟩)
    · rw [hs] at hs'
      cases hs'
      simp [hplays] at hstate
    · rw [hs] at hs'
      cases hs'
      simp [hplays] at hstate
  · have hplays : v.snap = none ∨ SnapPlays v := by
      cases hsnap : v.snap with
      | none => exact Or.inl rfl
      | some s =>
          right
          rw [hsnap] at hidle
          exact ⟨s, hsnap, by simpa using hidle⟩
    simp only [hidle, Bool.false_eq_true, if_false]
    by_cases hsilent : mountAnomaly v = true
    · simp only [hsilent, if_true, not_true_eq_false, false_and, and_self, true_or, or_true]
    · simp only [hsilent, Bool.false_eq_true, if_false, not_false_eq_true, true_and, false_and, false_or]
      split
      · exact Or.inl rfl
      · right
        refine ⟨hplays, ?_⟩
        split
        · exact Or.inl rfl
        · exact Or.inr rfl

/-- **The silent mount** is what the status says exactly when it is there. -/
theorem status_waiting_iff (v : CqViewIn) :
    (cqViewRender v).status = .lit "waiting for Spotify..." ↔ MountSilent v := by
  show (viewStatus v).1 = _ ↔ _
  cases h : v.engine with
  | off | tuning =>
      have hnot : ¬ MountSilent v := by simp [MountSilent, h]
      simp only [viewStatus, h, hnot, iff_false]
      decide
  | buffering =>
      rcases status_buffering h with ⟨hsilent, hstatus⟩ | ⟨hsilent, hstatus⟩
      · simp only [hstatus, hsilent]
      · simp only [hstatus, hsilent, percentText_ne]
  | onAir =>
      rcases status_onAir h with ⟨hsilent, hstatus⟩ | ⟨hsilent, hstatus⟩ | ⟨hsilent, -, hstatus | hstatus⟩
      · have htail := tailStatus_notMem v
        simp only [List.mem_cons, not_or] at htail
        simp only [hstatus, hsilent, htail.2.2.1]
      · simp only [hstatus, hsilent]
      · simp only [hstatus, hsilent, iff_false]
        decide
      · simp only [hstatus, hsilent, iff_false]
        decide

/-- **The percentage** is shown exactly while the prebuffer fills and the mount is not silent. -/
theorem percent_shown {v : CqViewIn} (hring : v.ringFill.toNat ≤ 2 * 1024 * 1024) :
    (v.engine = .buffering ∧ ¬ MountSilent v →
      0 ≤ (cqViewRender v).bufferPct ∧ (cqViewRender v).bufferPct ≤ 99 ∧
        (cqViewRender v).status = percentText (cqViewRender v).bufferPct) ∧
    (¬ (v.engine = .buffering ∧ ¬ MountSilent v) → (cqViewRender v).bufferPct = -1) := by
  have hbounds := bufferPercent_bounds hring
  constructor
  · rintro ⟨hengine, hsilent⟩
    rcases status_buffering hengine with ⟨habs, -⟩ | ⟨-, hstatus⟩
    · exact absurd habs hsilent
    · simp only [cqViewRender, hstatus]
      exact ⟨hbounds.1, hbounds.2, trivial⟩
  · intro hnot
    show (viewStatus v).2 = -1
    cases h : v.engine with
    | off | tuning => simp only [viewStatus, h]
    | buffering =>
        rcases status_buffering h with ⟨-, hstatus⟩ | ⟨hsilent, -⟩
        · rw [hstatus]
        · exact absurd ⟨h, hsilent⟩ hnot
    | onAir =>
        rcases status_onAir h with ⟨-, hstatus⟩ | ⟨-, hstatus⟩ | ⟨-, -, hstatus | hstatus⟩ <;> rw [hstatus]

/-- **On air**, the words for sound and for its absence need a snapshot that plays, or none. -/
theorem onAir_plays {v : CqViewIn} (h : v.engine = .onAir)
    (hstatus : (cqViewRender v).status ∈
      [CStr.lit "on air", .lit "buffering...", .lit "waiting for Spotify..."]) :
    v.snap = none ∨ SnapPlays v := by
  have hword : (viewStatus v).1 ∈ _ := hstatus
  rcases status_onAir h with ⟨-, htail⟩ | ⟨hsilent, -⟩ | ⟨-, hplays, -⟩
  · rw [htail] at hword
    exact absurd hword (tailStatus_notMem v)
  · right
    rcases hsilent with ⟨-, -, ⟨s, hs, hplays, -⟩, -⟩ | ⟨-, -, hplays, -⟩
    · exact ⟨s, hs, hplays⟩
    · exact hplays
  · exact hplays

theorem snapWord_notMem (snap : Option CqNow) : snapWord snap ∉ ackWords := by
  cases snap with
  | none =>
      rw [snapWord]
      decide
  | some s =>
      rw [snapWord]
      cases s.state <;> decide

/-- **The state word** is an acknowledgement exactly when one is active, else the snapshot's. -/
theorem stateWord_cases (v : CqViewIn) :
    ((cqViewRender v).ackActive = true ↔ (cqViewRender v).stateWord ∈ ackWords) ∧
      ((cqViewRender v).ackActive = false → (cqViewRender v).stateWord = snapWord v.snap) := by
  show (intentPending v = true ↔ viewStateWord v ∈ ackWords) ∧
    (intentPending v = false → viewStateWord v = snapWord v.snap)
  by_cases hpending : intentPending v = true
  · have hword : viewStateWord v ∈ ackWords := by
      rw [viewStateWord, if_pos hpending]
      cases v.intent <;> decide
    simp only [hpending, hword, Bool.true_eq_false, false_imp_iff, and_self]
  · have hword : viewStateWord v = snapWord v.snap := by
      rw [viewStateWord, if_neg hpending]
      rfl
    simp only [hpending, hword, snapWord_notMem, Bool.false_eq_true, implies_true, and_self]

/-! ## What does not leak -/

/-- **The receive counter** changes nothing where the fact is usable. -/
theorem render_rxDryTicks {v : CqViewIn} (h : factUsable v = true) (ticks : Int) :
    cqViewRender { v with rxDryTicks := ticks } = cqViewRender v := by
  have husable : factUsable { v with rxDryTicks := ticks } = true := h
  have hanomaly : mountAnomaly { v with rxDryTicks := ticks } = mountAnomaly v := by
    rw [mountAnomaly, mountAnomaly, if_pos h, if_pos husable]
    rfl
  have hstatus : viewStatus { v with rxDryTicks := ticks } = viewStatus v := by
    simp only [viewStatus, hanomaly]
    rfl
  simp only [cqViewRender, hstatus]
  rfl

/-- **The fact** changes nothing where it is not usable. -/
theorem render_fact {v : CqViewIn} {live factTs : Int} (h : factUsable v = false)
    (h' : factUsable { v with live := live, factTs := factTs } = false) :
    cqViewRender { v with live := live, factTs := factTs } = cqViewRender v := by
  have hanomaly : mountAnomaly { v with live := live, factTs := factTs } = mountAnomaly v := by
    rw [mountAnomaly, mountAnomaly, h, h']
    rfl
  have hstatus : viewStatus { v with live := live, factTs := factTs } = viewStatus v := by
    simp only [viewStatus, hanomaly, h, h', Bool.false_and]
    rfl
  simp only [cqViewRender, hstatus]
  rfl

/-- **The view never contradicts itself.** -/
theorem view_consistent (v : CqViewIn) (hring : v.ringFill.toNat ≤ 2 * 1024 * 1024) :
    ((cqViewRender v).status = .lit "waiting for Spotify..." ↔ MountSilent v) ∧
    ((v.engine = .buffering ∧ ¬ MountSilent v →
        0 ≤ (cqViewRender v).bufferPct ∧ (cqViewRender v).bufferPct ≤ 99 ∧
          (cqViewRender v).status = percentText (cqViewRender v).bufferPct) ∧
      (¬ (v.engine = .buffering ∧ ¬ MountSilent v) → (cqViewRender v).bufferPct = -1)) ∧
    (v.engine = .onAir → (cqViewRender v).status ∈
        [CStr.lit "on air", .lit "buffering...", .lit "waiting for Spotify..."] →
      v.snap = none ∨ SnapPlays v) ∧
    (((cqViewRender v).ackActive = true ↔ (cqViewRender v).stateWord ∈ ackWords) ∧
      ((cqViewRender v).ackActive = false → (cqViewRender v).stateWord = snapWord v.snap)) ∧
    (factUsable v = true → ∀ ticks, cqViewRender { v with rxDryTicks := ticks } = cqViewRender v) ∧
    (factUsable v = false → ∀ live factTs,
      factUsable { v with live := live, factTs := factTs } = false →
        cqViewRender { v with live := live, factTs := factTs } = cqViewRender v) := by
  refine ⟨status_waiting_iff v, percent_shown hring, onAir_plays, stateWord_cases v, ?_, ?_⟩
  · intro h ticks
    exact render_rxDryTicks h ticks
  · intro h live factTs h'
    exact render_fact h h'

/-- A prebuffer of which a half is there, before the first snapshot. -/
def halfBuffered : CqViewIn where
  snap := none
  snapTicks := 0
  hasStreamFact := false
  live := 0
  factTs := 0
  engine := .buffering
  ringFill := 192 * 1024
  prebufTarget := 384 * 1024
  chunkBytes := 32 * 1024
  rxDryTicks := -1
  starveTicks := -1
  intent := .none
  intentTicks := 0
  preTrackId := .empty
  preState := .stopped
  nowTicks := 0

theorem view_consistent_sample :
    (cqViewRender halfBuffered).status = percentText 50 :=
  ((view_consistent halfBuffered (by decide)).2.1.1
    ⟨rfl, by rintro (⟨-, -, ⟨s, ⟨⟩, -⟩, -⟩ | ⟨-, ⟨⟩, -⟩)⟩).2.2

end Casquinha.App
