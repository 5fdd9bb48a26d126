import Casquinha.App.Acknowledge
import Casquinha.App.Cadence

/-!
# The skip acknowledgement (`intent_reflected`)

A skip is acknowledged until another track is on show or eight seconds are over. The id of the track that
is to move is copied into 24 bytes and compared whole, so that a longer id is never found again: its
acknowledgement is gone with the next render. And the eight seconds are the signed difference of two
32-bit ticks, which is small again once the sign bit is set.

The run carries the skip that was last acknowledged, with the whole id and whether it is over. Every
render of a run shows the acknowledgement as long as it is to be shown, and no longer, if and only if the
renders of the run meet `AckTells` (`skip_ack_iff`).
-/

set_option autoImplicit false

namespace Casquinha.App

open Lib Wire

/-! ## History -/

/-- A skip acknowledged over a track: the time, the whole id, and whether it has ended. -/
structure Skip where
  time : Nat
  trackId : CStr
  ended : Bool
deriving DecidableEq

/-- The time of the last step, and the skip acknowledged last, unless another intent has replaced it. -/
structure SkipLog where
  now : Nat
  skip : Option Skip

/-- The id of the track on show. -/
def trackShown (s : Shown) : Option CStr := if s.gHaveSnap then s.gSnap.trackId else none

/-- The id of the track that a step leaves on show. -/
def trackAfter (s : Globals) (e : Event) : Option CStr :=
  match adopts s e with
  | some n => n.trackId
  | none => trackShown s.shown

/-- A skip is over once another track is on show or the time is up. -/
def Skip.Ends (p : Skip) (track : Option CStr) (time : Nat) : Prop :=
  (track ≠ none ∧ track ≠ some p.trackId) ∨ p.time + 480 ≤ time

instance (p : Skip) (track : Option CStr) (time : Nat) : Decidable (p.Ends track time) :=
  inferInstanceAs (Decidable (_ ∨ _))

/-- The skip that is acknowledged over an identified track. -/
def skipOver (s : Shown) (time : Nat) : Option Skip :=
  (trackShown s).bind fun id => if id.bytes = [] then none else some ⟨time, id, false⟩

/-- The log after a step. A skip that is to end, ends with a render. -/
def noteSkip (log : SkipLog) (s : Globals) (x : TimedEvent) : SkipLog where
  now := x.time
  skip :=
    match gesture s x.seen with
    | some (.skip, _) => skipOver s.shown x.time
    | some _ => none
    | none =>
        log.skip.map fun p =>
          { p with
            ended := p.ended || !(rendered s x.seen).isEmpty && p.Ends (trackAfter s x.seen) x.time }

/-- The launch. -/
def unskipped (host : CStr) (port : Nat) (autoStart qtOk : Bool) : Traced Globals SkipLog :=
  ⟨launch host port autoStart qtOk, ⟨0, none⟩⟩

/-! ## What is asked of a step -/

/-- Time does not go back. -/
def OnTime (y : Traced Globals SkipLog) (x : TimedEvent) : Prop := y.log.now ≤ x.time

instance (y : Traced Globals SkipLog) (x : TimedEvent) : Decidable (OnTime y x) :=
  inferInstanceAs (Decidable (_ ≤ _))

/-- Every render shows the acknowledgement while the track it was given over is on show and the time is
not up, and the first render after that clears it for good. -/
def AckHolds (y : Traced Globals SkipLog) (x : TimedEvent) : Prop :=
  ∀ p, y.log.skip = some p → gesture y.state x.seen = none →
    ∀ t ∈ rendered y.state x.seen,
      if p.ended = true ∨ p.Ends (trackShown t.shown) x.time then
        (viewOf x.seen.env t).ackActive = false ∧
          (perform x.seen.env y.state x.seen.act).gIntent.kind = .none
      else trackShown t.shown = some p.trackId →
        (viewOf x.seen.env t).ackActive = true ∧
          (viewOf x.seen.env t).stateWord = .lit "Skipping..."

/-- A difference of ticks is below `n` as signed arithmetic sees it. -/
def LooksBelow (n elapsed : Nat) : Prop := elapsed % 2 ^ 32 < n ∨ 2 ^ 31 ≤ elapsed % 2 ^ 32

/-- What a render can tell. Over an id that is kept whole only the ticks can deceive it, when they look
short although the time is up. An id that is cut is not on show before the time is up, and what is kept
of it is not on show while the ticks look short. -/
def Skip.Tells (p : Skip) (track : Option CStr) (elapsed : Nat) : Prop :=
  if p.trackId.length < 24 then
    track = none ∨ track = some p.trackId → LooksBelow 480 elapsed → elapsed < 480
  else
    (track = some p.trackId → 480 ≤ elapsed) ∧
      (track = some (p.trackId.fit 24) → ¬ LooksBelow 480 elapsed) ∧
      (track = none → LooksBelow 480 elapsed → elapsed < 480)

/-- Every step that renders while a skip is pending can tell. -/
def AckTells (y : Traced Globals SkipLog) (x : TimedEvent) : Prop :=
  ∀ p, y.log.skip = some p → p.ended = false → gesture y.state x.seen = none →
    rendered y.state x.seen ≠ [] → p.Tells (trackAfter y.state x.seen) (x.time - p.time)

/-! ## What can be told -/

/-- An acknowledgement is shown while the ticks look short and no track but the kept id is on show. -/
def Skip.Shows (p : Skip) (track : Option CStr) (elapsed : Nat) : Prop :=
  LooksBelow 480 elapsed ∧ (track = none ∨ track = some (p.trackId.fit 24))

theorem looksBelow_of_lt {n elapsed : Nat} (h : elapsed < n) (hn : n ≤ 2 ^ 32) :
    LooksBelow n elapsed := by
  left
  rw [Nat.mod_eq_of_lt (by omega)]
  exact h

theorem Skip.ends_iff {p : Skip} {time : Nat} (track : Option CStr) (h : p.time ≤ time) :
    p.Ends track time ↔ (track ≠ none ∧ track ≠ some p.trackId) ∨ 480 ≤ time - p.time := by
  rw [Skip.Ends]
  exact or_congr Iff.rfl (by omega)

/-- Over an id that is kept whole. -/
theorem Skip.tells_iff_of_fits {p : Skip} {time : Nat} (track : Option CStr) (h : p.time ≤ time)
    (hfits : p.trackId.length < 24) :
    p.Tells track (time - p.time) ↔
      if p.Ends track time then ¬ p.Shows track (time - p.time)
      else track = some p.trackId → p.Shows track (time - p.time) := by
  rw [Skip.Tells, Skip.Shows, if_pos hfits, CStr.fit_eq_self hfits]
  split
  · next hend =>
    rw [p.ends_iff track h] at hend
    constructor
    · rintro htells ⟨hlooks, htrack⟩
      rcases hend with ⟨hsome, hother⟩ | htime
      · exact htrack.elim hsome hother
      · exact absurd (htells htrack hlooks) (by omega)
    · intro hnot htrack hlooks
      exact absurd ⟨hlooks, htrack⟩ hnot
  · next hgoes =>
    rw [p.ends_iff track h, not_or] at hgoes
    constructor
    · intro _ htrack
      exact ⟨looksBelow_of_lt (by omega) (by decide), .inr htrack⟩
    · intro _ _ _
      omega

/-- An id that is cut is another id. -/
theorem ne_fit_of_cut {id : CStr} (hcut : ¬ id.length < 24) : id ≠ id.fit 24 := by
  intro heq
  have hlength : (id.fit 24).length = min 23 id.length := List.length_take
  rw [← heq] at hlength
  omega

/-- Over an id that is cut. -/
theorem Skip.tells_iff_of_cut {p : Skip} {time : Nat} (track : Option CStr) (h : p.time ≤ time)
    (hcut : ¬ p.trackId.length < 24) :
    p.Tells track (time - p.time) ↔
      if p.Ends track time then ¬ p.Shows track (time - p.time)
      else track = some p.trackId → p.Shows track (time - p.time) := by
  rw [Skip.Tells, Skip.Shows, if_neg hcut]
  split
  · next hend =>
    rw [p.ends_iff track h] at hend
    constructor
    · rintro ⟨-, hkept, hnone⟩ ⟨hlooks, htrack | htrack⟩
      · rcases hend with ⟨hsome, -⟩ | htime
        · exact hsome htrack
        · exact absurd (hnone htrack hlooks) (by omega)
      · exact hkept htrack hlooks
    · intro hnot
      refine ⟨?_, ?_, ?_⟩
      · intro htrack
        rcases hend with ⟨-, hother⟩ | htime
        · exact absurd htrack hother
        · exact htime
      · intro htrack hlooks
        exact hnot ⟨hlooks, .inr htrack⟩
      · intro htrack hlooks
        exact absurd ⟨hlooks, .inl htrack⟩ hnot
  · next hgoes =>
    rw [p.ends_iff track h, not_or] at hgoes
    constructor
    · rintro ⟨htells, -, -⟩ htrack
      exact absurd (htells htrack) (by omega)
    · intro hshows
      refine ⟨?_, ?_, ?_⟩
      · intro htrack
        obtain ⟨-, hnone | hkept⟩ := hshows htrack
        · rw [htrack] at hnone
          cases hnone
        · rw [htrack, Option.some.injEq] at hkept
          exact absurd hkept (ne_fit_of_cut hcut)
      · intro htrack
        -- what is kept is another id, and the skip would be over
        have hother : some (p.trackId.fit 24) ≠ some p.trackId := by
          simpa using (ne_fit_of_cut hcut).symm
        exact absurd ⟨by rw [htrack]; simp, by rw [htrack]; exact hother⟩ hgoes.1
      · intro _ _
        omega

/-- **What a render has to tell**, in terms of what it shows. -/
theorem Skip.tells_iff {p : Skip} {time : Nat} (track : Option CStr) (h : p.time ≤ time) :
    p.Tells track (time - p.time) ↔
      if p.Ends track time then ¬ p.Shows track (time - p.time)
      else track = some p.trackId → p.Shows track (time - p.time) := by
  by_cases hfits : p.trackId.length < 24
  · exact p.tells_iff_of_fits track h hfits
  · exact p.tells_iff_of_cut track h hfits

/-! ## One render -/

/-- The intent of a pending skip. -/
structure Skip.Pending (p : Skip) (i : Intent) : Prop where
  kind : i.kind = .skip
  ticks : i.ticks = BitVec.ofNat 32 p.time
  preTrackId : i.preTrackId = p.trackId.fit 24

theorem ackActive_of_none {env : Env} {t : Globals} (h : t.gIntent.kind = .none) :
    (viewOf env t).ackActive = false := by
  show intentPending (buildViewIn env t) = false
  have hnone : (buildViewIn env t).intent = .none := h
  rw [intentPending, hnone]
  simp

/-- Another id than the kept one is on show. -/
theorem intentReflected_skip {p : Skip} (env : Env) {t : Globals} (h : p.Pending t.gIntent)
    (hid : p.trackId.bytes ≠ []) :
    intentReflected (buildViewIn env t) = false ↔
      trackShown t.shown = none ∨ trackShown t.shown = some (p.trackId.fit 24) := by
  have hintent : (buildViewIn env t).intent = .skip := h.kind
  have hpre : (buildViewIn env t).preTrackId = p.trackId.fit 24 := h.preTrackId
  have hkept : (p.trackId.fit 24).bytes ≠ [] := by
    show p.trackId.bytes.take 23 ≠ []
    simpa using hid
  have hsnap : (buildViewIn env t).snap = if t.shown.gHaveSnap then some t.shown.gSnap else none := rfl
  rw [intentReflected, hsnap, trackShown, hintent, hpre]
  cases t.shown.gHaveSnap with
  | false => simp
  | true =>
      simp only [if_true, if_pos hkept]
      cases t.shown.gSnap.trackId with
      | none => simp
      | some id => simp

/-- **A render of a pending skip.** -/
theorem ackActive_iff {p : Skip} {env : Env} {t : Globals} {time : Nat} (h : p.Pending t.gIntent)
    (hid : p.trackId.bytes ≠ []) (htick : env.tick = BitVec.ofNat 32 time) (hle : p.time ≤ time) :
    (viewOf env t).ackActive = true ↔ p.Shows (trackShown t.shown) (time - p.time) := by
  have hticks : ((buildViewIn env t).nowTicks - (buildViewIn env t).intentTicks).toInt <
      cqViewAckTicks ↔ LooksBelow 480 (time - p.time) := by
    show (env.tick - t.gIntent.ticks).toInt < cqViewAckTicks ↔ _
    rw [htick, h.ticks, ofNat_sub_ofNat hle, LooksBelow, cqViewAckTicks,
      toInt_ofNat_lt_iff (by decide) (by decide)]
    norm_cast
  have hkind : (buildViewIn env t).intent ≠ .none := by
    show t.gIntent.kind ≠ .none
    rw [h.kind]
    exact CqIntentKind.noConfusion
  show intentPending (buildViewIn env t) = true ↔ _
  rw [intentPending, Bool.and_eq_true, Bool.and_eq_true, decide_eq_true_eq, decide_eq_true_eq, hticks,
    Bool.not_eq_true', intentReflected_skip env h hid, Skip.Shows, and_iff_right hkind]

theorem stateWord_of_ackActive {p : Skip} {env : Env} {t : Globals} (h : p.Pending t.gIntent)
    (hack : (viewOf env t).ackActive = true) : (viewOf env t).stateWord = .lit "Skipping..." := by
  have hintent : (buildViewIn env t).intent = .skip := h.kind
  have hpending : intentPending (buildViewIn env t) = true := hack
  show viewStateWord (buildViewIn env t) = _
  rw [viewStateWord, if_pos hpending, hintent]

/-! ## The renders of a step -/

theorem leftIntent_of_shown {env : Env} {t : Globals} (h : (viewOf env t).ackActive = true) :
    leftIntent env t = t.gIntent := by
  rw [leftIntent, intent_dropIntent, if_neg (by simp [h])]

theorem leftIntent_kind_of_dropped {env : Env} {t : Globals} (h : (viewOf env t).ackActive = false) :
    (leftIntent env t).kind = .none := by
  rw [leftIntent, intent_dropIntent]
  split
  · rfl
  · next hkept =>
    by_contra hkind
    exact hkept ⟨hkind, h⟩

section Renders

variable {env : Env} {shown : Shown} {told left : Intent} {ts : List Globals}

theorem Renders.shown_eq (h : Renders env shown told ts left) : ∀ t ∈ ts, t.shown = shown := by
  induction ts generalizing told with
  | nil =>
      intro t ht
      cases ht
  | cons t rest ih =>
      obtain ⟨-, hshown, hrest⟩ := h
      intro u hu
      rcases List.mem_cons.1 hu with rfl | hu
      · exact hshown
      · exact ih hrest u hu

/-- Once dropped, an intent stays dropped. -/
theorem Renders.idle (h : Renders env shown told ts left) (hkind : told.kind = .none) :
    (∀ t ∈ ts, (viewOf env t).ackActive = false) ∧ left.kind = .none := by
  induction ts generalizing told with
  | nil =>
      rw [Renders] at h
      rw [h]
      refine ⟨?_, hkind⟩
      intro t ht
      cases ht
  | cons t rest ih =>
      obtain ⟨htold, -, hrest⟩ := h
      have hack : (viewOf env t).ackActive = false := by
        apply ackActive_of_none
        rw [htold, hkind]
      obtain ⟨hlater, hleft⟩ := ih hrest (leftIntent_kind_of_dropped hack)
      refine ⟨?_, hleft⟩
      intro u hu
      rcases List.mem_cons.1 hu with rfl | hu
      · exact hack
      · exact hlater u hu

/-- What the first render shows, they all show, and it is left as it is. -/
theorem Renders.all_show (h : Renders env shown told ts left)
    (hack : ∀ t, t.gIntent = told → t.shown = shown → (viewOf env t).ackActive = true) :
    (∀ t ∈ ts, t.gIntent = told ∧ (viewOf env t).ackActive = true) ∧ left = told := by
  induction ts with
  | nil =>
      refine ⟨?_, h⟩
      intro t ht
      cases ht
  | cons t rest ih =>
      obtain ⟨htold, hshown, hrest⟩ := h
      have here := hack t htold hshown
      rw [leftIntent_of_shown here, htold] at hrest
      obtain ⟨hlater, hleft⟩ := ih hrest
      refine ⟨?_, hleft⟩
      intro u hu
      rcases List.mem_cons.1 hu with rfl | hu
      · exact ⟨htold, here⟩
      · exact hlater u hu

/-- What the first render does not show is dropped. -/
theorem Renders.none_shows (h : Renders env shown told ts left) (hne : ts ≠ [])
    (hack : ∀ t, t.gIntent = told → t.shown = shown → (viewOf env t).ackActive = false) :
    (∀ t ∈ ts, (viewOf env t).ackActive = false) ∧ left.kind = .none := by
  cases ts with
  | nil => exact absurd rfl hne
  | cons t rest =>
      obtain ⟨htold, hshown, hrest⟩ := h
      have here := hack t htold hshown
      obtain ⟨hlater, hleft⟩ := hrest.idle (leftIntent_kind_of_dropped here)
      refine ⟨?_, hleft⟩
      intro u hu
      rcases List.mem_cons.1 hu with rfl | hu
      · exact here
      · exact hlater u hu

end Renders

/-! ## One step -/

theorem trackShown_perform (s : Globals) (e : Event) :
    trackShown (perform e.env s e.act).shown = trackAfter s e := by
  obtain ⟨guard, hshown⟩ := display_perform s e
  rw [hshown, trackAfter]
  cases adopts s e with
  | none => rfl
  | some n =>
      show (heldVolume e.env s n).trackId = n.trackId
      rw [heldVolume]
      split <;> rfl

/-- A skip is acknowledged by a gesture, which neither renders nor adopts. -/
theorem quiet_of_skip {s : Globals} {e : Event} {own : Own} (h : gesture s e = some (.skip, own)) :
    rendered s e = [] ∧ adopts s e = none := by
  obtain ⟨env, act⟩ := e
  cases act with
  | clickPrev => exact ⟨rfl, rfl⟩
  | clickNext => exact ⟨rfl, rfl⟩
  | script cmd => exact ⟨rfl, rfl⟩
  | pumpQueue => exact ⟨rfl, rfl⟩
  | clickPlay => exact ⟨rfl, rfl⟩
  | clickResult row => exact ⟨rfl, rfl⟩
  | pumpCmd =>
      obtain ⟨sel, -, hown⟩ := Option.map_eq_some_iff.1 h
      cases hown
  | pollNow =>
      obtain ⟨sel, -, hown⟩ := Option.map_eq_some_iff.1 h
      cases hown
  | _ => cases h

/-- A skip is pending until it is over, and then nothing is. -/
structure SkipKept (y : Traced Globals SkipLog) : Prop where
  past : ∀ p, y.log.skip = some p → p.time ≤ y.log.now ∧ p.trackId.bytes ≠ []
  pending : ∀ p, y.log.skip = some p → p.ended = false → p.Pending y.state.gIntent
  idle : ∀ p, y.log.skip = some p → p.ended = true → y.state.gIntent.kind = .none

/-- A new skip is pending. -/
theorem pending_of_skip {s : Globals} {x : TimedEvent} {own : Own} {p : Skip}
    (hgesture : gesture s x.seen = some (.skip, own)) (hp : skipOver s.shown x.time = some p) :
    p.time = x.time ∧ p.trackId.bytes ≠ [] ∧ p.ended = false ∧
      p.Pending (perform x.seen.env s x.seen.act).gIntent := by
  obtain ⟨id, hid, hp⟩ := Option.bind_eq_some_iff.1 hp
  split at hp
  · cases hp
  · next hne =>
    cases hp
    obtain ⟨hrendered, hadopts⟩ := quiet_of_skip hgesture
    have htrack : trackShown (perform x.seen.env s x.seen.act).shown = some id := by
      rw [trackShown_perform, trackAfter, hadopts, hid]
    have hintent := intent_perform s x.seen
    rw [hrendered, Renders, toldIntent, hgesture] at hintent
    dsimp only at hintent
    rw [hintent]
    refine ⟨rfl, hne, rfl, rfl, rfl, ?_⟩
    rw [trackShown] at htrack
    split at htrack
    · next hsnap =>
      simp only [setIntent, hsnap, if_true, htrack, Option.getD_some]
    · cases htrack

/-- What `AckHolds` asks of the renders of a step over one skip. -/
def AckAt (p : Skip) (s : Globals) (x : TimedEvent) : Prop :=
  ∀ t ∈ rendered s x.seen,
    if p.ended = true ∨ p.Ends (trackShown t.shown) x.time then
      (viewOf x.seen.env t).ackActive = false ∧
        (perform x.seen.env s x.seen.act).gIntent.kind = .none
    else trackShown t.shown = some p.trackId →
      (viewOf x.seen.env t).ackActive = true ∧
        (viewOf x.seen.env t).stateWord = .lit "Skipping..."

section Rendered

variable {s : Globals} {x : TimedEvent} {p : Skip}

/-- What is shown in every render holds if the skip goes on. -/
theorem ackAt_iff_of_shown (hover : p.ended = false) (hne : rendered s x.seen ≠ [])
    (htrack : ∀ t ∈ rendered s x.seen, trackShown t.shown = trackAfter s x.seen)
    (hshown : ∀ t ∈ rendered s x.seen, (viewOf x.seen.env t).ackActive = true ∧
      (viewOf x.seen.env t).stateWord = .lit "Skipping...") :
    AckAt p s x ↔ ¬ p.Ends (trackAfter s x.seen) x.time := by
  constructor
  · intro h hends
    obtain ⟨t, ht⟩ := List.exists_mem_of_ne_nil _ hne
    have hcleared := h t ht
    rw [htrack t ht, if_pos (.inr hends), (hshown t ht).1] at hcleared
    cases hcleared.1
  · intro hgoes t ht
    rw [htrack t ht, if_neg (by simp [hover, hgoes])]
    exact fun _ => hshown t ht

/-- What is shown in no render holds if the skip ends, or its track is not on show. -/
theorem ackAt_iff_of_dropped (hover : p.ended = false) (hne : rendered s x.seen ≠ [])
    (htrack : ∀ t ∈ rendered s x.seen, trackShown t.shown = trackAfter s x.seen)
    (hdropped : ∀ t ∈ rendered s x.seen, (viewOf x.seen.env t).ackActive = false)
    (hleft : (perform x.seen.env s x.seen.act).gIntent.kind = .none) :
    AckAt p s x ↔ (¬ p.Ends (trackAfter s x.seen) x.time → trackAfter s x.seen ≠ some p.trackId) := by
  constructor
  · intro h hgoes hsame
    obtain ⟨t, ht⟩ := List.exists_mem_of_ne_nil _ hne
    have hkept := h t ht
    rw [htrack t ht, if_neg (by simp [hover, hgoes])] at hkept
    have hshown := (hkept hsame).1
    rw [hdropped t ht] at hshown
    cases hshown
  · intro h t ht
    rw [htrack t ht]
    split
    · exact ⟨hdropped t ht, hleft⟩
    · next hgoes =>
      intro hsame
      exact absurd hsame (h fun hends => hgoes (.inr hends))

/-- **A step that renders while a skip is pending.** -/
theorem ackHolds_at_iff (hpending : p.Pending s.gIntent) (hover : p.ended = false)
    (hid : p.trackId.bytes ≠ []) (hle : p.time ≤ x.time) (hgesture : gesture s x.seen = none)
    (hne : rendered s x.seen ≠ []) :
    AckAt p s x ↔ p.Tells (trackAfter s x.seen) (x.time - p.time) := by
  have hrenders := renders_of_no_gesture hgesture
  have htrack : ∀ t ∈ rendered s x.seen, trackShown t.shown = trackAfter s x.seen := by
    intro t ht
    rw [hrenders.shown_eq t ht, trackShown_perform]
  have hack : ∀ t, t.gIntent = s.gIntent → t.shown = (perform x.seen.env s x.seen.act).shown →
      ((viewOf x.seen.env t).ackActive = true ↔
        p.Shows (trackAfter s x.seen) (x.time - p.time)) := by
    intro t hintent hshown
    rw [← trackShown_perform, ← hshown]
    apply ackActive_iff
    · rw [hintent]
      exact hpending
    · exact hid
    · rfl
    · exact hle
  rw [p.tells_iff (trackAfter s x.seen) hle]
  by_cases hshows : p.Shows (trackAfter s x.seen) (x.time - p.time)
  · obtain ⟨hall, -⟩ := hrenders.all_show fun t hintent hshown => (hack t hintent hshown).2 hshows
    rw [ackAt_iff_of_shown hover hne htrack]
    · simp [hshows]
    · intro t ht
      obtain ⟨hintent, hshown⟩ := hall t ht
      refine ⟨hshown, ?_⟩
      apply stateWord_of_ackActive (p := p) _ hshown
      rw [hintent]
      exact hpending
  · obtain ⟨hall, hleft⟩ := hrenders.none_shows hne fun t hintent hshown =>
      Bool.eq_false_iff.2 fun h => hshows ((hack t hintent hshown).1 h)
    rw [ackAt_iff_of_dropped hover hne htrack hall hleft]
    simp [hshows]

end Rendered

/-- **One step** shows the acknowledgement as it is to if and only if it can tell. -/
theorem ackHolds_iff {y : Traced Globals SkipLog} {x : TimedEvent} (h : SkipKept y)
    (htime : OnTime y x) : AckHolds y x ↔ AckTells y x := by
  refine forall₂_congr fun p hp => ?_
  obtain ⟨hpast, hid⟩ := h.past p hp
  show (gesture y.state x.seen = none → AckAt p y.state x) ↔ _
  by_cases hover : p.ended = true
  · -- it has been dropped, and stays so
    apply iff_of_true
    · intro hgesture t ht
      obtain ⟨hall, hleft⟩ := (renders_of_no_gesture hgesture).idle (h.idle p hp hover)
      rw [if_pos (.inl hover)]
      exact ⟨hall t ht, hleft⟩
    · intro hgoes
      rw [hover] at hgoes
      cases hgoes
  · rw [Bool.not_eq_true] at hover
    have hat := @ackHolds_at_iff y.state x p (h.pending p hp hover) hover hid (hpast.trans htime)
    constructor
    · intro hall _ hgesture hne
      exact (hat hgesture hne).1 (hall hgesture)
    · intro htells hgesture t ht
      have hne : rendered y.state x.seen ≠ [] := List.ne_nil_of_mem ht
      exact (hat hgesture hne).2 (htells hover hgesture hne) t ht

/-- A skip that goes on is shown by every render that can tell. -/
theorem Skip.shows_of_tells {p : Skip} {track : Option CStr} {time : Nat} (hle : p.time ≤ time)
    (hgoes : ¬ p.Ends track time) (htells : p.Tells track (time - p.time)) :
    p.Shows track (time - p.time) := by
  have hsame := (p.tells_iff track hle).1 htells
  rw [if_neg hgoes] at hsame
  rw [p.ends_iff track hle, not_or] at hgoes
  cases track with
  | none => exact ⟨looksBelow_of_lt (by omega) (by decide), .inl rfl⟩
  | some id =>
      apply hsame
      by_contra hother
      exact hgoes.1 ⟨by simp, hother⟩

/-- A pending skip that goes on stays pending. -/
theorem pending_of_goes {s : Globals} {x : TimedEvent} {p : Skip} (hpending : p.Pending s.gIntent)
    (hid : p.trackId.bytes ≠ []) (hle : p.time ≤ x.time) (hgesture : gesture s x.seen = none)
    (hgoes : rendered s x.seen ≠ [] →
      p.Shows (trackAfter s x.seen) (x.time - p.time)) :
    p.Pending (perform x.seen.env s x.seen.act).gIntent := by
  have hrenders := renders_of_no_gesture hgesture
  by_cases hne : rendered s x.seen = []
  · rw [hne, Renders] at hrenders
    rw [hrenders]
    exact hpending
  · have hall := hrenders.all_show fun t hintent hshown => by
      have hgoing : p.Pending t.gIntent := by
        rw [hintent]
        exact hpending
      rw [ackActive_iff hgoing hid rfl hle, hshown, trackShown_perform]
      exact hgoes hne
    rw [hall.2]
    exact hpending

theorem noteSkip_eq_some {log : SkipLog} {s : Globals} {x : TimedEvent} {q : Skip}
    (h : (noteSkip log s x).skip = some q) :
    (∃ own, gesture s x.seen = some (.skip, own) ∧ skipOver s.shown x.time = some q) ∨
      (gesture s x.seen = none ∧ ∃ p, log.skip = some p ∧
        q = { p with
          ended := p.ended || !(rendered s x.seen).isEmpty && p.Ends (trackAfter s x.seen) x.time }) := by
  simp only [noteSkip] at h
  cases hgesture : gesture s x.seen with
  | none =>
      rw [hgesture] at h
      obtain ⟨p, hp, rfl⟩ := Option.map_eq_some_iff.1 h
      exact .inr ⟨rfl, p, hp, rfl⟩
  | some told =>
      obtain ⟨kind, own⟩ := told
      rw [hgesture] at h
      cases kind with
      | skip => exact .inl ⟨own, rfl, h⟩
      | none => cases h
      | play => cases h
      | pause => cases h

/-- **Every step** that shows the acknowledgement as it is to keeps the skip pending until it is over. -/
theorem SkipKept.step {y z : Traced Globals SkipLog} {x : TimedEvent} (h : SkipKept y)
    (htime : OnTime y x) (hholds : AckHolds y x) (hz : traced timedStep noteSkip y x = some z) :
    SkipKept z := by
  obtain ⟨t, ht, rfl⟩ := Option.map_eq_some_iff.1 hz
  cases ht
  -- one skip at a time: it is new, or the one that was there
  suffices hone : ∀ q, (noteSkip y.log y.state x).skip = some q →
      (q.time ≤ x.time ∧ q.trackId.bytes ≠ []) ∧
        (q.ended = false → q.Pending (perform x.seen.env y.state x.seen.act).gIntent) ∧
        (q.ended = true → (perform x.seen.env y.state x.seen.act).gIntent.kind = .none) from
    ⟨fun q hq => (hone q hq).1, fun q hq => (hone q hq).2.1, fun q hq => (hone q hq).2.2⟩
  intro q hq
  rcases noteSkip_eq_some hq with ⟨own, hgesture, hskip⟩ | ⟨hgesture, p, hp, rfl⟩
  · obtain ⟨htimes, hid, hover, hpending⟩ := pending_of_skip hgesture hskip
    refine ⟨⟨htimes.le, hid⟩, fun _ => hpending, ?_⟩
    intro htrue
    rw [hover] at htrue
    cases htrue
  · obtain ⟨hpast, hid⟩ := h.past p hp
    have hle : p.time ≤ x.time := hpast.trans htime
    refine ⟨⟨hle, hid⟩, ?_, ?_⟩
    · intro hgoes
      rw [Bool.or_eq_false_iff] at hgoes
      obtain ⟨hover, hgoes⟩ := hgoes
      obtain ⟨hkind, hticks, hkept⟩ :=
        pending_of_goes (h.pending p hp hover) hid hle hgesture fun hne => by
          apply Skip.shows_of_tells hle
          · simpa [hne] using hgoes
          · exact (ackHolds_iff h htime).1 hholds p hp hover hgesture hne
      exact ⟨hkind, hticks, hkept⟩
    · intro hends
      rw [Bool.or_eq_true, Bool.and_eq_true] at hends
      rcases hends with hover | ⟨hrendered, hends⟩
      · exact ((renders_of_no_gesture hgesture).idle (h.idle p hp hover)).2
      · have hne : rendered y.state x.seen ≠ [] := by simpa using hrendered
        obtain ⟨t, ht⟩ := List.exists_mem_of_ne_nil _ hne
        have hrenders := renders_of_no_gesture hgesture
        have htrack : trackShown t.shown = trackAfter y.state x.seen := by
          rw [hrenders.shown_eq t ht, trackShown_perform]
        have hcleared := hholds p hp hgesture t ht
        rw [htrack, if_pos (.inr (by simpa using hends))] at hcleared
        exact hcleared.2

/-! ## Runs -/

/-- **The skip acknowledgement holds until the track moves or the time is up, and is then cleared for
good**, in every render of a run, if and only if every render of a pending skip can tell. -/
theorem skip_ack_iff (host : CStr) (port : Nat) (autoStart qtOk : Bool) (events : List TimedEvent)
    (htimes : Meets (traced timedStep noteSkip) OnTime (unskipped host port autoStart qtOk) events) :
    Meets (traced timedStep noteSkip) AckHolds (unskipped host port autoStart qtOk) events ↔
      Meets (traced timedStep noteSkip) AckTells (unskipped host port autoStart qtOk) events := by
  have hlaunch : SkipKept (unskipped host port autoStart qtOk) := by
    constructor
    · intro p hp
      cases hp
    · intro p hp
      cases hp
    · intro p hp
      cases hp
  refine meets_congr_of_keep SkipKept ?_ ?_ hlaunch htimes
  · intro y x z h htime hholds hz
    exact h.step htime hholds hz
  · intro y x h htime
    exact ackHolds_iff h htime

/-- A poll brings a playing track, and Prev is tapped. -/
def skipTapped (trackId : CStr) : List TimedEvent :=
  [⟨1000, worldAt 1000 .running, .pollNow⟩,
    ⟨1060, worldAt 1060 (.done (ascii "state\tplaying\ntrack_id\t" ++ trackId.bytes ++ ascii "\n")),
      .pollNow⟩,
    ⟨1100, worldAt 1100 .running, .clickPrev⟩]

/-- A second later the view is rendered. -/
def skipTick : TimedEvent := ⟨1160, worldAt 1160 .running, .tickView⟩

theorem skip_ack_iff_sample :
    Meets (traced timedStep noteSkip) AckHolds (unskipped (.lit "192.0.2.10") 70 false false)
        (skipTapped (.lit "3AKtKhw5MEd2XvJcPqofNJ") ++ [skipTick]) ↔
      Meets (traced timedStep noteSkip) AckTells (unskipped (.lit "192.0.2.10") 70 false false)
        (skipTapped (.lit "3AKtKhw5MEd2XvJcPqofNJ") ++ [skipTick]) :=
  skip_ack_iff _ _ _ _ _ (by decide +kernel)

/-- The id of a local file. -/
def localId : CStr := .lit "local:Ana+e+Bia:Ao+vivo:215"

/-- The skip that is pending, the track on show, and what the render shows. -/
def localSkip : Option (Option Skip × Option CStr × Bool × CStr) :=
  (run (traced timedStep noteSkip) (unskipped (.lit "192.0.2.10") 70 false false)
    (skipTapped localId)).map fun y =>
      (y.log.skip, trackShown y.state.shown, (viewOf skipTick.seen.env y.state).ackActive,
        (viewOf skipTick.seen.env y.state).stateWord)

/-- `TickView` renders once half a second has passed. -/
theorem mem_rendered_tickView {env : Env} {s : Globals}
    (h : ¬ (env.tick - s.lastDraw).toNat < 30) : s ∈ rendered s ⟨env, .tickView⟩ := by
  simp only [rendered, if_neg h]
  split
  · exact List.mem_cons_self
  · exact List.mem_cons_self

/-- **A long id loses its acknowledgement** with the next render, while its track is on show. -/
theorem long_id_loses_ack :
    localSkip = some (some ⟨1100, localId, false⟩, some localId, false, .lit "Playing") ∧
      ¬ Meets (traced timedStep noteSkip) AckHolds (unskipped (.lit "192.0.2.10") 70 false false)
        (skipTapped localId ++ [skipTick]) := by
  have shown : localSkip =
      some (some ⟨1100, localId, false⟩, some localId, false, .lit "Playing") := by decide +kernel
  refine ⟨shown, fun holds => ?_⟩
  obtain ⟨y, hy, hshown⟩ := Option.map_eq_some_iff.1 shown
  obtain ⟨-, here, -⟩ := (meets_append hy).1 holds
  simp only [Prod.mk.injEq] at hshown
  obtain ⟨hskip, htrack, hack, -⟩ := hshown
  have hdraw : y.state.lastDraw = 0 := by
    cases hy
    decide +kernel
  have hrender := here ⟨1100, localId, false⟩ hskip rfl y.state
    (mem_rendered_tickView (by rw [hdraw]; decide))
  rw [htrack, if_neg (by decide), hack] at hrender
  cases (hrender rfl).1

end Casquinha.App
