import Casquinha.App.Adoption
import Casquinha.App.Interpolation
import Casquinha.Lib.Ring

/-!
# The progress bar within one document

The bar is interpolated from the tick at which the snapshot was adopted. A reply that carries the same document
again is adopted too, and leaves that tick alone (`showSnapshot`); an error and a reply that the guard
drops change nothing that is shown. So from the adoption of a snapshot on, and until one with another `ts`
is adopted, every render shows the position of that snapshot and the time since its adoption
(`Anchored`), and the bar does not go back (`bar_never_rewinds`).
-/

set_option autoImplicit false

namespace Casquinha.App

open Lib Wire

/-! ## The machine -/

/-- A reply, a render, or anything that leaves what is shown and what is drawn alone. -/
inductive BarAct where
  | reply (data : Bytes) (isCmd : Bool)
  | render
  | other (rest : Globals)

/-- An event, so many ticks after the one before. -/
structure BarEvent where
  wait : Nat
  env : Env
  act : BarAct

/-- The globals and the time. -/
structure Watched where
  globals : Globals
  clock : Nat

namespace Watched

/-- The world at the time of an event. -/
def now (w : Watched) (e : BarEvent) : Env :=
  { e.env with tick := BitVec.ofNat 32 (w.clock + e.wait) }

/-- One event. -/
def step (w : Watched) (e : BarEvent) : Option Watched :=
  some
    { clock := w.clock + e.wait
      globals :=
        match e.act with
        | .reply data isCmd => adoptReply (w.now e) w.globals data isCmd
        | .render => redraw (w.now e) w.globals
        | .other rest =>
            { rest with
              shown := w.globals.shown
              gView := w.globals.gView } }

/-- The position that the last render has drawn. -/
def position (w : Watched) : Int := w.globals.gView.positionMs

end Watched

/-- The event is a reply that is adopted as the snapshot `n`. -/
def AdoptsAs (w : Watched) (e : BarEvent) (n : CqNow) : Prop :=
  ∃ data isCmd, e.act = .reply data isCmd ∧ healthyReply data = some n ∧
    (cqGuardAcceptTs w.globals.shown.gGuard n.ts).1 = true

/-- The snapshot on show has another `ts`, or there is none. -/
def FreshTs (w : Watched) (n : CqNow) : Prop :=
  ¬ (w.globals.shown.gHaveSnap = true ∧ n.ts = w.globals.shown.gSnap.ts)

/-- Fewer than `2^32` ticks after the adoption, and what is adopted is the same document. -/
def SameDocument (n : CqNow) (adopted : Nat) (w : Watched) (e : BarEvent) : Prop :=
  w.clock + e.wait < adopted + 2 ^ 32 ∧ ∀ m, AdoptsAs w e m → m = n

/-! ## The bar -/

/-- A position, clamped to the track. -/
def clampTo (duration position : Int) : Int :=
  let position := if position < 0 then 0 else position
  if 0 < duration ∧ duration < position then duration else position

/-- The bar of a snapshot so many ticks after its adoption. -/
def barPosition (n : CqNow) (elapsed : Nat) : Int :=
  clampTo n.durationMs
    (if n.state = .playing then n.positionMs + (elapsed : Int) * 1000 / 60 else n.positionMs)

theorem clampTo_mono {duration p q : Int} (h : p ≤ q) : clampTo duration p ≤ clampTo duration q := by
  simp only [clampTo]
  split_ifs <;> omega

theorem clampTo_bounds (duration p : Int) :
    0 ≤ clampTo duration p ∧ (0 < duration → clampTo duration p ≤ duration) := by
  simp only [clampTo]
  split_ifs <;> omega

/-- **The bar goes forward** with time. -/
theorem barPosition_mono (n : CqNow) {e e' : Nat} (h : e ≤ e') : barPosition n e ≤ barPosition n e' := by
  apply clampTo_mono
  split
  · have hcast : (e : Int) * 1000 / 60 ≤ (e' : Int) * 1000 / 60 := by omega
    omega
  · exact le_refl _

/-- It stands still unless the track is playing. -/
theorem barPosition_stopped {n : CqNow} (h : n.state ≠ .playing) (e e' : Nat) :
    barPosition n e = barPosition n e' := by
  rw [barPosition, barPosition, if_neg h, if_neg h]

/-- What the view reads of a snapshot for the bar. -/
def SameBar (n m : CqNow) : Prop :=
  m.state = n.state ∧ m.positionMs = n.positionMs ∧ m.durationMs = n.durationMs ∧ m.ts = n.ts

theorem barPosition_congr {n m : CqNow} (h : SameBar n m) (e : Nat) : barPosition m e = barPosition n e := by
  obtain ⟨hstate, hposition, hduration, -⟩ := h
  rw [barPosition, barPosition, hstate, hposition, hduration]

theorem sameBar_heldVolume (env : Env) (s : Globals) (n : CqNow) : SameBar n (heldVolume env s n) := by
  rw [heldVolume]
  split <;> exact ⟨rfl, rfl, rfl, rfl⟩

/-- The interpolation does not wrap while the position is below `2^62`. -/
theorem viewPosition_eq {v : CqViewIn} {s : CqNow} {elapsed : Nat} (hposition : InLongLong s.positionMs)
    (hsmall : s.positionMs < 2 ^ 62) (helapsed : (v.nowTicks - v.snapTicks).toNat = elapsed) :
    viewPosition v s = barPosition s elapsed := by
  have hlt := (v.nowTicks - v.snapTicks).isLt
  have hsum : InLongLong (s.positionMs + (elapsed : Int) * 1000 / 60) := by
    obtain ⟨hlow, -⟩ := hposition
    rw [helapsed] at hlt
    constructor <;> omega
  rw [viewPosition, helapsed, bmod_of_inLongLong hsum]
  rfl

/-! ## The anchor -/

/-- The snapshot of an adoption is on show, anchored at its time, and the last render has drawn it. -/
structure Anchored (n : CqNow) (adopted : Nat) (w : Watched) : Prop where
  shown : w.globals.shown.gHaveSnap = true
  same : SameBar n w.globals.shown.gSnap
  anchor : w.globals.shown.gSnapTick = BitVec.ofNat 32 adopted
  drawn : ∃ time, adopted ≤ time ∧ time ≤ w.clock ∧ w.position = barPosition n (time - adopted)

/-- A render draws the bar of what is shown. -/
theorem position_redraw {n : CqNow} {adopted time : Nat} (env : Env) {s : Globals}
    (hposition : InLongLong n.positionMs) (hsmall : n.positionMs < 2 ^ 62)
    (hshown : s.shown.gHaveSnap = true) (hsame : SameBar n s.shown.gSnap)
    (hanchor : s.shown.gSnapTick = BitVec.ofNat 32 adopted) (htick : env.tick = BitVec.ofNat 32 time)
    (hle : adopted ≤ time) (hlt : time < adopted + 2 ^ 32) :
    (redraw env s).gView.positionMs = barPosition n (time - adopted) := by
  obtain ⟨-, hpos, -, -⟩ := id hsame
  have hview : (redraw env s).gView = cqViewRender (buildViewIn env s) := by
    rw [redraw, renderView, dropIntent]
    dsimp only
    split <;> rfl
  have hticks : ((buildViewIn env s).nowTicks - (buildViewIn env s).snapTicks).toNat =
      time - adopted := by
    show (env.tick - s.shown.gSnapTick).toNat = _
    rw [htick, hanchor, ofNat_sub_ofNat hle, BitVec.toNat_ofNat]
    apply Nat.mod_eq_of_lt
    omega
  rw [hview]
  show (if s.shown.gHaveSnap = true then some s.shown.gSnap else none).elim 0
    (viewPosition (buildViewIn env s)) = _
  rw [if_pos hshown]
  show viewPosition (buildViewIn env s) s.shown.gSnap = _
  rw [viewPosition_eq (by rw [hpos]; exact hposition) (by rw [hpos]; exact hsmall) hticks,
    barPosition_congr hsame]

/-- A reply ends in a render of what it leaves shown. -/
theorem adoptReply_eq_redraw (env : Env) (s : Globals) (data : Bytes) (isCmd : Bool) :
    ∃ t, adoptReply env s data isCmd = redraw env t ∧ t.shown = replyShown env s data := by
  refine ⟨_, rfl, ?_⟩
  rw [← shown_adoptReply env s data isCmd, adoptReply]
  exact (((Aside.refl _).redraw env).shown).symm

/-- A reply that is the same document, or is not adopted, leaves the bar and its anchor as they are. -/
theorem Anchored.replyShown {n : CqNow} {adopted : Nat} {w : Watched} (h : Anchored n adopted w)
    (hts : 0 < n.ts) {e : BarEvent} {data : Bytes} {isCmd : Bool} (hact : e.act = .reply data isCmd)
    (hsame : ∀ m, AdoptsAs w e m → m = n) :
    (replyShown (w.now e) w.globals data).gHaveSnap = true ∧
      SameBar n (replyShown (w.now e) w.globals data).gSnap ∧
      (replyShown (w.now e) w.globals data).gSnapTick = BitVec.ofNat 32 adopted := by
  rw [App.replyShown]
  cases hreply : healthyReply data with
  -- an error
  | none => exact ⟨h.shown, h.same, h.anchor⟩
  | some m =>
      dsimp only
      split
      · next haccept =>
        have hdoc : m = n := hsame m ⟨data, isCmd, hact, hreply, haccept⟩
        rw [hdoc]
        refine ⟨rfl, sameBar_heldVolume _ _ _, ?_⟩
        -- an equal `ts` keeps the anchor
        have hequal : (w.globals.shown.gHaveSnap && decide (0 < n.ts) &&
            decide (n.ts = w.globals.shown.gSnap.ts)) = true := by
          simp [h.shown, hts, h.same.2.2.2]
        rw [adoptedShown, if_pos hequal]
        exact h.anchor
      -- the guard has dropped it
      · exact ⟨h.shown, h.same, h.anchor⟩

/-- **Every event** keeps the anchor, and does not move the bar back. -/
theorem Anchored.step {n : CqNow} {adopted : Nat} (hposition : InLongLong n.positionMs)
    (hsmall : n.positionMs < 2 ^ 62) (hts : 0 < n.ts) {w t : Watched} {e : BarEvent}
    (h : Anchored n adopted w) (hok : SameDocument n adopted w e) (ht : w.step e = some t) :
    Anchored n adopted t ∧ w.position ≤ t.position := by
  obtain ⟨hlt, hsame⟩ := hok
  obtain ⟨time, hle, hclock, hdrawn⟩ := h.drawn
  have hnow : adopted ≤ w.clock + e.wait := by omega
  -- a render at this time draws the bar at least where it was
  have hforward : w.position ≤ barPosition n (w.clock + e.wait - adopted) := by
    rw [hdrawn]
    apply barPosition_mono
    omega
  rw [Watched.step, Option.some.injEq] at ht
  cases hact : e.act with
  | reply data isCmd =>
      obtain ⟨s, hredraw, hshown⟩ := adoptReply_eq_redraw (w.now e) w.globals data isCmd
      have hkept := h.replyShown hts hact hsame
      rw [← hshown] at hkept
      have hposition' := position_redraw (w.now e) hposition hsmall hkept.1 hkept.2.1 hkept.2.2
        rfl hnow hlt
      have hsettled : (redraw (w.now e) s).shown = s.shown := ((Aside.refl s).redraw (w.now e)).shown
      rw [hact] at ht
      simp only [hredraw] at ht
      subst ht
      refine ⟨⟨?_, ?_, ?_, w.clock + e.wait, hnow, Nat.le_refl _, hposition'⟩, ?_⟩
      · exact hsettled ▸ hkept.1
      · exact hsettled ▸ hkept.2.1
      · exact hsettled ▸ hkept.2.2
      · exact le_of_le_of_eq hforward hposition'.symm
  | render =>
      have hposition' := position_redraw (w.now e) hposition hsmall h.shown h.same h.anchor
        rfl hnow hlt
      have hsettled : (redraw (w.now e) w.globals).shown = w.globals.shown :=
        ((Aside.refl w.globals).redraw (w.now e)).shown
      rw [hact] at ht
      subst ht
      refine ⟨⟨?_, ?_, ?_, w.clock + e.wait, hnow, Nat.le_refl _, hposition'⟩, ?_⟩
      · exact hsettled ▸ h.shown
      · exact hsettled ▸ h.same
      · exact hsettled ▸ h.anchor
      · exact le_of_le_of_eq hforward hposition'.symm
  | other rest =>
      rw [hact] at ht
      subst ht
      exact ⟨⟨h.shown, h.same, h.anchor, time, hle, hclock.trans (Nat.le_add_right _ _), hdrawn⟩,
        le_refl _⟩

/-- So does every run. -/
theorem Anchored.run {n : CqNow} {adopted : Nat} (hposition : InLongLong n.positionMs)
    (hsmall : n.positionMs < 2 ^ 62) (hts : 0 < n.ts) {events : List BarEvent} :
    ∀ {w t : Watched}, Anchored n adopted w → Meets Watched.step (SameDocument n adopted) w events →
      Lib.run Watched.step w events = some t → Anchored n adopted t ∧ w.position ≤ t.position := by
  induction events with
  | nil =>
      intro w t h _ ht
      cases ht
      exact ⟨h, le_refl _⟩
  | cons e events ih =>
      intro w t h hok ht
      obtain ⟨u, hu, hrun⟩ := Option.bind_eq_some_iff.1 ht
      obtain ⟨hanchored, hfirst⟩ := h.step hposition hsmall hts hok.1 hu
      obtain ⟨hlast, hrest⟩ := ih hanchored (hok.2 u hu) hrun
      exact ⟨hlast, hfirst.trans hrest⟩

/-- An adoption of another document anchors the bar at its own time. -/
theorem anchored_of_adoption {w t : Watched} {e : BarEvent} {n : CqNow}
    (hposition : InLongLong n.positionMs) (hsmall : n.positionMs < 2 ^ 62) (hadopts : AdoptsAs w e n)
    (hfresh : FreshTs w n) (ht : w.step e = some t) : Anchored n t.clock t := by
  obtain ⟨data, isCmd, hact, hreply, haccept⟩ := hadopts
  obtain ⟨s, hredraw, hshown⟩ := adoptReply_eq_redraw (w.now e) w.globals data isCmd
  have hadopted : s.shown = adoptedShown (w.now e) w.globals n := by
    rw [hshown, App.replyShown, hreply]
    exact if_pos haccept
  have hhave : s.shown.gHaveSnap = true := by
    rw [hadopted]
    rfl
  have hsame : SameBar n s.shown.gSnap := by
    rw [hadopted]
    exact sameBar_heldVolume _ _ _
  have hanchor : s.shown.gSnapTick = BitVec.ofNat 32 (w.clock + e.wait) := by
    rw [hadopted, adoptedShown, if_neg]
    · rfl
    · rintro hequal
      simp only [Bool.and_eq_true, decide_eq_true_eq] at hequal
      exact hfresh ⟨hequal.1.1, hequal.2⟩
  have hdrawn := position_redraw (w.now e) hposition hsmall hhave hsame hanchor rfl
    (Nat.le_refl _) (by omega)
  have hsettled : (redraw (w.now e) s).shown = s.shown := ((Aside.refl s).redraw (w.now e)).shown
  rw [Watched.step, Option.some.injEq] at ht
  rw [hact] at ht
  simp only [hredraw] at ht
  subst ht
  refine ⟨?_, ?_, ?_, w.clock + e.wait, Nat.le_refl _, Nat.le_refl _, hdrawn⟩
  · exact hsettled ▸ hhave
  · exact hsettled ▸ hsame
  · exact hsettled ▸ hanchor

/-- Every number of a snapshot that was received is a `long long`. -/
theorem inLongLong_positionMs {data : Bytes} {n : CqNow} (h : healthyReply data = some n) :
    InLongLong n.positionMs := by
  rw [healthyReply] at h
  split at h
  · cases h
  · cases h
    exact inLongLong_cqParseLl _

/-! ## The law -/

/-- **The bar never goes back within one document.** After the adoption of a snapshot with a positive `ts`,
while what is adopted is that document again, and whatever errors, dropped replies and renders come
between: the position that is drawn never decreases, stays in the track if its length is known, and does
not move unless the track is playing. -/
theorem bar_never_rewinds {w w₀ w₁ w₂ : Watched} {first : BarEvent} {n : CqNow}
    (hadopts : AdoptsAs w first n) (hts : 0 < n.ts) (hfresh : FreshTs w n)
    (hsmall : n.positionMs < 2 ^ 62) (hw₀ : w.step first = some w₀) {before after : List BarEvent}
    (hok : Meets Watched.step (SameDocument n w₀.clock) w₀ (before ++ after))
    (hw₁ : run Watched.step w₀ before = some w₁) (hw₂ : run Watched.step w₁ after = some w₂) :
    w₁.position ≤ w₂.position ∧ 0 ≤ w₂.position ∧
      (0 < n.durationMs → w₂.position ≤ n.durationMs) ∧
        (n.state ≠ .playing → w₁.position = w₂.position) := by
  have hposition : InLongLong n.positionMs := by
    obtain ⟨data, isCmd, -, hreply, -⟩ := hadopts
    exact inLongLong_positionMs hreply
  obtain ⟨hbefore, hafter⟩ := (meets_append hw₁).1 hok
  have h₀ := anchored_of_adoption hposition hsmall hadopts hfresh hw₀
  obtain ⟨h₁, -⟩ := h₀.run hposition hsmall hts hbefore hw₁
  obtain ⟨h₂, hforward⟩ := h₁.run hposition hsmall hts hafter hw₂
  obtain ⟨time₁, -, -, hdrawn₁⟩ := h₁.drawn
  obtain ⟨time₂, -, -, hdrawn₂⟩ := h₂.drawn
  refine ⟨hforward, ?_, ?_, ?_⟩
  · rw [hdrawn₂]
    exact (clampTo_bounds _ _).1
  · rw [hdrawn₂]
    exact (clampTo_bounds _ _).2
  · intro hstopped
    rw [hdrawn₁, hdrawn₂]
    exact barPosition_stopped hstopped _ _

/-- A track of five seconds, one second in. -/
def oneSecondIn : Bytes := ascii "state\tplaying\nposition_ms\t1000\nduration_ms\t5000\nts\t7\n"

/-- A reply with it, so many ticks later. -/
def heardAgain (wait : Nat) : BarEvent := ⟨wait, worldAt 0 .running, .reply oneSecondIn false⟩

/-- After the launch. -/
def firstLook : Watched := ⟨launch (.lit "192.0.2.10") 70 false false, 0⟩

theorem healthyReply_oneSecondIn : healthyReply oneSecondIn = some (cqNowFromResponse oneSecondIn) := by
  decide +kernel

theorem adoptsAs_heardAgain {w : Watched} {wait : Nat} {m : CqNow} (h : AdoptsAs w (heardAgain wait) m) :
    m = cqNowFromResponse oneSecondIn := by
  obtain ⟨data, isCmd, hact, hreply, -⟩ := h
  cases hact
  exact Option.some.inj (hreply.symm.trans healthyReply_oneSecondIn)

theorem bar_never_rewinds_sample :
    ((run Watched.step firstLook [heardAgain 60, heardAgain 60]).get rfl).position ≤
      ((run Watched.step firstLook [heardAgain 60, heardAgain 60, heardAgain 30]).get rfl).position := by
  refine (@bar_never_rewinds firstLook _ _ _ (heardAgain 60) (cqNowFromResponse oneSecondIn)
    ?_ ?_ ?_ ?_ rfl [heardAgain 60] [heardAgain 30] ?_ rfl rfl).1
  · exact ⟨oneSecondIn, false, rfl, healthyReply_oneSecondIn, by decide +kernel⟩
  · decide +kernel
  · rintro ⟨hhave, -⟩
    cases hhave
  · decide +kernel
  · exact ⟨⟨by decide +kernel, fun m hm => adoptsAs_heardAgain hm⟩, fun t ht =>
      ⟨⟨by cases ht; decide +kernel, fun m hm => adoptsAs_heardAgain hm⟩, fun _ _ => trivial⟩⟩

end Casquinha.App
