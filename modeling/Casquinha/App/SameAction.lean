import Casquinha.App.Loop
import Casquinha.Lib.Ring

/-!
# The same-action guard

`ActionRepeat` is to swallow a repeat of the last action within the guard window, and nothing else. It keeps the
last selector in a buffer of 240 bytes and compares whole selectors with that copy. A selector of up to
239 bytes is kept as it is. A longer one, such as a `play/from` of a dozen ids, is cut: its repeat is not
recognised, and a selector that is just the kept part is taken for a repeat. The window is the signed
difference of two 32-bit ticks, which is below 40 again once the sign bit is set.

A run is a list of calls, each some ticks after the one before. Every call of a run is answered rightly
exactly if every call meets `GuardTells` (`swallows_repeats_iff`).
-/

set_option autoImplicit false

namespace Casquinha.App

open Lib Wire

/-- A call of `ActionRepeat`, so many ticks after the one before. -/
structure ActionCall where
  sel : CStr
  nonempty : sel.bytes ≠ []
  wait : Nat
  env : Env

/-- The globals and the time. `last` is history: the last selector that was not swallowed, and when. -/
structure Guarded where
  globals : Globals
  clock : Nat
  last : Option (CStr × Nat)

namespace Guarded

/-- The world at the time of a call. -/
def now (g : Guarded) (c : ActionCall) : Env :=
  { c.env with tick := BitVec.ofNat 32 (g.clock + c.wait) }

/-- The answer of `ActionRepeat`. -/
def swallows (g : Guarded) (c : ActionCall) : Bool := (actionRepeat (g.now c) g.globals c.sel).1

/-- One call. -/
def step (g : Guarded) (c : ActionCall) : Option Guarded :=
  some
    { globals := (actionRepeat (g.now c) g.globals c.sel).2
      clock := g.clock + c.wait
      last := if g.swallows c then g.last else some (c.sel, g.clock + c.wait) }

/-- The launch, at some time. -/
def launched (host : CStr) (port : Nat) (autoStart qtOk : Bool) (clock : Nat) : Guarded :=
  { globals := launch host port autoStart qtOk
    clock := clock
    last := none }

end Guarded

/-! ## What is asked of a call -/

/-- A call is swallowed exactly when it repeats the last one that was not, within the window. -/
def SwallowsRepeats (g : Guarded) (c : ActionCall) : Prop :=
  g.swallows c = true ↔
    ∃ sel time, g.last = some (sel, time) ∧ c.sel = sel ∧ g.clock + c.wait < time + 40

/-- A difference of ticks is in the window as the guard computes it. -/
def LooksShort (elapsed : Nat) : Prop := elapsed % 2 ^ 32 < 40 ∨ 2 ^ 31 ≤ elapsed % 2 ^ 32

instance (elapsed : Nat) : Decidable (LooksShort elapsed) := inferInstanceAs (Decidable (_ ∨ _))

/-- What the guard can tell. A selector that is kept whole does not come again when the ticks look short although
the window is over. One that is cut does not come again within the window, and what is kept of it does
not come while the ticks look short. -/
def GuardTells (g : Guarded) (c : ActionCall) : Prop :=
  ∀ sel time, g.last = some (sel, time) →
    let elapsed := g.clock + c.wait - time
    if sel.length < 240 then c.sel = sel → LooksShort elapsed → elapsed < 40
    else (c.sel = sel → 40 ≤ elapsed) ∧ (c.sel = sel.fit 240 → ¬ LooksShort elapsed)

/-! ## The invariant -/

/-- The buffer holds what fits of the last selector, and the tick is that of its call. -/
structure Guarded.Inv (g : Guarded) : Prop where
  fresh : g.last = none → g.globals.gLastAction = .empty
  kept : ∀ sel time, g.last = some (sel, time) →
    sel.bytes ≠ [] ∧ g.globals.gLastAction = sel.fit 240 ∧
      g.globals.gLastActionTick = BitVec.ofNat 32 time ∧ time ≤ g.clock

theorem Guarded.inv_launched (host : CStr) (port : Nat) (autoStart qtOk : Bool) (clock : Nat) :
    (launched host port autoStart qtOk clock).Inv where
  fresh := fun _ => rfl
  kept := by
    intro sel time h
    cases h

theorem Guarded.Inv.step {g t : Guarded} {c : ActionCall} (h : g.Inv) (ht : g.step c = some t) :
    t.Inv := by
  cases ht
  cases hrepeat : isRepeat (g.now c) g.globals c.sel with
  | true =>
      -- a swallowed call leaves everything as it is
      have hanswer : actionRepeat (g.now c) g.globals c.sel = (true, g.globals) := by
        rw [actionRepeat, if_pos hrepeat]
      simp only [swallows, hanswer, if_true]
      refine ⟨h.fresh, ?_⟩
      intro sel time hlast
      obtain ⟨hne, haction, htick, hle⟩ := h.kept sel time hlast
      exact ⟨hne, haction, htick, hle.trans (Nat.le_add_right _ _)⟩
  | false =>
      -- another is kept, as far as it fits
      have hanswer : actionRepeat (g.now c) g.globals c.sel =
          (false, { g.globals with
            gLastAction := c.sel.fit 240
            gLastActionTick := (g.now c).tick }) := by
        rw [actionRepeat, if_neg (by rw [hrepeat]; exact Bool.false_ne_true)]
      simp only [swallows, hanswer, Bool.false_eq_true, if_false]
      constructor
      · intro hnone
        cases hnone
      · intro sel time hlast
        cases hlast
        exact ⟨c.nonempty, rfl, rfl, Nat.le_refl _⟩

/-! ## One call -/

theorem swallows_eq (g : Guarded) (c : ActionCall) :
    g.swallows c = isRepeat (g.now c) g.globals c.sel := by
  rw [Guarded.swallows, actionRepeat]
  split
  · next h => exact h.symm
  · next h => exact (Bool.eq_false_iff.2 h).symm

/-- What fits of a selector that is not empty is not empty. -/
theorem fit_ne_nil {sel : CStr} (h : sel.bytes ≠ []) : (sel.fit 240).bytes ≠ [] := by
  show sel.bytes.take 239 ≠ []
  cases hbytes : sel.bytes with
  | nil => exact absurd hbytes h
  | cons b bs => exact List.cons_ne_nil _ _

/-- A selector is kept whole exactly if it fits. -/
theorem fit_eq_self_iff {sel : CStr} : sel.fit 240 = sel ↔ sel.length < 240 := by
  constructor
  · intro heq
    have hlen := congrArg CStr.length heq
    have htake : (sel.fit 240).length = min 239 sel.length := List.length_take
    rw [htake] at hlen
    omega
  · exact CStr.fit_eq_self

/-- The guard's test: the kept text, and ticks that look short. -/
theorem swallows_iff {g : Guarded} {c : ActionCall} (h : g.Inv) {sel : CStr} {time : Nat}
    (hlast : g.last = some (sel, time)) :
    g.swallows c = true ↔ c.sel = sel.fit 240 ∧ LooksShort (g.clock + c.wait - time) := by
  obtain ⟨hne, haction, htick, hle⟩ := h.kept sel time hlast
  have hticks : (g.now c).tick - g.globals.gLastActionTick =
      BitVec.ofNat 32 (g.clock + c.wait - time) := by
    rw [htick]
    exact ofNat_sub_ofNat (hle.trans (Nat.le_add_right _ _))
  have hwindow := @toInt_ofNat_lt_iff (g.clock + c.wait - time) cqActionGuardTicks (by decide)
    (by decide)
  rw [swallows_eq, isRepeat, haction, hticks, Bool.and_eq_true, Bool.and_eq_true, decide_eq_true_eq,
    decide_eq_true_eq, decide_eq_true_eq, hwindow, LooksShort, and_iff_right (fit_ne_nil hne),
    cqActionGuardTicks]
  norm_cast

/-- What is asked of a call, with the last selector that was not swallowed. -/
theorem swallowsRepeats_of_last {g : Guarded} {c : ActionCall} (h : g.Inv) {sel : CStr} {time : Nat}
    (hlast : g.last = some (sel, time)) : SwallowsRepeats g c ↔
      (c.sel = sel.fit 240 ∧ LooksShort (g.clock + c.wait - time) ↔
        c.sel = sel ∧ g.clock + c.wait - time < 40) := by
  obtain ⟨-, -, -, hle⟩ := h.kept sel time hlast
  have hspec : (∃ sel' time', some (sel, time) = some (sel', time') ∧ c.sel = sel' ∧
      g.clock + c.wait < time' + 40) ↔ c.sel = sel ∧ g.clock + c.wait - time < 40 := by
    constructor
    · rintro ⟨sel', time', ⟨⟩, hsel, hshort⟩
      exact ⟨hsel, by omega⟩
    · rintro ⟨hsel, hshort⟩
      exact ⟨sel, time, rfl, hsel, by omega⟩
  rw [SwallowsRepeats, swallows_iff h hlast, hlast, hspec]

theorem guardTells_of_last {g : Guarded} {c : ActionCall} {sel : CStr} {time : Nat}
    (hlast : g.last = some (sel, time)) : GuardTells g c ↔
      if sel.length < 240 then
        c.sel = sel → LooksShort (g.clock + c.wait - time) → g.clock + c.wait - time < 40
      else (c.sel = sel → 40 ≤ g.clock + c.wait - time) ∧
        (c.sel = sel.fit 240 → ¬ LooksShort (g.clock + c.wait - time)) := by
  rw [GuardTells, hlast]
  constructor
  · intro hall
    exact hall sel time rfl
  · rintro hone sel' time' ⟨⟩
    exact hone

theorem looksShort_of_lt {elapsed : Nat} (h : elapsed < 40) : LooksShort elapsed := by
  left
  omega

/-- A selector that is kept whole: only the ticks can deceive. -/
theorem tells_whole {c sel : CStr} {elapsed : Nat} :
    (c = sel ∧ LooksShort elapsed ↔ c = sel ∧ elapsed < 40) ↔
      (c = sel → LooksShort elapsed → elapsed < 40) := by
  constructor
  · intro hiff hsel hshort
    exact (hiff.1 ⟨hsel, hshort⟩).2
  · intro himp
    constructor
    · rintro ⟨hsel, hshort⟩
      exact ⟨hsel, himp hsel hshort⟩
    · rintro ⟨hsel, hlt⟩
      exact ⟨hsel, looksShort_of_lt hlt⟩

/-- A selector that is cut: it and what is kept of it are two texts. -/
theorem tells_cut {c sel part : CStr} {elapsed : Nat} (hne : part ≠ sel) :
    (c = part ∧ LooksShort elapsed ↔ c = sel ∧ elapsed < 40) ↔
      (c = sel → 40 ≤ elapsed) ∧ (c = part → ¬ LooksShort elapsed) := by
  constructor
  · intro hiff
    constructor
    · intro hsel
      by_contra hlt
      obtain ⟨hpart, -⟩ := hiff.2 ⟨hsel, Nat.lt_of_not_le hlt⟩
      exact hne (hpart.symm.trans hsel)
    · intro hpart hshort
      obtain ⟨hsel, -⟩ := hiff.1 ⟨hpart, hshort⟩
      exact hne (hpart.symm.trans hsel)
  · rintro ⟨hrepeat, hkept⟩
    constructor
    · rintro ⟨hpart, hshort⟩
      exact absurd hshort (hkept hpart)
    · rintro ⟨hsel, hlt⟩
      exact absurd (hrepeat hsel) (Nat.not_le.2 hlt)

/-- **One call** is answered rightly exactly if the guard can tell. -/
theorem swallowsRepeats_iff {g : Guarded} (h : g.Inv) (c : ActionCall) :
    SwallowsRepeats g c ↔ GuardTells g c := by
  cases hlast : g.last with
  | none =>
      -- nothing to repeat, and nothing is swallowed
      have hfree : g.swallows c = false := by
        rw [swallows_eq, isRepeat, h.fresh hlast]
        rfl
      rw [SwallowsRepeats, GuardTells, hlast, hfree]
      simp
  | some last =>
      obtain ⟨sel, time⟩ := last
      rw [swallowsRepeats_of_last h hlast, guardTells_of_last hlast]
      split
      · next hfits =>
        rw [CStr.fit_eq_self hfits]
        exact tells_whole
      · next hcut =>
        apply tells_cut
        intro heq
        exact hcut (fit_eq_self_iff.1 heq)

/-- **The guard over a run**: every call is answered rightly exactly if the guard can tell at every call. -/
theorem swallows_repeats_iff (host : CStr) (port : Nat) (autoStart qtOk : Bool) (clock : Nat)
    (calls : List ActionCall) :
    Meets Guarded.step SwallowsRepeats (Guarded.launched host port autoStart qtOk clock) calls ↔
      Meets Guarded.step GuardTells (Guarded.launched host port autoStart qtOk clock) calls := by
  apply meets_congr_of_inv Guarded.Inv
  · intro g c t h ht
    exact h.step ht
  · intro g c h
    exact swallowsRepeats_iff h c
  · exact Guarded.inv_launched host port autoStart qtOk clock

/-! ## A long selector -/

/-- A world in which nothing answers. -/
def mute : Env := ⟨0, fun _ => false, fun _ => .running, fun _ => false⟩

/-- A row with an id of 22 characters. -/
def idRow : CqTrackItem := ⟨.lit "spotify:track:0123456789abcdefghijkl", none, none, none, 0⟩

/-- What `PlayFrom` builds for the first of eleven rows. -/
def elevenSel : CStr := playFromSel (.lit "0123456789abcdefghijkl") (List.replicate 10 idRow)

theorem length_elevenSel : elevenSel.length = 287 := by decide +kernel

theorem elevenSel_ne_nil : elevenSel.bytes ≠ [] := by
  intro hnil
  have hlen := length_elevenSel
  rw [CStr.length, hnil] at hlen
  cases hlen

/-- The row is clicked a second after the launch, and again three ticks later. -/
def doubleClick : List ActionCall :=
  [⟨elevenSel, elevenSel_ne_nil, 60, mute⟩, ⟨elevenSel, elevenSel_ne_nil, 3, mute⟩]

/-- **A double click on a long list plays it twice.** -/
theorem long_selector_repeats :
    ¬ ∀ (host : CStr) (port : Nat) (autoStart qtOk : Bool) (clock : Nat) (calls : List ActionCall),
      Meets Guarded.step SwallowsRepeats (Guarded.launched host port autoStart qtOk clock) calls := by
  intro h
  obtain ⟨-, hrest⟩ := h .empty 70 false false 0 doubleClick
  obtain ⟨hsecond, -⟩ := hrest _ rfl
  have hswallowed := hsecond.2 ⟨elevenSel, 60, by decide +kernel, rfl, by decide⟩
  revert hswallowed
  decide +kernel

end Casquinha.App
