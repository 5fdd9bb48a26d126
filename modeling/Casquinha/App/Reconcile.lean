import Casquinha.Lib.CString

/-!
# The reconciler (`src/cq_guard.c`, `src/cq_backoff.c`, `src/cq_debounce.c`, `src/cq_cache.c`)

The monotonic ts-guard, the exponential poll backoff, the one-slot coalescer and the cover cache. The guard lets a
snapshot with a positive `ts` through when its `ts` is at or above the mark, and moves the mark to it;
a snapshot without a `ts` always passes and leaves the mark where it is.
-/

set_option autoImplicit false

namespace Casquinha.App

open Lib

/-! ## The guard -/

/-- `cq_guard`; a mark of `0` is none. -/
structure CqGuard where
  lastTs : Int
deriving DecidableEq

/-- `cq_guard_init`. -/
def cqGuardInit : CqGuard := ⟨0⟩

/-- `cq_guard_reset`. -/
def cqGuardReset (_ : CqGuard) : CqGuard := ⟨0⟩

/-- `cq_guard_accept_ts`: whether to adopt, and the guard afterwards. -/
def cqGuardAcceptTs (g : CqGuard) (ts : Int) : Bool × CqGuard :=
  if ts ≤ 0 then (true, g)
  else if 0 < g.lastTs ∧ ts < g.lastTs then (false, g)
  else (true, ⟨ts⟩)

/-- The guard passes everything but a positive `ts` below the mark. -/
theorem cqGuardAcceptTs_fst {g : CqGuard} (hg : 0 ≤ g.lastTs) (ts : Int) :
    (cqGuardAcceptTs g ts).1 = true ↔ ts ≤ 0 ∨ g.lastTs ≤ ts := by
  rw [cqGuardAcceptTs]
  split
  · next h => simp [h]
  · split
    · next h1 h2 => simp only [Bool.false_eq_true, false_iff]; omega
    · next h1 h2 => simp only [true_iff]; omega

/-- The mark moves to the largest positive `ts` seen. -/
theorem cqGuardAcceptTs_snd {g : CqGuard} (hg : 0 ≤ g.lastTs) (ts : Int) :
    (cqGuardAcceptTs g ts).2 = ⟨max g.lastTs ts⟩ := by
  obtain ⟨mark⟩ := g
  have hmark : 0 ≤ mark := hg
  simp only [cqGuardAcceptTs]
  split
  · rw [Int.max_eq_left (by omega)]
  · split
    · rw [Int.max_eq_left (by omega)]
    · rw [Int.max_eq_right (by omega)]

/-! ## The backoff -/

/-- `cq_backoff`. -/
structure CqBackoff where
  base : Int
  cap : Int
  current : Int
deriving DecidableEq

/-- `cq_backoff_init`. -/
def cqBackoffInit (base cap : Int) : CqBackoff :=
  let base := if base < 1 then 1 else base
  let cap := if cap < base then base else cap
  { base := base
    cap := cap
    current := base }

/-- `cq_backoff_interval`. -/
def cqBackoffInterval (b : CqBackoff) : Int := b.current

/-- `cq_backoff_interval_seeded`; the mix wraps in an `unsigned long`. -/
def cqBackoffIntervalSeeded (b : CqBackoff) (seed : BitVec 32) : Int :=
  let span := b.current.tdiv 4
  if span ≤ 0 then b.current
  else
    let mix : BitVec 32 := seed * 2654435761 + 40503
    b.current + (mix.toNat % (span + 1).toNat : Nat)

/-- `cq_backoff_ok`. -/
def cqBackoffOk (b : CqBackoff) : CqBackoff := { b with current := b.base }

/-- `cq_backoff_fail`. -/
def cqBackoffFail (b : CqBackoff) : CqBackoff :=
  let next := b.current * 2
  let next := if b.cap < next then b.cap else next
  let next := if next < b.current then b.cap else next
  { b with current := next }

/-! ## The debouncer -/

/-- `cq_debounce`. -/
structure CqDebounce where
  pending : Option CStr
deriving DecidableEq

/-- `cq_debounce_init`. -/
def cqDebounceInit : CqDebounce := ⟨none⟩

/-- `cq_debounce_set`: the last value wins. -/
def cqDebounceSet (_ : CqDebounce) (value : Option CStr) : CqDebounce := ⟨value⟩

/-- `cq_debounce_has`. -/
def cqDebounceHas (d : CqDebounce) : Bool := d.pending.isSome

/-- `cq_debounce_take`: the value, and the emptied slot. -/
def cqDebounceTake (d : CqDebounce) : Option CStr × CqDebounce := (d.pending, ⟨none⟩)

/-! ## The cover cache -/

section Cache

variable {α : Type}

/-- `CQ_CACHE_SLOTS`. -/
def cqCacheSlots : Nat := 8

/-- `CQ_CACHE_KEYMAX`. -/
def cqCacheKeymax : Nat := 64

/-- `cq_cache`: keys and values, the oldest first. -/
structure CqCache (α : Type) where
  slots : List (CStr × α)

/-- `cq_cache_init`. -/
def cqCacheInit : CqCache α := ⟨[]⟩

/-- `key_find`: keys compare as they are stored, cut to the key buffer. -/
def keyFind (c : CqCache α) (key : CStr) : Option Nat :=
  c.slots.findIdx? fun slot => slot.1 = key.fit cqCacheKeymax

/-- `cq_cache_has`. -/
def cqCacheHas (c : CqCache α) (key : CStr) : Bool := (keyFind c key).isSome

/-- `cq_cache_get`. -/
def cqCacheGet (c : CqCache α) (key : CStr) : Option α :=
  (keyFind c key).bind fun i => (c.slots[i]?).map Prod.snd

/-- `cq_cache_put`: a known key keeps its age; a full cache drops its oldest slot. -/
def cqCachePut (c : CqCache α) (key : CStr) (val : α) : CqCache α :=
  match keyFind c key with
  | some i => ⟨c.slots.modify i fun slot => (slot.1, val)⟩
  | none =>
      let kept := if c.slots.length = cqCacheSlots then c.slots.drop 1 else c.slots
      ⟨kept ++ [(key.fit cqCacheKeymax, val)]⟩

end Cache

end Casquinha.App
