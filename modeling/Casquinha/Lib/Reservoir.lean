import Mathlib.Data.List.Basic

/-!
# Buffers with a high-water mark

A reservoir holds what a source has delivered and its consumer has not drained yet. It is filled with chunks,
each read while it holds less than the high-water mark, into a capacity that grows with it. Its history is
the chunks read and what was drained.

Drained and held together are what was read. The reservoir never holds as much as the mark and a chunk
together, nor more than its capacity (`Inv`). This holds through any series of fills and draws (`Step.inv`),
and the guard of every read can be told from the history (`Step.reads`).
-/

set_option autoImplicit false

namespace Lib

universe u

/-- A buffer between a source and a consumer, with its history. -/
structure Reservoir (α : Type u) where
  held : List α
  cap : Nat
  drained : List α
  reads : List (List α)

variable {α : Type u} {hiwat chunk : Nat}

/-- Reads from `n` held cells on: each is made below the mark, and adds what it delivers. -/
def ReadsBelow (hiwat : Nat) : Nat → List (List α) → Prop
  | _, [] => True
  | n, xs :: more => n < hiwat ∧ ReadsBelow hiwat (n + xs.length) more

namespace Reservoir

/-- Nothing held, no capacity. -/
def empty : Reservoir α := ⟨[], 0, [], []⟩

/-- A chunk is read and put behind what is held. -/
def fill (r : Reservoir α) (xs : List α) (cap : Nat) : Reservoir α :=
  { held := r.held ++ xs
    cap := cap
    drained := r.drained
    reads := r.reads ++ [xs] }

/-- Up to `n` cells are drained. -/
def draw (r : Reservoir α) (n : Nat) : Reservoir α :=
  { r with
    held := r.held.drop n
    drained := r.drained ++ r.held.take n }

/-- Bounded by the mark and a chunk, within the capacity, and nothing lost. -/
structure Inv (hiwat chunk : Nat) (r : Reservoir α) : Prop where
  bounded : r.held.length < hiwat + chunk
  fits : r.held.length ≤ r.cap
  kept : r.drained ++ r.held = r.reads.flatten

/-- A series of reads. Each is made below the mark and delivers a chunk, for which there is room then, or
nothing. -/
inductive Fills (hiwat chunk : Nat) : Reservoir α → List (List α) → Reservoir α → Prop
  | stop (r : Reservoir α) : Fills hiwat chunk r [] r
  | read {r r' : Reservoir α} {xs : List α} {cap : Nat} {more : List (List α)}
      (below : r.held.length < hiwat) (small : xs.length ≤ chunk)
      (room : r.held.length + xs.length ≤ cap) (rest : Fills hiwat chunk (r.fill xs cap) more r') :
      Fills hiwat chunk r (xs :: more) r'
  | nothing {r r' : Reservoir α} {more : List (List α)} (below : r.held.length < hiwat)
      (rest : Fills hiwat chunk (r.fill [] r.cap) more r') : Fills hiwat chunk r ([] :: more) r'

/-- A series of reads, or a draw. -/
inductive Step (hiwat chunk : Nat) : Reservoir α → Reservoir α → Prop
  | fills {r r' : Reservoir α} {more : List (List α)} (h : Fills hiwat chunk r more r') :
      Step hiwat chunk r r'
  | draw (r : Reservoir α) (n : Nat) : Step hiwat chunk r (r.draw n)

/-! ## The invariant -/

theorem Inv.empty (h : 0 < hiwat + chunk) : Inv hiwat chunk (empty : Reservoir α) := ⟨h, Nat.le_refl 0, rfl⟩

theorem Inv.fill {r : Reservoir α} (h : Inv hiwat chunk r) {xs : List α} {cap : Nat}
    (below : r.held.length < hiwat) (small : xs.length ≤ chunk)
    (room : r.held.length + xs.length ≤ cap) : Inv hiwat chunk (r.fill xs cap) := by
  constructor
  · rw [Reservoir.fill, List.length_append]
    omega
  · rw [Reservoir.fill, List.length_append]
    exact room
  · rw [Reservoir.fill, ← List.append_assoc, h.kept, List.flatten_append, List.flatten_singleton]

theorem Inv.draw {r : Reservoir α} (h : Inv hiwat chunk r) (n : Nat) : Inv hiwat chunk (r.draw n) := by
  have hle : (r.held.drop n).length ≤ r.held.length := by
    rw [List.length_drop]
    exact Nat.sub_le _ _
  constructor
  · exact Nat.lt_of_le_of_lt hle h.bounded
  · exact Nat.le_trans hle h.fits
  · rw [Reservoir.draw, List.append_assoc, List.take_append_drop]
    exact h.kept

theorem Fills.inv {r r' : Reservoir α} {more : List (List α)} (h : Fills hiwat chunk r more r')
    (hinv : Inv hiwat chunk r) : Inv hiwat chunk r' := by
  induction h with
  | stop r => exact hinv
  | read below small room _ ih => exact ih (hinv.fill below small room)
  | nothing below _ ih => exact ih (hinv.fill below (Nat.zero_le chunk) hinv.fits)

/-- **Every step keeps the invariant.** -/
theorem Step.inv {r r' : Reservoir α} (h : Step hiwat chunk r r') (hinv : Inv hiwat chunk r) :
    Inv hiwat chunk r' := by
  cases h with
  | fills h => exact h.inv hinv
  | draw n => exact hinv.draw n

/-! ## The guard -/

/-- The reads of a series come next in the history, each made below the mark. -/
theorem Fills.reads {r r' : Reservoir α} {more : List (List α)} (h : Fills hiwat chunk r more r') :
    r'.reads = r.reads ++ more ∧ ReadsBelow hiwat r.held.length more := by
  have hlast : ∀ {r r' : Reservoir α} {xs : List α} {cap : Nat} {more : List (List α)},
      r'.reads = (r.fill xs cap).reads ++ more → ReadsBelow hiwat (r.fill xs cap).held.length more →
      r.held.length < hiwat →
      r'.reads = r.reads ++ xs :: more ∧ ReadsBelow hiwat r.held.length (xs :: more) := by
    intro r r' xs cap more hreads hbelow below
    rw [Reservoir.fill, List.length_append] at hbelow
    rw [hreads, Reservoir.fill, List.append_assoc]
    exact ⟨rfl, below, hbelow⟩
  induction h with
  | stop r => exact ⟨(List.append_nil _).symm, trivial⟩
  | read below small room _ ih => exact hlast ih.1 ih.2 below
  | nothing below _ ih => exact hlast ih.1 ih.2 below

/-- **What a step reads** it reads below the mark. -/
theorem Step.reads {r r' : Reservoir α} (h : Step hiwat chunk r r') :
    ∃ more, r'.reads = r.reads ++ more ∧ ReadsBelow hiwat r.held.length more := by
  cases h with
  | fills h => exact ⟨_, h.reads⟩
  | draw n => exact ⟨[], (List.append_nil _).symm, trivial⟩

end Reservoir

end Lib
