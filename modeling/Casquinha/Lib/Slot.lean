import Mathlib.Data.List.Basic

/-!
# A slot for one value

A slot holds the value that was put into it last. What it holds may be taken once it has been there for
some time, and leaves the slot empty. `SlotRun` gives the history of such a slot, the newest mark first.
In every history a value is taken right after it has been put and no sooner than the delay
(`SlotRun.take_follows_put`), so that a put is taken at most once (`SlotRun.taken_once`), there is a put
between two takes (`SlotRun.put_between`), and a put that is not taken is in the slot or was replaced by
the next one (`SlotRun.put_fate`).
-/

set_option autoImplicit false

namespace Lib

universe u

variable {α : Type u}

/-- A value is put into the slot, or taken from it, at some time. -/
inductive SlotMark (α : Type u) where
  | put (a : α) (time : Nat)
  | take (a : α) (time : Nat)

/-- The mark is a put. -/
def SlotMark.isPut : SlotMark α → Bool
  | .put _ _ => true
  | .take _ _ => false

/-- The history of a slot, the newest mark first, and what the slot holds after it. -/
inductive SlotRun (delay : Nat) : List (SlotMark α) → Option α → Prop where
  | empty : SlotRun delay [] none
  | put {history : List (SlotMark α)} {slot : Option α} (h : SlotRun delay history slot) (a : α)
      (time : Nat) : SlotRun delay (.put a time :: history) (some a)
  | take {history : List (SlotMark α)} {a : α} {time now : Nat}
      (h : SlotRun delay (.put a time :: history) (some a)) (hnow : time + delay ≤ now) :
      SlotRun delay (.take a now :: .put a time :: history) none

namespace SlotRun

variable {delay : Nat} {history : List (SlotMark α)} {slot : Option α}

/-- What was there before the newest marks is a history too. -/
theorem of_append {after before : List (SlotMark α)} (h : SlotRun delay (after ++ before) slot) :
    ∃ slot', SlotRun delay before slot' := by
  induction after generalizing slot with
  | nil => exact ⟨slot, h⟩
  | cons m after ih =>
      rw [List.cons_append] at h
      generalize htail : after ++ before = tail at h
      cases h with
      | put h a time =>
          rw [← htail] at h
          exact ih h
      | take h hnow =>
          rw [← htail] at h
          exact ih h

/-- A slot that holds a value holds the one put last. -/
theorem newest_of_some {a : α} (h : SlotRun delay history (some a)) :
    ∃ time earlier, history = .put a time :: earlier := by
  cases h with
  | put h a time => exact ⟨time, _, rfl⟩

/-- **What is taken was put last**, and has waited. -/
theorem take_follows_put {after before : List (SlotMark α)} {a : α} {now : Nat}
    (h : SlotRun delay history slot) (hsplit : history = after ++ .take a now :: before) :
    ∃ time earlier, before = .put a time :: earlier ∧ time + delay ≤ now := by
  rw [hsplit] at h
  obtain ⟨slot', h⟩ := h.of_append
  cases h with
  | take h hnow => exact ⟨_, _, rfl, hnow⟩

/-- **Between two takes there is a put.** -/
theorem put_between {after mid before : List (SlotMark α)} {a b : α} {now later : Nat}
    (h : SlotRun delay history slot)
    (hsplit : history = after ++ .take b later :: (mid ++ .take a now :: before)) :
    ∃ m ∈ mid, m.isPut = true := by
  obtain ⟨time, earlier, hput, -⟩ := h.take_follows_put hsplit
  cases mid with
  | nil => cases hput
  | cons m mid =>
      rw [List.cons_append, List.cons.injEq] at hput
      exact ⟨m, List.mem_cons_self, by rw [hput.1]; rfl⟩

/-- **A put is taken at most once.** -/
theorem taken_once {after mid before : List (SlotMark α)} {a : α} {time : Nat}
    (h : SlotRun delay history slot)
    (hsplit : history = after ++ (mid ++ .put a time :: before))
    (htakes : ∀ m ∈ mid, m.isPut = false) : mid.length ≤ 1 := by
  cases mid with
  | nil => exact Nat.zero_le _
  | cons m mid =>
      cases m with
      | put b later => cases htakes _ List.mem_cons_self
      | take b later =>
          -- what comes before a take is a put, which is the one at the end
          rw [List.cons_append] at hsplit
          obtain ⟨_, _, hput, -⟩ := h.take_follows_put hsplit
          cases mid with
          | nil => exact Nat.le_refl _
          | cons m' mid =>
              rw [List.cons_append, List.cons.injEq] at hput
              have htake := htakes m' (List.mem_cons_of_mem _ List.mem_cons_self)
              rw [hput.1] at htake
              cases htake

/-- **What becomes of a put**: it is in the slot, it was replaced by the next put, or it was taken. -/
theorem put_fate {after before : List (SlotMark α)} {a : α} {time : Nat}
    (h : SlotRun delay history slot) (hsplit : history = after ++ .put a time :: before) :
    (after = [] ∧ slot = some a) ∨ (∃ later b t, after = later ++ [.put b t]) ∨
      ∃ later now, after = later ++ [.take a now] ∧ time + delay ≤ now := by
  rcases List.eq_nil_or_concat' after with rfl | ⟨later, m, rfl⟩
  · rw [hsplit, List.nil_append] at h
    cases h with
    | put h a time => exact .inl ⟨rfl, rfl⟩
  · cases m with
    | put b t => exact .inr (.inl ⟨later, b, t, rfl⟩)
    | take b now =>
        rw [List.append_assoc] at hsplit
        obtain ⟨time', earlier, hput, hnow⟩ := h.take_follows_put hsplit
        cases hput
        exact .inr (.inr ⟨later, now, rfl, hnow⟩)

end SlotRun

end Lib
