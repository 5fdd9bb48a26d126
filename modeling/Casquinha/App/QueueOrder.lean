import Casquinha.App.Loop

/-!
# Sequencing the visible queue

`QueueNextRow` keeps no cursor: it looks for the current track among the rows and answers with the row behind
the first one that has its id. Playing each answer in turn visits the rows behind a start row in order, and
then comes to an end, exactly if none of the rows from the start on has the id of a row above it
(`queue_in_order_iff`). A second row with the same id leads back to the first one, and from there around for
ever.
-/

set_option autoImplicit false

namespace Casquinha.App

open Lib Wire

/-- The track id of a row. -/
def rowId (s : Globals) (row : Nat) : Option CStr :=
  (s.gQueueItems.items[row]?).bind fun item => afterLastColon item.uri

/-- The row is played: its track becomes the current one. -/
def playingRow (s : Globals) (row : Nat) : Globals :=
  { s with shown := { s.shown with gSnap := { s.shown.gSnap with trackId := rowId s row } } }

/-- The answer of `QueueNextRow` once a row has been played. -/
def rowAfter (s : Globals) (row : Nat) : Option Nat := queueNextRow (playingRow s row)

/-- The first answers, up to `-1`, when each is played in turn. -/
def answers (s : Globals) : Nat → Nat → List (Option Nat)
  | 0, _ => []
  | k + 1, row =>
      match rowAfter s row with
      | some next => some next :: answers s k next
      | none => [none]

/-- The rows behind `row` are visited once each and in order, and then the answer is `-1`. -/
def InOrder (s : Globals) (row : Nat) : Prop :=
  let n := s.gQueueItems.items.length
  answers s (n - row) row = (List.range' (row + 1) (n - 1 - row)).map some ++ [none]

/-- From `row` on, no row has the id of a row above it. -/
def NoRepeatFrom (s : Globals) (row : Nat) : Prop :=
  ∀ i < s.gQueueItems.items.length, row ≤ i → ∀ j < i, rowId s j ≠ rowId s i

instance (s : Globals) (row : Nat) : Decidable (NoRepeatFrom s row) :=
  inferInstanceAs (Decidable (∀ i < s.gQueueItems.items.length, _))

/-! ## One answer -/

/-- The scan answers with the row behind the first match. -/
theorem queueNextScan_eq (trackId : CStr) (count : Nat) (items : List CqTrackItem) (i : Nat) :
    queueNextScan trackId count items i =
      match items.findIdx? fun item => afterLastColon item.uri = some trackId with
      | none => some 0
      | some k => if i + k + 1 < count then some (i + k + 1) else none := by
  induction items generalizing i with
  | nil => rfl
  | cons item rest ih =>
      rw [queueNextScan, List.findIdx?_cons]
      by_cases hid : afterLastColon item.uri = some trackId
      · rw [if_pos hid, if_pos (decide_eq_true hid)]
      · rw [if_neg hid, if_neg (by rw [decide_eq_true_eq]; exact hid), ih]
        cases rest.findIdx? fun item => afterLastColon item.uri = some trackId with
        | none => rfl
        | some k =>
            simp only [Option.map_some]
            rw [show i + 1 + k + 1 = i + (k + 1) + 1 by omega]

/-- The first row with the id of a row that has one: the answer is the row behind it. -/
theorem rowAfter_spec {s : Globals} {row : Nat} {id : CStr} (hid : rowId s row = some id) :
    ∃ k ≤ row, rowId s k = some id ∧ (∀ j < k, rowId s j ≠ some id) ∧
      rowAfter s row =
        if k + 1 < s.gQueueItems.items.length then some (k + 1) else none := by
  obtain ⟨item, hitem, huri⟩ := Option.bind_eq_some_iff.1 hid
  obtain ⟨hrow, hget⟩ := List.getElem?_eq_some_iff.1 hitem
  -- the row itself is a match, so there is a first one, and it is not behind it
  have hsome : (s.gQueueItems.items.findIdx? fun item => afterLastColon item.uri = some id).isSome := by
    rw [List.findIdx?_isSome, List.any_eq_true]
    exact ⟨item, List.mem_of_getElem? hitem, by simpa using huri⟩
  obtain ⟨k, hk⟩ := Option.isSome_iff_exists.1 hsome
  obtain ⟨hlt, hmatch, hfirst⟩ := List.findIdx?_eq_some_iff_getElem.1 hk
  have hrowId : ∀ j (hj : j < s.gQueueItems.items.length),
      rowId s j = afterLastColon (s.gQueueItems.items[j]).uri := by
    intro j hj
    rw [rowId, List.getElem?_eq_getElem hj]
    rfl
  refine ⟨k, ?_, ?_, ?_, ?_⟩
  · by_contra hle
    have hno := hfirst row (Nat.lt_of_not_le hle)
    rw [hget] at hno
    exact hno (by simpa using huri)
  · rw [hrowId k hlt]
    simpa using hmatch
  · intro j hj
    rw [hrowId j (hj.trans hlt)]
    simpa using hfirst j hj
  · have hne : s.gQueueItems.items.length ≠ 0 := by omega
    rw [rowAfter, queueNextRow]
    simp only [playingRow, hid, if_neg hne]
    rw [queueNextScan_eq, hk]
    simp only [Nat.zero_add]

/-- The answer behind a row is the next row, or `-1` at the last, exactly if no row above has its id. -/
theorem rowAfter_iff {s : Globals} {row : Nat} {id : CStr} (hid : rowId s row = some id)
    (hrow : row < s.gQueueItems.items.length) :
    rowAfter s row = (if row + 1 < s.gQueueItems.items.length then some (row + 1) else none) ↔
      ∀ j < row, rowId s j ≠ rowId s row := by
  obtain ⟨k, hle, hk, hfirst, hafter⟩ := rowAfter_spec hid
  rw [hid, hafter]
  constructor
  · intro heq
    have hsame : k = row := by
      -- a match above the row has a row behind it, which is not behind this one
      by_contra hne
      have hlt : k < row := Nat.lt_of_le_of_ne hle hne
      rw [if_pos (by omega)] at heq
      split at heq
      · cases heq
        omega
      · cases heq
    rw [← hsame]
    exact hfirst
  · intro hnone
    have hsame : k = row := by
      by_contra hne
      exact hnone k (Nat.lt_of_le_of_ne hle hne) hk
    rw [hsame]

/-! ## The walk -/

/-- One row of the walk, then the walk from the next one. -/
theorem inOrder_iff_step {s : Globals} {row : Nat} {id : CStr} (hid : rowId s row = some id)
    (hrow : row < s.gQueueItems.items.length) :
    InOrder s row ↔ (∀ j < row, rowId s j ≠ rowId s row) ∧
      (row + 1 < s.gQueueItems.items.length → InOrder s (row + 1)) := by
  rw [← rowAfter_iff hid hrow]
  by_cases hlast : row + 1 < s.gQueueItems.items.length
  · obtain ⟨k, hk⟩ : ∃ k, s.gQueueItems.items.length = row + 1 + (k + 1) :=
      ⟨s.gQueueItems.items.length - (row + 2), by omega⟩
    have hhere : s.gQueueItems.items.length - row = k + 2 := by omega
    have hnext : s.gQueueItems.items.length - (row + 1) = k + 1 := by omega
    have hrange : s.gQueueItems.items.length - 1 - row = k + 1 := by omega
    have hrange' : s.gQueueItems.items.length - 1 - (row + 1) = k := by omega
    simp only [InOrder, hhere, hnext, hrange, hrange', hlast, true_imp_iff, if_true]
    rw [answers, List.range'_succ, List.map_cons, List.cons_append]
    cases hafter : rowAfter s row with
    | none =>
        -- the walk has ended although there is a row to come
        constructor
        · intro h
          cases h
        · rintro ⟨h, -⟩
          cases h
    | some next =>
        simp only [List.cons.injEq, Option.some.injEq]
        constructor
        · rintro ⟨rfl, hrest⟩
          exact ⟨rfl, hrest⟩
        · rintro ⟨rfl, hrest⟩
          exact ⟨rfl, hrest⟩
  · have hhere : s.gQueueItems.items.length - row = 1 := by omega
    have hrange : s.gQueueItems.items.length - 1 - row = 0 := by omega
    simp only [InOrder, hhere, hrange, hlast, false_imp_iff, and_true, if_false]
    rw [answers]
    cases hafter : rowAfter s row with
    | none => simp
    | some next => simp

/-- **The visible queue is played in order** from a row on, to its end, exactly if no row from there on has the
id of a row above it. -/
theorem queue_in_order_iff (s : Globals)
    (hids : ∀ item ∈ s.gQueueItems.items, ∃ id, afterLastColon item.uri = some id) {row : Nat}
    (hrow : row < s.gQueueItems.items.length) : InOrder s row ↔ NoRepeatFrom s row := by
  have hid : ∀ i < s.gQueueItems.items.length, ∃ id, rowId s i = some id := by
    intro i hi
    obtain ⟨id, huri⟩ := hids _ (List.getElem_mem hi)
    refine ⟨id, ?_⟩
    rw [rowId, List.getElem?_eq_getElem hi]
    exact huri
  -- from the last row up
  obtain ⟨m, hm⟩ : ∃ m, row + m + 1 = s.gQueueItems.items.length :=
    ⟨s.gQueueItems.items.length - 1 - row, by omega⟩
  induction m generalizing row with
  | zero =>
      obtain ⟨id, hrowId⟩ := hid row hrow
      rw [inOrder_iff_step hrowId hrow]
      constructor
      · rintro ⟨hhere, -⟩ i hlt hle
        have hlast : i = row := by omega
        rw [hlast]
        exact hhere
      · intro h
        refine ⟨h row hrow (Nat.le_refl row), ?_⟩
        intro hlast
        omega
  | succ m ih =>
      obtain ⟨id, hrowId⟩ := hid row hrow
      have hnext : row + 1 < s.gQueueItems.items.length := by omega
      have hrest : InOrder s (row + 1) ↔ NoRepeatFrom s (row + 1) := ih hnext (by omega)
      rw [inOrder_iff_step hrowId hrow, hrest]
      constructor
      · rintro ⟨hhere, hlater⟩ i hlt hle
        rcases Nat.eq_or_lt_of_le hle with rfl | hgt
        · exact hhere
        · exact hlater hnext i hlt hgt
      · intro h
        refine ⟨h row hrow (Nat.le_refl row), ?_⟩
        intro _ i hlt hle
        exact h i hlt (Nat.le_of_succ_le hle)

/-! ## A track that is in the queue twice -/

/-- A queue row. -/
def queueRow (uri : String) : CqTrackItem := ⟨.lit uri, none, none, none, 0⟩

/-- A queue, after the launch. -/
def withQueue (uris : List String) : Globals :=
  { launch .empty 70 false false with gQueueItems := ⟨uris.map queueRow⟩ }

/-- Every row of the queue has an id. -/
theorem ids_withQueue {uris : List String}
    (h : ∀ item ∈ uris.map queueRow, (afterLastColon item.uri).isSome) :
    ∀ item ∈ (withQueue uris).gQueueItems.items, ∃ id, afterLastColon item.uri = some id := by
  intro item hitem
  exact Option.isSome_iff_exists.1 (h item hitem)

theorem queue_in_order_iff_sample :
    InOrder (withQueue ["spotify:track:a", "spotify:track:b", "spotify:track:c"]) 1 :=
  (queue_in_order_iff (withQueue ["spotify:track:a", "spotify:track:b", "spotify:track:c"])
    (ids_withQueue (by decide)) (show 1 < 3 by decide)).2 (by decide)

/-- **A repeated track leads back.** The queue `a b a`, from its first row: behind the second `a` the answer is
the row behind the first one. -/
theorem repeated_track_loops :
    ¬ ∀ (s : Globals) (row : Nat),
      (∀ item ∈ s.gQueueItems.items, ∃ id, afterLastColon item.uri = some id) →
        row < s.gQueueItems.items.length → InOrder s row := by
  intro h
  have horder := h (withQueue ["spotify:track:a", "spotify:track:b", "spotify:track:a"]) 0
    (ids_withQueue (by decide)) (show 0 < 3 by decide)
  revert horder
  rw [InOrder]
  decide

end Casquinha.App
