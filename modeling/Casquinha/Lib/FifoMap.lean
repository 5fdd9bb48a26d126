import Casquinha.Lib.AssocList
import Mathlib.Algebra.Order.Group.Multiset

/-!
# Bounded insertion-ordered maps

A map of at most `n` entries, kept in the order in which their keys were inserted. A put under a
present key replaces the value and keeps the key's age; a put into a full map takes the oldest entry
out first. Every operation hands back the value it displaces.

No value is lost and none is handed back twice: over any history, the values put are the values still
stored and the values handed back, counted with multiplicity (`runOps_conserves`).
-/

set_option autoImplicit false

namespace Lib

open AssocList

universe u v

/-- An insertion-ordered map with distinct keys and at most `n` entries, the oldest first. -/
structure FifoMap (κ : Type u) (ν : Type v) (n : Nat) where
  entries : List (κ × ν)
  nodup : (keys entries).Nodup
  length_le : entries.length ≤ n

namespace FifoMap

variable {κ : Type u} {ν : Type v} {n : Nat}

/-- No entries. -/
def empty : FifoMap κ ν n := ⟨[], List.nodup_nil, Nat.zero_le n⟩

/-- The stored values, with multiplicity. -/
def values (m : FifoMap κ ν n) : Multiset ν := m.entries.map Prod.snd

/-- The oldest entry taken out, with its value. -/
def takeOldest (m : FifoMap κ ν n) : FifoMap κ ν n × Option ν :=
  ({ entries := m.entries.tail
     nodup := by
       rw [keys, List.map_tail]
       exact m.nodup.tail
     length_le := by
       rw [List.length_tail]
       exact (Nat.sub_le _ _).trans m.length_le },
    m.entries.head?.map Prod.snd)

/-- Room for one more entry: the oldest goes when the map is full. -/
def makeRoom (m : FifoMap κ ν n) : FifoMap κ ν n × Option ν :=
  if m.entries.length = n then m.takeOldest else (m, none)

theorem length_makeRoom [NeZero n] (m : FifoMap κ ν n) : m.makeRoom.1.entries.length < n := by
  have hpos : 0 < n := Nat.pos_of_ne_zero (NeZero.ne n)
  have hle := m.length_le
  rw [makeRoom]
  split
  · next h =>
    show m.entries.tail.length < n
    rw [List.length_tail]
    omega
  · next h => exact lt_of_le_of_ne hle h

theorem values_takeOldest (m : FifoMap κ ν n) :
    m.values = m.takeOldest.1.values + (m.takeOldest.2.toList : Multiset ν) := by
  obtain ⟨entries, nodup, length_le⟩ := m
  rw [values, values, Multiset.coe_add, Multiset.coe_eq_coe]
  cases entries with
  | nil => exact List.Perm.refl []
  | cons p rest => exact (List.perm_append_singleton p.2 (rest.map Prod.snd)).symm

theorem values_makeRoom (m : FifoMap κ ν n) :
    m.values = m.makeRoom.1.values + (m.makeRoom.2.toList : Multiset ν) := by
  rw [makeRoom]
  split
  · exact m.values_takeOldest
  · simp

/-- An absent key stays absent. -/
theorem notMem_makeRoom (m : FifoMap κ ν n) {k : κ} (h : k ∉ keys m.entries) :
    k ∉ keys m.makeRoom.1.entries := by
  rw [makeRoom]
  split
  · intro hk
    apply h
    exact ((List.tail_sublist m.entries).map Prod.fst).subset hk
  · exact h

variable [DecidableEq κ]

/-- The value under a key. -/
def get (m : FifoMap κ ν n) (k : κ) : Option ν := AssocList.get m.entries k

/-- Store a value where there is room for its key. -/
def insert (m : FifoMap κ ν n) (k : κ) (v : ν) (h : k ∈ keys m.entries ∨ m.entries.length < n) :
    FifoMap κ ν n where
  entries := insertLast m.entries k v
  nodup := nodup_keys_insertLast k v m.nodup
  length_le := by
    have hlen : (insertLast m.entries k v).length = (keys (insertLast m.entries k v)).length :=
      (List.length_map Prod.fst).symm
    have hle := m.length_le
    rw [hlen, keys_insertLast]
    split
    · rw [keys, List.length_map]
      exact hle
    · next hk =>
      rw [keys, List.length_append, List.length_map, List.length_singleton]
      exact h.resolve_left hk

/-- Store a value: in place under a present key, at the end otherwise. -/
def put [NeZero n] (m : FifoMap κ ν n) (k : κ) (v : ν) : FifoMap κ ν n × Option ν :=
  if h : k ∈ keys m.entries then (m.insert k v (Or.inl h), m.get k)
  else (m.makeRoom.1.insert k v (Or.inr m.length_makeRoom), m.makeRoom.2)

/-! ## Conservation -/

/-- A new key adds its value. -/
theorem values_insert_of_notMem {m : FifoMap κ ν n} {k : κ} (v : ν)
    (h : k ∈ keys m.entries ∨ m.entries.length < n) (hk : k ∉ keys m.entries) :
    (m.insert k v h).values = m.values + {v} := by
  have hend : (m.insert k v h).entries = m.entries ++ [(k, v)] := insertLast_of_notMem hk
  rw [values, values, hend, List.map_append, ← Multiset.coe_add]
  rfl

/-- A present key exchanges its value. -/
theorem values_insert_of_mem {m : FifoMap κ ν n} {k : κ} (v : ν)
    (h : k ∈ keys m.entries ∨ m.entries.length < n) (hk : k ∈ keys m.entries) :
    m.values + {v} = (m.insert k v h).values + ((m.get k).toList : Multiset ν) := by
  rw [values, values, Multiset.coe_add, ← Multiset.coe_singleton, Multiset.coe_add,
    Multiset.coe_eq_coe]
  exact perm_insertLast_of_mem v hk

theorem values_put [NeZero n] (m : FifoMap κ ν n) (k : κ) (v : ν) :
    m.values + {v} = (m.put k v).1.values + ((m.put k v).2.toList : Multiset ν) := by
  rw [put]
  split
  · next h => exact values_insert_of_mem v (Or.inl h) h
  · next h =>
    rw [values_insert_of_notMem v _ (m.notMem_makeRoom h), m.values_makeRoom]
    ac_rfl

/-! ## Histories -/

/-- What a user of the map does. -/
inductive Op (κ : Type u) (ν : Type v) where
  | put (k : κ) (v : ν)
  | takeOldest

/-- The value an operation hands in. -/
def Op.given : Op κ ν → Option ν
  | .put _ v => some v
  | .takeOldest => none

variable [NeZero n]

/-- Perform an operation. -/
def perform (m : FifoMap κ ν n) : Op κ ν → FifoMap κ ν n × Option ν
  | .put k v => m.put k v
  | .takeOldest => m.takeOldest

/-- Perform operations from left to right; the results in order. -/
def runOps (m : FifoMap κ ν n) : List (Op κ ν) → FifoMap κ ν n × List (Option ν)
  | [] => (m, [])
  | op :: ops =>
      let after := (m.perform op).1.runOps ops
      (after.1, (m.perform op).2 :: after.2)

theorem values_perform (m : FifoMap κ ν n) (op : Op κ ν) :
    m.values + (op.given.toList : Multiset ν) =
      (m.perform op).1.values + ((m.perform op).2.toList : Multiset ν) := by
  cases op with
  | put k v => exact m.values_put k v
  | takeOldest => exact (add_zero m.values).trans m.values_takeOldest

/-- **Conservation.** What was stored and what was put is what is stored and what was handed back. -/
theorem runOps_conserves (ops : List (Op κ ν)) (m : FifoMap κ ν n) :
    m.values + (ops.filterMap Op.given : Multiset ν) =
      (m.runOps ops).1.values + ((m.runOps ops).2.reduceOption : Multiset ν) := by
  induction ops generalizing m with
  | nil => rfl
  | cons op ops ih =>
      have hstep := m.values_perform op
      have hrest := ih (m.perform op).1
      have hgiven : ((op :: ops).filterMap Op.given : Multiset ν) =
          (op.given.toList : Multiset ν) + (ops.filterMap Op.given : Multiset ν) := by
        rw [List.filterMap_cons]
        cases op.given <;> rfl
      have hback : ∀ (o : Option ν) (l : List (Option ν)),
          ((o :: l).reduceOption : Multiset ν) = (o.toList : Multiset ν) + (l.reduceOption : Multiset ν) := by
        intro o l
        cases o <;> rfl
      simp only [runOps]
      rw [hgiven, hback, ← add_assoc, hstep, add_right_comm, hrest]
      ac_rfl

end FifoMap

end Lib
