import Mathlib.Data.List.Induction
import Mathlib.Data.List.Nodup
import Mathlib.Tactic.Linarith

/-!
# Ordered association lists with last-value-wins insertion

An association list with pairwise distinct keys, kept in the order in which the keys were first
inserted. `insertLast` stores a value in place when its key is present and appends the pair
otherwise; `ofPairs` inserts a list of pairs from left to right.

The meaning of `ofPairs` does not mention insertion: its keys are the keys of the input in order of
first occurrence, and each key carries the value of the last pair with that key
(`ofPairs_eq_lastWins`).
-/

set_option autoImplicit false

namespace Lib.AssocList

universe u v

variable {κ : Type u} {ν : Type v}

/-- The keys, in order. -/
def keys (m : List (κ × ν)) : List κ := m.map Prod.fst

@[simp] theorem keys_nil : keys ([] : List (κ × ν)) = [] := rfl

@[simp] theorem keys_cons (p : κ × ν) (m : List (κ × ν)) : keys (p :: m) = p.1 :: keys m := rfl

@[simp] theorem keys_append (l m : List (κ × ν)) : keys (l ++ m) = keys l ++ keys m :=
  List.map_append

variable [DecidableEq κ]

/-- The value of the first pair with key `k`. -/
def get : List (κ × ν) → κ → Option ν
  | [], _ => none
  | p :: m, k => if p.1 = k then some p.2 else get m k

/-- Store `v` under `k`: in place when `k` is present, at the end otherwise. -/
def insertLast : List (κ × ν) → κ → ν → List (κ × ν)
  | [], k, v => [(k, v)]
  | (k', v') :: m, k, v => if k' = k then (k, v) :: m else (k', v') :: insertLast m k v

/-- Insert pairs from left to right. -/
def insertAll (m : List (κ × ν)) (l : List (κ × ν)) : List (κ × ν) :=
  l.foldl (fun m p => insertLast m p.1 p.2) m

/-- The association list of a list of pairs. -/
def ofPairs (l : List (κ × ν)) : List (κ × ν) := insertAll [] l

/-- The value of the last pair with key `k`. -/
def lastValue (l : List (κ × ν)) (k : κ) : Option ν := get l.reverse k

/-- Each distinct key in order of first occurrence, with the value of its last pair. -/
def lastWins (l : List (κ × ν)) : List (κ × ν) :=
  (keys l).eraseDups.filterMap fun k => (lastValue l k).map fun v => (k, v)

@[simp] theorem get_nil (k : κ) : get ([] : List (κ × ν)) k = none := rfl

theorem get_cons (p : κ × ν) (m : List (κ × ν)) (k : κ) :
    get (p :: m) k = if p.1 = k then some p.2 else get m k := rfl

theorem mem_of_get_eq_some {m : List (κ × ν)} {k : κ} {v : ν} (h : get m k = some v) :
    (k, v) ∈ m := by
  induction m with
  | nil => simp at h
  | cons p m ih =>
      rw [get_cons] at h
      split at h
      · next hk =>
        simp only [Option.some.injEq] at h
        subst hk h
        exact List.mem_cons_self
      · exact List.mem_cons_of_mem _ (ih h)

theorem get_eq_none_iff {m : List (κ × ν)} {k : κ} : get m k = none ↔ k ∉ keys m := by
  induction m with
  | nil => simp
  | cons p m ih =>
      rw [get_cons, keys_cons, List.mem_cons, not_or, ← ih]
      by_cases hk : p.1 = k
      · simp [hk]
      · simp [hk, Ne.symm hk]

/-- With distinct keys, a lookup finds exactly the pairs of the list. -/
theorem get_eq_some_iff_of_nodup {m : List (κ × ν)} (h : (keys m).Nodup) {k : κ} {v : ν} :
    get m k = some v ↔ (k, v) ∈ m := by
  refine ⟨mem_of_get_eq_some, ?_⟩
  intro hmem
  induction m with
  | nil => cases hmem
  | cons p m ih =>
      obtain ⟨hp, hm⟩ := List.nodup_cons.1 h
      rw [get_cons]
      rcases List.mem_cons.1 hmem with rfl | hmem
      · exact if_pos rfl
      · have hkey : k ∈ keys m := List.mem_map_of_mem hmem
        rw [if_neg (ne_of_mem_of_not_mem hkey hp).symm, ih hm hmem]

@[simp] theorem insertAll_nil (m : List (κ × ν)) : insertAll m [] = m := rfl

@[simp] theorem insertAll_cons (m : List (κ × ν)) (p : κ × ν) (l : List (κ × ν)) :
    insertAll m (p :: l) = insertAll (insertLast m p.1 p.2) l := rfl

theorem insertAll_append (m l l' : List (κ × ν)) :
    insertAll m (l ++ l') = insertAll (insertAll m l) l' := by
  simp [insertAll, List.foldl_append]

/-! ## One insertion -/

theorem keys_insertLast (m : List (κ × ν)) (k : κ) (v : ν) :
    keys (insertLast m k v) = if k ∈ keys m then keys m else keys m ++ [k] := by
  induction m with
  | nil => simp [insertLast]
  | cons p m ih =>
      obtain ⟨k', v'⟩ := p
      by_cases hk : k' = k
      · subst hk
        simp [insertLast]
      · simp only [insertLast, if_neg hk, keys_cons, ih, List.mem_cons, Ne.symm hk, false_or]
        split <;> simp

/-- A new key goes to the end. -/
theorem insertLast_of_notMem {m : List (κ × ν)} {k : κ} {v : ν} (h : k ∉ keys m) :
    insertLast m k v = m ++ [(k, v)] := by
  induction m with
  | nil => rfl
  | cons p m ih =>
      obtain ⟨hp, hm⟩ := not_or.1 (mt List.mem_cons.2 h)
      rw [insertLast, if_neg (Ne.symm hp), ih hm, List.cons_append]

/-- Under a present key, insertion exchanges one value. -/
theorem perm_insertLast_of_mem {m : List (κ × ν)} {k : κ} (v : ν) (h : k ∈ keys m) :
    (m.map Prod.snd ++ [v]).Perm ((insertLast m k v).map Prod.snd ++ (get m k).toList) := by
  induction m with
  | nil => cases h
  | cons p m ih =>
      obtain ⟨k', w⟩ := p
      by_cases hk : k' = k
      · simp only [insertLast, get_cons, if_pos hk, List.map_cons, Option.toList_some]
        calc (w :: m.map Prod.snd ++ [v]).Perm (v :: w :: m.map Prod.snd) :=
              List.perm_append_singleton v (w :: m.map Prod.snd)
          _ |>.Perm (v :: (m.map Prod.snd ++ [w])) :=
              (List.perm_append_singleton w (m.map Prod.snd)).symm.cons v
      · have hrest : k ∈ keys m := (List.mem_cons.1 h).resolve_left (Ne.symm hk)
        simp only [insertLast, get_cons, if_neg hk, List.map_cons, List.cons_append]
        exact (ih hrest).cons w

/-- With distinct keys, the entry at a position is the one its key finds and replaces. -/
theorem insertLast_of_getElem? {m : List (κ × ν)} {i : Nat} {k : κ} {w : ν} (hm : (keys m).Nodup)
    (h : m[i]? = some (k, w)) (v : ν) : insertLast m k v = m.set i (k, v) := by
  induction m generalizing i with
  | nil => cases h
  | cons p m ih =>
      obtain ⟨hp, hrest⟩ := List.nodup_cons.1 hm
      cases i with
      | zero =>
          obtain rfl : p = (k, w) := Option.some.inj h
          rw [insertLast, if_pos rfl, List.set_cons_zero]
      | succ i =>
          rw [List.getElem?_cons_succ] at h
          have hmem : k ∈ keys m := List.mem_map_of_mem (List.mem_of_getElem? h)
          rw [insertLast, if_neg (ne_of_mem_of_not_mem hmem hp).symm, ih hrest h, List.set_cons_succ]

/-- Insertion keeps the keys pairwise distinct. -/
theorem nodup_keys_insertLast {m : List (κ × ν)} (k : κ) (v : ν) (h : (keys m).Nodup) :
    (keys (insertLast m k v)).Nodup := by
  rw [keys_insertLast]
  split
  · exact h
  · next hk =>
      refine List.nodup_append.2 ⟨h, by simp, ?_⟩
      simpa using fun a ha => ne_of_mem_of_not_mem ha hk

theorem get_insertLast (m : List (κ × ν)) (k k' : κ) (v : ν) :
    get (insertLast m k v) k' = if k = k' then some v else get m k' := by
  induction m with
  | nil => rfl
  | cons p m ih =>
      obtain ⟨k₀, v₀⟩ := p
      by_cases hk : k₀ = k
      · subst hk
        simp only [insertLast, if_true, get_cons]
        split <;> rfl
      · simp only [insertLast, if_neg hk, get_cons, ih]
        by_cases h : k₀ = k'
        · subst h
          simp [Ne.symm hk]
        · simp [h]

/-! ## A whole list of pairs -/

theorem nodup_keys_insertAll (l : List (κ × ν)) :
    ∀ {m : List (κ × ν)}, (keys m).Nodup → (keys (insertAll m l)).Nodup := by
  induction l with
  | nil => exact fun h => h
  | cons p l ih => exact fun h => ih (nodup_keys_insertLast p.1 p.2 h)

theorem nodup_keys_ofPairs (l : List (κ × ν)) : (keys (ofPairs l)).Nodup :=
  nodup_keys_insertAll l List.nodup_nil

theorem ofPairs_concat (l : List (κ × ν)) (k : κ) (v : ν) :
    ofPairs (l ++ [(k, v)]) = insertLast (ofPairs l) k v :=
  insertAll_append [] l [(k, v)]

theorem keys_ofPairs (l : List (κ × ν)) : keys (ofPairs l) = (keys l).eraseDups := by
  induction l using List.reverseRecOn with
  | nil => rfl
  | append_singleton l p ih =>
      rw [show p = (p.1, p.2) from rfl, ofPairs_concat, keys_insertLast, ih, keys_append,
        List.eraseDups_append]
      have hrem : [p.1].removeAll (keys l) = if p.1 ∈ keys l then [] else [p.1] := by
        by_cases h : p.1 ∈ keys l <;> simp [List.removeAll, h]
      simp only [keys_cons, keys_nil, List.mem_eraseDups, hrem]
      by_cases h : p.1 ∈ keys l
      · simp [h]
      · simp [h, List.eraseDups_cons]

/-- Looking a key up gives the value of the last pair with that key. -/
theorem get_ofPairs (l : List (κ × ν)) (k : κ) : get (ofPairs l) k = lastValue l k := by
  induction l using List.reverseRecOn with
  | nil => rfl
  | append_singleton l p ih =>
      rw [show p = (p.1, p.2) from rfl, ofPairs_concat, get_insertLast, ih, lastValue, lastValue,
        List.reverse_append, List.reverse_singleton, List.singleton_append, get_cons]

theorem mem_of_lastValue_eq_some {l : List (κ × ν)} {k : κ} {v : ν}
    (h : lastValue l k = some v) : (k, v) ∈ l :=
  List.mem_reverse.1 (mem_of_get_eq_some h)

theorem lastValue_of_nodup {l : List (κ × ν)} (h : (keys l).Nodup) {k : κ} {v : ν}
    (hmem : (k, v) ∈ l) : lastValue l k = some v := by
  have hrev : (keys l.reverse).Nodup := by
    rw [keys, List.map_reverse]
    exact List.nodup_reverse.2 h
  exact (get_eq_some_iff_of_nodup hrev).2 (List.mem_reverse.2 hmem)

/-- An association list with distinct keys is read off its keys and its lookups. -/
theorem eq_filterMap_get {m : List (κ × ν)} (h : (keys m).Nodup) :
    m = (keys m).filterMap fun k => (get m k).map fun v => (k, v) := by
  induction m with
  | nil => rfl
  | cons p m ih =>
      obtain ⟨k, v⟩ := p
      simp only [keys_cons, List.nodup_cons] at h
      have hrest : (keys m).filterMap (fun k' => (get ((k, v) :: m) k').map fun w => (k', w)) =
          (keys m).filterMap fun k' => (get m k').map fun w => (k', w) := by
        refine List.filterMap_congr fun k' hk' => ?_
        have hne : k ≠ k' := (ne_of_mem_of_not_mem hk' h.1).symm
        rw [get_cons, if_neg hne]
      rw [keys_cons, List.filterMap_cons]
      simp only [get_cons, if_true, Option.map_some]
      simp only [get_cons] at hrest
      rw [hrest, ← ih h.2]

/-- Insertion in order computes the declarative association list. -/
theorem ofPairs_eq_lastWins (l : List (κ × ν)) : ofPairs l = lastWins l := by
  conv_lhs => rw [eq_filterMap_get (nodup_keys_ofPairs l)]
  simp only [keys_ofPairs, get_ofPairs, lastWins]

end Lib.AssocList
