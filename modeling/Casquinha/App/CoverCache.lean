import Casquinha.App.Reconcile
import Casquinha.Lib.FifoMap

/-!
# The cover cache in its arrays (`src/cq_cache.c`)

Eight key buffers and eight values, of which the first `used` are in use, the oldest in slot 0. A
lookup compares the key as a store would cut it; a full cache shifts its slots down by one before the
new entry goes behind them. A value is a pointer that may be NULL, and the cache hands every value it
displaces back to the caller.

The arrays hold the entries of a bounded insertion-ordered map (`Refines`): every operation of the
code is the map's (`Refines.cqCachePut`, `Refines.cqCacheTakeOldest`), and so is every history of them
(`cacheArrays_refine`). The list the reconciler works on holds the same entries
(`Refines.slots_cqCachePut`, `Refines.slots_cqCacheHas`).
-/

set_option autoImplicit false

namespace Casquinha.App

open Lib

/-- `cq_cache`: the key buffers and the values. -/
structure CacheArrays (P : Type) where
  keys : Vector CStr cqCacheSlots
  vals : Vector (Option P) cqCacheSlots
  used : Nat
  used_le : used ≤ cqCacheSlots

namespace CacheArrays

variable {P : Type}

/-- `key_copy`: NULL is the empty key, and a long key is cut. -/
def keyCopy (src : Option CStr) : CStr := (src.getD .empty).fit cqCacheKeymax

/-- `for (i = 0; i < c->used; i++)` of `key_find`, from `i` on. -/
def keyFindFrom (c : CacheArrays P) (k : CStr) : Nat → Nat → Option Nat
  | 0, _ => none
  | fuel + 1, i =>
      if i < c.used then
        if c.keys[i]? = some k then some i else c.keyFindFrom k fuel (i + 1)
      else none

/-- `key_find`. -/
def keyFind (c : CacheArrays P) (key : Option CStr) : Option Nat :=
  c.keyFindFrom (keyCopy key) cqCacheSlots 0

/-- `cq_cache_init`. -/
def cqCacheInit : CacheArrays P where
  keys := .replicate _ .empty
  vals := .replicate _ none
  used := 0
  used_le := Nat.zero_le _

/-- `cq_cache_has`. -/
def cqCacheHas (c : CacheArrays P) (key : Option CStr) : Bool := (c.keyFind key).isSome

/-- `cq_cache_get`. -/
def cqCacheGet (c : CacheArrays P) (key : Option CStr) : Option P :=
  (c.keyFind key).bind fun i => (c.vals[i]?).join

/-- `for (i = 1; i < c->used; i++)` of `shift_out_oldest`, from `i` on: one array. -/
def shiftFrom {α : Type} [Inhabited α] (used : Nat) :
    Nat → Nat → Vector α cqCacheSlots → Vector α cqCacheSlots
  | 0, _, a => a
  | fuel + 1, i, a =>
      if i < used then shiftFrom used fuel (i + 1) (a.setIfInBounds (i - 1) (a[i]?.getD default))
      else a

/-- `shift_out_oldest`. The loop moves a key and a value a round; neither array is read for the
other. -/
def shiftOutOldest (c : CacheArrays P) : CacheArrays P × Option P :=
  ({ keys := shiftFrom c.used cqCacheSlots 1 c.keys
     vals := shiftFrom c.used cqCacheSlots 1 c.vals
     used := c.used - 1
     used_le := (Nat.sub_le _ _).trans c.used_le },
    (c.vals[0]?).join)

/-- The slot behind the used ones takes the entry. -/
def append (c : CacheArrays P) (h : c.used < cqCacheSlots) (k : CStr) (val : Option P) :
    CacheArrays P where
  keys := c.keys.set c.used k
  vals := c.vals.set c.used val
  used := c.used + 1
  used_le := h

/-- `if (c->used == CQ_CACHE_SLOTS) displaced = shift_out_oldest(c)`. -/
def makeRoom (c : CacheArrays P) : CacheArrays P × Option P :=
  if c.used = cqCacheSlots then c.shiftOutOldest else (c, none)

theorem used_makeRoom (c : CacheArrays P) : c.makeRoom.1.used < cqCacheSlots := by
  have hle := c.used_le
  rw [makeRoom]
  split
  · next h =>
    show c.used - 1 < cqCacheSlots
    rw [h]
    decide
  · next h => exact lt_of_le_of_ne hle h

/-- `cq_cache_put`. -/
def cqCachePut (c : CacheArrays P) (key : Option CStr) (val : Option P) :
    CacheArrays P × Option P :=
  match c.keyFind key with
  | some i => ({ c with vals := c.vals.setIfInBounds i val }, (c.vals[i]?).join)
  | none => (c.makeRoom.1.append c.used_makeRoom (keyCopy key) val, c.makeRoom.2)

/-- `cq_cache_take_oldest`. -/
def cqCacheTakeOldest (c : CacheArrays P) : CacheArrays P × Option P :=
  if c.used = 0 then (c, none) else c.shiftOutOldest

/-! ## The entries -/

/-- The entries in use, the oldest first. -/
def entries (c : CacheArrays P) : List (CStr × Option P) :=
  (c.keys.toList.zip c.vals.toList).take c.used

theorem getElem?_entries {c : CacheArrays P} {j : Nat} {k : CStr} {v : Option P} :
    c.entries[j]? = some (k, v) ↔ j < c.used ∧ c.keys[j]? = some k ∧ c.vals[j]? = some v := by
  rw [entries, List.getElem?_take]
  split
  · next h => simp [List.getElem?_zip_eq_some, h]
  · next h => simp [h]

theorem length_entries (c : CacheArrays P) : c.entries.length = c.used := by
  have hle := c.used_le
  simp [entries, hle]

/-- A slot in use holds a key and a value. -/
theorem exists_slot (c : CacheArrays P) {j : Nat} (h : j < c.used) :
    ∃ k v, c.keys[j]? = some k ∧ c.vals[j]? = some v := by
  have hlt : j < cqCacheSlots := lt_of_lt_of_le h c.used_le
  exact ⟨_, _, Vector.getElem?_eq_getElem hlt, Vector.getElem?_eq_getElem hlt⟩

theorem entries_ext {c : CacheArrays P} {l : List (CStr × Option P)}
    (h : ∀ j k v, (j < c.used ∧ c.keys[j]? = some k ∧ c.vals[j]? = some v) ↔ l[j]? = some (k, v)) :
    c.entries = l := by
  apply List.ext_getElem?
  intro j
  ext ⟨k, v⟩
  exact getElem?_entries.trans (h j k v)

/-- The search ends at the first slot with the key, or has passed every slot in use. -/
theorem keyFindFrom_spec (c : CacheArrays P) (k : CStr) :
    ∀ fuel i, c.used ≤ i + fuel →
      match c.keyFindFrom k fuel i with
      | some j => j < c.used ∧ c.keys[j]? = some k
      | none => ∀ j, i ≤ j → j < c.used → c.keys[j]? ≠ some k := by
  intro fuel
  induction fuel with
  | zero =>
      intro i hf j hij hj
      omega
  | succ fuel ih =>
      intro i hf
      rw [keyFindFrom]
      by_cases hi : i < c.used
      · rw [if_pos hi]
        by_cases hk : c.keys[i]? = some k
        · rw [if_pos hk]
          -- a hit is the first slot with the key
          exact ⟨hi, hk⟩
        · rw [if_neg hk]
          -- a miss here leaves the slots behind it
          have hlater := ih (i + 1) (by omega)
          split at hlater
          · exact hlater
          · intro j hij hj
            rcases Nat.eq_or_lt_of_le hij with rfl | hlt
            · exact hk
            · exact hlater j hlt hj
      · rw [if_neg hi]
        intro j hij hj
        omega

/-- The shift moves every element in use down by one and leaves the others. -/
theorem getElem?_shiftFrom {α : Type} [Inhabited α] {used : Nat} (hused : used ≤ cqCacheSlots) :
    ∀ fuel i (a : Vector α cqCacheSlots), 1 ≤ i → used ≤ i + fuel → ∀ j,
      (shiftFrom used fuel i a)[j]? = if i ≤ j + 1 ∧ j + 1 < used then a[j + 1]? else a[j]? := by
  intro fuel
  induction fuel with
  | zero =>
      intro i a hi hf j
      rw [shiftFrom, if_neg (by omega)]
  | succ fuel ih =>
      intro i a hi hf j
      rw [shiftFrom]
      by_cases hiu : i < used
      · -- the round writes slot `i - 1` only, and no later round reads it
        have hlt : i < cqCacheSlots := by omega
        have hval : a[i]?.getD default = a[i] := by rw [Vector.getElem?_eq_getElem hlt]; rfl
        rw [if_pos hiu, ih (i + 1) _ (by omega) (by omega) j, hval]
        by_cases hij : i = j + 1
        · subst hij
          rw [if_neg (by omega), if_pos ⟨le_refl _, hiu⟩, Nat.add_sub_cancel,
            Vector.getElem?_setIfInBounds_self_of_lt (by omega), Vector.getElem?_eq_getElem hlt]
        · by_cases hlater : i + 1 ≤ j + 1 ∧ j + 1 < used
          · rw [if_pos hlater, if_pos (by omega), Vector.getElem?_setIfInBounds_ne (by omega)]
          · rw [if_neg hlater, if_neg (by omega), Vector.getElem?_setIfInBounds_ne (by omega)]
      · -- the last slot in use has been moved
        rw [if_neg hiu, if_neg (by omega)]

/-- **The shift takes the oldest entry out.** -/
theorem entries_shiftOutOldest (c : CacheArrays P) : c.shiftOutOldest.1.entries = c.entries.tail := by
  apply entries_ext
  intro j k v
  -- the loop moves keys and values alike, and every slot in use but the first is read
  have hkeys := getElem?_shiftFrom c.used_le cqCacheSlots 1 c.keys (le_refl 1)
    (c.used_le.trans (Nat.le_add_left _ _)) j
  have hvals := getElem?_shiftFrom c.used_le cqCacheSlots 1 c.vals (le_refl 1)
    (c.used_le.trans (Nat.le_add_left _ _)) j
  rw [List.getElem?_tail, getElem?_entries, shiftOutOldest]
  simp only [hkeys, hvals]
  by_cases hj : j + 1 < c.used
  · have hpos : j < c.used - 1 := by omega
    simp [hj, hpos]
  · have hpos : ¬ j < c.used - 1 := by omega
    simp [hj, hpos]

/-- Its value is handed back. -/
theorem shiftOutOldest_snd (c : CacheArrays P) (h : 0 < c.used) :
    c.shiftOutOldest.2 = (c.entries.head?.map Prod.snd).join := by
  obtain ⟨k, v, hk, hv⟩ := c.exists_slot h
  rw [List.head?_eq_getElem?, getElem?_entries.2 ⟨h, hk, hv⟩, shiftOutOldest]
  simp only [hv]
  rfl

theorem entries_append (c : CacheArrays P) (h : c.used < cqCacheSlots) (k : CStr) (v : Option P) :
    (c.append h k v).entries = c.entries ++ [(k, v)] := by
  apply entries_ext
  intro j k' v'
  rcases Nat.lt_trichotomy j c.used with hlt | rfl | hgt
  · -- the slots in use, the new one, and those behind it
    have hne : c.used ≠ j := by omega
    rw [List.getElem?_append_left (by rw [length_entries]; exact hlt), getElem?_entries]
    have hlt' : j < c.used + 1 := by omega
    simp [append, Vector.getElem?_set_ne, hne, hlt, hlt']
  · rw [← length_entries, List.getElem?_concat_length, length_entries]
    simp [append]
  · have hpast : ¬ j < c.used + 1 := by omega
    have hlen : (c.entries ++ [(k, v)]).length ≤ j := by
      rw [List.length_append, length_entries]
      exact hgt
    rw [List.getElem?_eq_none hlen]
    simp [append, hpast]

/-- A store into a slot in use exchanges the value of its entry. -/
theorem entries_setVal (c : CacheArrays P) {i : Nat} {k : CStr} (hi : i < c.used)
    (hk : c.keys[i]? = some k) (v : Option P) :
    ({ c with vals := c.vals.setIfInBounds i v } : CacheArrays P).entries = c.entries.set i (k, v) := by
  have hlt : i < cqCacheSlots := lt_of_lt_of_le hi c.used_le
  apply entries_ext
  intro j k' v'
  by_cases hij : i = j
  · -- the slot itself, and any other
    subst hij
    rw [List.getElem?_set_self (by rw [length_entries]; exact hi)]
    simp [Vector.getElem?_setIfInBounds_self_of_lt hlt, hi, hk]
  · rw [List.getElem?_set_ne hij, getElem?_entries]
    simp [Vector.getElem?_setIfInBounds_ne hij]

/-! ## Refinement -/

instance : NeZero cqCacheSlots := ⟨by decide⟩

/-- The arrays hold the entries of the map. -/
def Refines (c : CacheArrays P) (m : FifoMap CStr (Option P) cqCacheSlots) : Prop :=
  c.entries = m.entries

theorem refines_init : (cqCacheInit : CacheArrays P).Refines .empty := by
  rw [Refines, cqCacheInit, entries, List.take_zero]
  rfl

variable {c : CacheArrays P} {m : FifoMap CStr (Option P) cqCacheSlots}

/-- A hit is the slot of the map's entry, a miss is a key the map does not have. -/
theorem Refines.keyFind_cases (h : c.Refines m) (key : Option CStr) :
    (∃ i w, c.keyFind key = some i ∧ i < c.used ∧ c.keys[i]? = some (keyCopy key) ∧
        c.vals[i]? = some w ∧ m.entries[i]? = some (keyCopy key, w)) ∨
      c.keyFind key = none ∧ keyCopy key ∉ AssocList.keys m.entries := by
  have hspec := c.keyFindFrom_spec (keyCopy key) cqCacheSlots 0 (by simpa using c.used_le)
  rw [← keyFind] at hspec
  cases hfind : c.keyFind key with
  | some i =>
      rw [hfind] at hspec
      obtain ⟨hi, hk⟩ := hspec
      obtain ⟨-, w, -, hw⟩ := c.exists_slot hi
      exact Or.inl ⟨i, w, rfl, hi, hk, hw, h ▸ getElem?_entries.2 ⟨hi, hk, hw⟩⟩
  | none =>
      rw [hfind] at hspec
      refine Or.inr ⟨rfl, fun hmem => ?_⟩
      -- an entry of the map would be in a slot that was looked at
      obtain ⟨⟨k, w⟩, hentry, rfl⟩ := List.mem_map.1 hmem
      obtain ⟨j, hj⟩ := List.mem_iff_getElem?.1 hentry
      rw [← h] at hj
      obtain ⟨hlt, hk, -⟩ := getElem?_entries.1 hj
      exact hspec j (Nat.zero_le j) hlt hk

theorem Refines.cqCacheHas (h : c.Refines m) (key : Option CStr) :
    c.cqCacheHas key = (m.get (keyCopy key)).isSome := by
  rw [CacheArrays.cqCacheHas, FifoMap.get]
  rcases h.keyFind_cases key with ⟨i, w, hfind, -, -, -, hentry⟩ | ⟨hfind, habsent⟩
  · rw [hfind, (AssocList.get_eq_some_iff_of_nodup m.nodup).2 (List.mem_of_getElem? hentry)]
    rfl
  · rw [hfind, AssocList.get_eq_none_iff.2 habsent]
    rfl

theorem Refines.cqCacheGet (h : c.Refines m) (key : Option CStr) :
    c.cqCacheGet key = (m.get (keyCopy key)).join := by
  rw [CacheArrays.cqCacheGet, FifoMap.get]
  rcases h.keyFind_cases key with ⟨i, w, hfind, -, -, hw, hentry⟩ | ⟨hfind, habsent⟩
  · rw [hfind, (AssocList.get_eq_some_iff_of_nodup m.nodup).2 (List.mem_of_getElem? hentry),
      Option.bind_some, hw]
  · rw [hfind, AssocList.get_eq_none_iff.2 habsent]
    rfl

/-- Taking the oldest entry out, where there is one. -/
theorem Refines.shiftOutOldest (h : c.Refines m) (hused : 0 < c.used) :
    c.shiftOutOldest.1.Refines m.takeOldest.1 ∧ c.shiftOutOldest.2 = m.takeOldest.2.join := by
  constructor
  · rw [Refines, entries_shiftOutOldest, h]
    rfl
  · rw [shiftOutOldest_snd c hused, h]
    rfl

theorem Refines.cqCacheTakeOldest (h : c.Refines m) :
    c.cqCacheTakeOldest.1.Refines m.takeOldest.1 ∧
      c.cqCacheTakeOldest.2 = m.takeOldest.2.join := by
  rw [CacheArrays.cqCacheTakeOldest]
  split
  · next hused =>
    -- nothing to take out of either
    have hnil : m.entries = [] := by
      rw [← h, ← List.length_eq_zero_iff, length_entries, hused]
    constructor
    · rw [Refines, h]
      show m.entries = m.entries.tail
      rw [hnil]
      rfl
    · show none = (m.entries.head?.map Prod.snd).join
      rw [hnil]
      rfl
  · next hused => exact h.shiftOutOldest (Nat.pos_of_ne_zero hused)

theorem Refines.makeRoom (h : c.Refines m) :
    c.makeRoom.1.Refines m.makeRoom.1 ∧ c.makeRoom.2 = m.makeRoom.2.join := by
  have hlen : m.entries.length = c.used := by rw [← h, length_entries]
  rw [CacheArrays.makeRoom, FifoMap.makeRoom, hlen]
  split
  · next hfull =>
    apply h.shiftOutOldest
    rw [hfull]
    decide
  · exact ⟨h, rfl⟩

/-- **A put is the map's put**, and hands back what the map displaces. -/
theorem Refines.cqCachePut (h : c.Refines m) (key : Option CStr) (val : Option P) :
    (c.cqCachePut key val).1.Refines (m.put (keyCopy key) val).1 ∧
      (c.cqCachePut key val).2 = (m.put (keyCopy key) val).2.join := by
  rw [CacheArrays.cqCachePut, FifoMap.put]
  rcases h.keyFind_cases key with ⟨i, w, hfind, hi, hk, hw, hentry⟩ | ⟨hfind, habsent⟩
  · -- a hit: the value is exchanged in place
    have hmem : (keyCopy key, w) ∈ m.entries := List.mem_of_getElem? hentry
    have hkey : keyCopy key ∈ AssocList.keys m.entries := List.mem_map_of_mem hmem
    rw [dif_pos hkey]
    simp only [hfind]
    constructor
    · rw [Refines, entries_setVal c hi hk, h]
      exact (AssocList.insertLast_of_getElem? m.nodup hentry val).symm
    · rw [hw, FifoMap.get, (AssocList.get_eq_some_iff_of_nodup m.nodup).2 hmem]
  · -- a miss: room is made first, then the entry goes last
    rw [dif_neg habsent]
    simp only [hfind]
    obtain ⟨hroom, hout⟩ := h.makeRoom
    refine ⟨?_, hout⟩
    rw [Refines, entries_append, hroom]
    -- the entry that went out did not have the key either
    have hstill : keyCopy key ∉ AssocList.keys m.makeRoom.1.entries := m.notMem_makeRoom habsent
    exact (AssocList.insertLast_of_notMem hstill).symm

/-- The list the reconciler keeps its covers in is the same map: a lookup finds an entry of it by the
key as it is stored. -/
theorem keyFind_slots (m : FifoMap CStr (Option P) cqCacheSlots) (key : CStr) :
    (∃ i w, App.keyFind ⟨m.entries⟩ key = some i ∧ m.entries[i]? = some (keyCopy (some key), w)) ∨
      App.keyFind ⟨m.entries⟩ key = none ∧ keyCopy (some key) ∉ AssocList.keys m.entries := by
  rw [App.keyFind]
  cases hfind : m.entries.findIdx? fun slot => slot.1 = key.fit cqCacheKeymax with
  | some i =>
      obtain ⟨hi, hkey, -⟩ := List.findIdx?_eq_some_iff_getElem.1 hfind
      have hfst : m.entries[i].1 = keyCopy (some key) := by simpa [keyCopy] using hkey
      refine Or.inl ⟨i, m.entries[i].2, rfl, ?_⟩
      rw [List.getElem?_eq_getElem hi, ← hfst]
  | none =>
      refine Or.inr ⟨rfl, fun hmem => ?_⟩
      obtain ⟨p, hp, hfst⟩ := List.mem_map.1 hmem
      -- the search has passed over every entry
      have hno := List.findIdx?_eq_none_iff.1 hfind p hp
      exact absurd hfst (by simpa [keyCopy] using hno)

/-- **A put into the arrays is the reconciler's put.** -/
theorem Refines.slots_cqCachePut (h : c.Refines m) (key : CStr) (val : Option P) :
    (App.cqCachePut ⟨m.entries⟩ key val).slots = (c.cqCachePut (some key) val).1.entries := by
  rw [(h.cqCachePut (some key) val).1, FifoMap.put, App.cqCachePut]
  rcases keyFind_slots m key with ⟨i, w, hfind, hentry⟩ | ⟨hfind, habsent⟩
  · have hmem : (keyCopy (some key), w) ∈ m.entries := List.mem_of_getElem? hentry
    have hkey : keyCopy (some key) ∈ AssocList.keys m.entries := List.mem_map_of_mem hmem
    rw [dif_pos hkey, hfind]
    show m.entries.modify i _ = AssocList.insertLast m.entries (keyCopy (some key)) val
    rw [AssocList.insertLast_of_getElem? m.nodup hentry, List.modify_eq_set, hentry]
    rfl
  · rw [dif_neg habsent, hfind]
    show _ = AssocList.insertLast m.makeRoom.1.entries (keyCopy (some key)) val
    rw [AssocList.insertLast_of_notMem (m.notMem_makeRoom habsent), FifoMap.makeRoom]
    by_cases hfull : m.entries.length = cqCacheSlots
    · simp only [hfull, if_true, List.drop_one]
      rfl
    · simp only [hfull, if_false]
      rfl

/-- So is a lookup. -/
theorem Refines.slots_cqCacheHas (h : c.Refines m) (key : CStr) :
    App.cqCacheHas ⟨m.entries⟩ key = c.cqCacheHas (some key) := by
  rw [App.cqCacheHas, CacheArrays.cqCacheHas]
  rcases keyFind_slots m key with ⟨i, w, hfind, hentry⟩ | ⟨hfind, habsent⟩
  · have hkey : keyCopy (some key) ∈ AssocList.keys m.entries :=
      List.mem_map_of_mem (List.mem_of_getElem? hentry)
    rcases h.keyFind_cases (some key) with ⟨j, -, hfound, -⟩ | ⟨-, habsent⟩
    · rw [hfind, hfound]
      rfl
    · -- both searches look for the key as it is stored, so they cannot differ
      exact absurd hkey habsent
  · rcases h.keyFind_cases (some key) with ⟨j, w, -, -, -, -, hentry⟩ | ⟨hmiss, -⟩
    · exact absurd (List.mem_map_of_mem (List.mem_of_getElem? hentry)) habsent
    · rw [hfind, hmiss]

/-! ## Histories -/

/-- What a user of the cache does. -/
inductive CacheOp (P : Type) where
  | put (key : Option CStr) (val : Option P)
  | takeOldest

/-- The payload an operation hands in. -/
def CacheOp.payload : CacheOp P → Option P
  | .put _ val => val
  | .takeOldest => none

/-- The operation on the map: keys as they are stored. -/
def CacheOp.fifo : CacheOp P → FifoMap.Op CStr (Option P)
  | .put key val => .put (keyCopy key) val
  | .takeOldest => .takeOldest

/-- Perform an operation; the value it returns. -/
def perform (c : CacheArrays P) : CacheOp P → CacheArrays P × Option P
  | .put key val => c.cqCachePut key val
  | .takeOldest => c.cqCacheTakeOldest

/-- Perform operations from left to right; the values returned in order. -/
def runOps (c : CacheArrays P) : List (CacheOp P) → CacheArrays P × List (Option P)
  | [] => (c, [])
  | op :: ops =>
      let after := (c.perform op).1.runOps ops
      (after.1, (c.perform op).2 :: after.2)

theorem Refines.perform (h : c.Refines m) (op : CacheOp P) :
    (c.perform op).1.Refines (m.perform op.fifo).1 ∧
      (c.perform op).2 = (m.perform op.fifo).2.join := by
  cases op with
  | put key val => exact h.cqCachePut key val
  | takeOldest => exact h.cqCacheTakeOldest

theorem Refines.runOps (ops : List (CacheOp P)) {c : CacheArrays P}
    {m : FifoMap CStr (Option P) cqCacheSlots} (h : c.Refines m) :
    (c.runOps ops).1.Refines (m.runOps (ops.map CacheOp.fifo)).1 ∧
      (c.runOps ops).2 = (m.runOps (ops.map CacheOp.fifo)).2.map Option.join := by
  induction ops generalizing c m with
  | nil => exact ⟨h, rfl⟩
  | cons op ops ih =>
      -- one operation, and the others from where it leads
      obtain ⟨hstep, hvalue⟩ := h.perform op
      obtain ⟨hrest, hvalues⟩ := ih hstep
      refine ⟨hrest, ?_⟩
      simp only [CacheArrays.runOps, FifoMap.runOps, List.map_cons, hvalue, hvalues]

/-- The payloads in the cache, NULL left out. -/
def stored (c : CacheArrays P) : List P := (c.entries.map Prod.snd).reduceOption

/-- **The cover cache is a bounded FIFO map.** After any history of puts and takes, the arrays hold
the map's entries, at most eight of them and with distinct keys, every lookup and every returned value
is the map's, and the payloads put are the payloads still stored and those handed back. -/
theorem cacheArrays_refine (P : Type) (ops : List (CacheOp P)) :
    let r := (cqCacheInit : CacheArrays P).runOps ops
    let m := (FifoMap.empty : FifoMap CStr (Option P) cqCacheSlots).runOps (ops.map CacheOp.fifo)
    (r.1.entries = m.1.entries ∧ r.2 = m.2.map Option.join) ∧
      (r.1.used = r.1.entries.length ∧ r.1.used ≤ cqCacheSlots ∧
        (AssocList.keys r.1.entries).Nodup) ∧
      (∀ key, r.1.cqCacheHas key = (m.1.get (keyCopy key)).isSome ∧
        r.1.cqCacheGet key = (m.1.get (keyCopy key)).join) ∧
      (ops.filterMap CacheOp.payload : Multiset P) =
        (r.1.stored : Multiset P) + (r.2.reduceOption : Multiset P) := by
  intro r m
  obtain ⟨hentries, hvalues⟩ : r.1.Refines m.1 ∧ r.2 = m.2.map Option.join := refines_init.runOps ops
  refine ⟨⟨hentries, hvalues⟩, ⟨r.1.length_entries.symm, r.1.used_le, hentries ▸ m.1.nodup⟩,
    fun key => ⟨Refines.cqCacheHas hentries key, Refines.cqCacheGet hentries key⟩, ?_⟩
  -- the map conserves its values, NULL among them; what is left without NULL is the payloads
  have hmap := FifoMap.runOps_conserves (ops.map CacheOp.fifo)
    (FifoMap.empty : FifoMap CStr (Option P) cqCacheSlots)
  have hpay := congrArg (Multiset.filterMap id) hmap
  simp only [Multiset.filterMap_add, FifoMap.values, Multiset.filterMap_coe] at hpay
  have hgiven : ((ops.map CacheOp.fifo).filterMap FifoMap.Op.given).filterMap id =
      ops.filterMap CacheOp.payload := by
    rw [List.filterMap_map, List.filterMap_filterMap]
    refine List.filterMap_congr fun op _ => ?_
    cases op <;> rfl
  have hback : m.2.reduceOption.filterMap id = r.2.reduceOption := by
    rw [hvalues]
    show (m.2.filterMap id).filterMap id = (m.2.map Option.join).filterMap id
    rw [List.filterMap_map, List.filterMap_filterMap]
    rfl
  have hempty : ((FifoMap.empty : FifoMap CStr (Option P) cqCacheSlots).entries.map
      Prod.snd).filterMap id = [] := rfl
  rw [hgiven, hback, hempty, Multiset.coe_nil, zero_add] at hpay
  rw [stored, hentries]
  exact hpay

end CacheArrays

end Casquinha.App
