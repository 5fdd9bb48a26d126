import Casquinha.Wire.Codec
import Mathlib.Data.List.Nodup
import Mathlib.Data.List.Perm.Subperm
import Mathlib.Data.Nat.Find

/-!
# Indexed list blocks (`src/cq_track.c`, `src/cq_reflist.c`)

A list is a run of `<prefix>.<i>.<suffix>` keys; it ends at the first index whose required key is
absent. Both list decoders are the scan `gapScan` over an item reader: `trackAt` requires `uri`,
`refAt` requires `id`. The scan has one round for every stored field and one more, which is enough
on every field set (`gapScan_stops`).
-/

set_option autoImplicit false

namespace Casquinha.Wire

open Lib

/-- `cq_track_item`. -/
structure CqTrackItem where
  uri : CStr
  track : Option CStr
  artist : Option CStr
  albumId : Option CStr
  durationMs : Int
deriving DecidableEq

/-- `cq_track_list`. -/
structure CqTrackList where
  items : List CqTrackItem
deriving DecidableEq

/-- `cq_ref_item`. -/
structure CqRefItem where
  id : CStr
  name : Option CStr
deriving DecidableEq

/-- `cq_ref_list`. -/
structure CqRefList where
  items : List CqRefItem
deriving DecidableEq

/-- `snprintf(key, sizeof(key), "%s.%lu.%s", prefix, i, suffix)`; the key fits in its buffer for the
prefixes, suffixes and indices in use (`length_itemKey_lt`). -/
def itemKey (pre : CStr) (i : Nat) (suffix : CStr) : CStr :=
  pre ++ .lit "." ++ decimal i ++ .lit "." ++ suffix

/-- `field_for`. The track decoder's own `field_for` is this one at the prefix `item`. -/
def fieldFor (f : CqFields) (pre : CStr) (i : Nat) (suffix : CStr) : Option CStr :=
  cqFieldsGet f (itemKey pre i suffix)

/-- `for (;;)`: collect items until the first index that has none. -/
def gapScan {α : Type} (itemAt : Nat → Option α) : Nat → Nat → List α
  | 0, _ => []
  | fuel + 1, i =>
      match itemAt i with
      | none => []
      | some a => a :: gapScan itemAt fuel (i + 1)

/-- The `i`-th track row, when `item.<i>.uri` is present. -/
def trackAt (f : CqFields) (i : Nat) : Option CqTrackItem :=
  (fieldFor f (.lit "item") i (.lit "uri")).map fun uri =>
    { uri := uri
      track := fieldFor f (.lit "item") i (.lit "track")
      artist := fieldFor f (.lit "item") i (.lit "artist")
      albumId := fieldFor f (.lit "item") i (.lit "album_id")
      durationMs := cqParseLl (fieldFor f (.lit "item") i (.lit "duration_ms")) }

/-- The `i`-th reference row, when `<prefix>.<i>.id` is present. -/
def refAt (f : CqFields) (pre : CStr) (i : Nat) : Option CqRefItem :=
  (fieldFor f pre i (.lit "id")).map fun id =>
    { id := id
      name := fieldFor f pre i (.lit "name") }

/-- `cq_track_list_from_fields`. -/
def cqTrackListFromFields (f : CqFields) : CqTrackList :=
  ⟨gapScan (trackAt f) (f.items.length + 1) 0⟩

/-- `cq_track_list_from_response`. -/
def cqTrackListFromResponse (data : Bytes) : CqTrackList :=
  cqTrackListFromFields (cqFieldsParse cqFieldsInit data)

/-- `cq_ref_list_from_fields`. -/
def cqRefListFromFields (f : CqFields) (pre : CStr) : CqRefList :=
  ⟨gapScan (refAt f pre) (f.items.length + 1) 0⟩

/-- `cq_ref_list_from_response`. -/
def cqRefListFromResponse (data : Bytes) (pre : CStr) : CqRefList :=
  cqRefListFromFields (cqFieldsParse cqFieldsInit data) pre

/-! ## Keys -/

/-- The byte that separates the parts of an item key. -/
def DOT : UInt8 := 46

theorem bytes_itemKey (pre : CStr) (i : Nat) (suffix : CStr) :
    (itemKey pre i suffix).bytes =
      pre.bytes ++ DOT :: (decimalBytes i ++ DOT :: suffix.bytes) := by
  have hdot : (CStr.lit ".").bytes = [DOT] := by decide
  simp [itemKey, hdot]

/-- Cutting at the first dot is unambiguous. -/
theorem append_dot_inj {x y u v : Bytes} (hx : DOT ∉ x) (hy : DOT ∉ y) :
    x ++ DOT :: u = y ++ DOT :: v ↔ x = y ∧ u = v := by
  induction x generalizing y with
  | nil =>
      cases y with
      | nil => simp
      | cons b y =>
          have hb : DOT ≠ b := List.ne_of_not_mem_cons hy
          simp [hb]
  | cons a x ih =>
      cases y with
      | nil =>
          have ha : a ≠ DOT := (List.ne_of_not_mem_cons hx).symm
          simp [ha]
      | cons b y =>
          have h := ih (List.not_mem_of_not_mem_cons hx) (List.not_mem_of_not_mem_cons hy)
          simp only [List.cons_append, List.cons.injEq, h, and_assoc]

/-- Prefixes without a dot and decimal indices make item keys injective. -/
theorem itemKey_inj {p p' s s' : CStr} {i i' : Nat} (hp : DOT ∉ p.bytes) (hp' : DOT ∉ p'.bytes) :
    itemKey p i s = itemKey p' i' s' ↔ p = p' ∧ i = i' ∧ s = s' := by
  constructor
  · intro h
    have h1 := congrArg CStr.bytes h
    rw [bytes_itemKey, bytes_itemKey, append_dot_inj hp hp'] at h1
    obtain ⟨h2, h3⟩ := h1
    have hd : ∀ n, DOT ∉ decimalBytes n := notMem_decimalBytes (by decide)
    rw [append_dot_inj (hd i) (hd i')] at h3
    exact ⟨CStr.ext' h2, decimalBytes_inj.1 h3.1, CStr.ext' h3.2⟩
  · rintro ⟨rfl, rfl, rfl⟩
    rfl

/-- One prefix and one suffix: only the index is left to differ. -/
theorem itemKey_index_inj {p s : CStr} {i j : Nat} (h : itemKey p i s = itemKey p j s) :
    i = j := by
  have h1 := congrArg CStr.bytes h
  rw [bytes_itemKey, bytes_itemKey, List.append_cancel_left_eq, List.cons.injEq,
    List.append_cancel_right_eq] at h1
  exact decimalBytes_inj.1 h1.2

/-- `snprintf` never cuts a key: a 64-bit index prints at most twenty digits. -/
theorem length_itemKey_lt {pre suffix : CStr} {i size : Nat} (hi : i < 2 ^ 64)
    (h : pre.length + suffix.length + 22 < size) : (itemKey pre i suffix).length < size := by
  have hd := length_decimalBytes_le hi
  simp only [CStr.length, bytes_itemKey, List.length_append, List.length_cons] at h ⊢
  omega

/-! ## The scan -/

section Scan

variable {α : Type}

/-- A scan that meets the items of `l` and then a gap returns `l`. -/
theorem gapScan_eq (itemAt : Nat → Option α) (l : List α) :
    ∀ (fuel i : Nat), l.length < fuel → (∀ j, itemAt (i + j) = l[j]?) →
      gapScan itemAt fuel i = l := by
  induction l with
  | nil =>
      intro fuel i hf h
      obtain ⟨fuel, rfl⟩ : ∃ k, fuel = k + 1 := ⟨fuel - 1, by simp at hf; omega⟩
      have h0 : itemAt i = none := h 0
      simp [gapScan, h0]
  | cons a l ih =>
      intro fuel i hf h
      obtain ⟨fuel, rfl⟩ : ∃ k, fuel = k + 1 := ⟨fuel - 1, by simp at hf; omega⟩
      have h0 : itemAt i = some a := h 0
      have hrest := ih fuel (i + 1) (by simpa using hf) fun j => by
        have := h (j + 1)
        rwa [show i + (j + 1) = i + 1 + j by omega, List.getElem?_cons_succ] at this
      simp [gapScan, h0, hrest]

/-- With the first gap `n` within reach of the fuel, the scan collects the items below `n`. -/
theorem gapScan_eq_filterMap (itemAt : Nat → Option α) {n : Nat} (hgap : itemAt n = none) :
    ∀ (fuel i : Nat), i ≤ n → n - i < fuel → (∀ j, i ≤ j → j < n → itemAt j ≠ none) →
      gapScan itemAt fuel i = (List.range' i (n - i)).filterMap itemAt := by
  intro fuel
  induction fuel with
  | zero => intro i _ hf; omega
  | succ fuel ih =>
      intro i hi hf hall
      by_cases hin : i = n
      · subst hin
        simp [gapScan, hgap]
      · obtain ⟨a, ha⟩ := Option.ne_none_iff_exists'.1 (hall i (le_refl i) (by omega))
        have hrest := ih (i + 1) (by omega) (by omega) fun j hj => hall j (by omega)
        obtain ⟨d, hd⟩ : ∃ d, n - i = d + 1 := ⟨n - i - 1, by omega⟩
        have hd' : n - (i + 1) = d := by omega
        rw [hd, List.range'_succ, List.filterMap_cons, ha, gapScan, ha, hrest, hd']

end Scan

/-- Some index up to the number of stored fields has no required key. -/
theorem exists_gap (f : CqFields) (pre s : CStr) :
    ∃ n, n ≤ f.items.length ∧ fieldFor f pre n s = none ∧
      ∀ i, i < n → fieldFor f pre i s ≠ none := by
  -- more indices than fields: some key is not stored
  have hex : ∃ n, n ≤ f.items.length ∧ fieldFor f pre n s = none := by
    by_contra hno
    simp only [not_exists, not_and] at hno
    have hmem : ∀ i, i ≤ f.items.length → itemKey pre i s ∈ f.items.map CqField.key := by
      intro i hi
      obtain ⟨v, hv⟩ := Option.ne_none_iff_exists'.1 (hno i hi)
      obtain ⟨e, he, -⟩ := Option.map_eq_some_iff.1 hv
      have hk : e.key = itemKey pre i s := by simpa using List.find?_some he
      exact List.mem_map.2 ⟨e, List.mem_of_find?_eq_some he, hk⟩
    have hnodup : ((List.range (f.items.length + 1)).map fun i => itemKey pre i s).Nodup :=
      List.nodup_range.map fun i j h => itemKey_index_inj h
    have hsub : ((List.range (f.items.length + 1)).map fun i => itemKey pre i s) ⊆
        f.items.map CqField.key := by
      intro k hk
      obtain ⟨i, hi, rfl⟩ := List.mem_map.1 hk
      exact hmem i (by simpa [Nat.lt_succ_iff] using hi)
    have hle := (List.subperm_of_subset hnodup hsub).length_le
    simp only [List.length_map, List.length_range] at hle
    omega
  classical
  refine ⟨Nat.find hex, (Nat.find_spec hex).1, (Nat.find_spec hex).2, ?_⟩
  intro i hi hnone
  exact Nat.find_min hex hi ⟨(le_of_lt hi).trans (Nat.find_spec hex).1, hnone⟩

/-- **The scan of every field set ends at its first missing index.** It has collected the items
below that index, and more rounds add nothing. -/
theorem gapScan_stops {α : Type} (f : CqFields) (pre s : CStr)
    (itemAt : Nat → Option α) (hitem : ∀ i, itemAt i = none ↔ fieldFor f pre i s = none) :
    ∃ n, fieldFor f pre n s = none ∧ (∀ i, i < n → fieldFor f pre i s ≠ none) ∧
      ∀ fuel, f.items.length < fuel →
        gapScan itemAt fuel 0 = (List.range n).filterMap itemAt := by
  obtain ⟨n, hn, hgap, hall⟩ := exists_gap f pre s
  refine ⟨n, hgap, hall, ?_⟩
  intro fuel hf
  rw [gapScan_eq_filterMap itemAt ((hitem n).2 hgap) fuel 0 (Nat.zero_le n) (by omega)
    fun j _ hj h => hall j hj ((hitem j).1 h), Nat.sub_zero, List.range_eq_range']

end Casquinha.Wire
