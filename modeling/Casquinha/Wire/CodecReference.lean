import Casquinha.Lib.AssocList
import Casquinha.Wire.Codec

/-!
# Reference semantics of the field codec

A buffer is split at LF, one trailing CR is dropped from each line, and a line whose first TAB is at
a position `> 0` gives the pair left and right of that TAB. `cqFieldsParse` stores exactly these
pairs, one after the other (`cqFieldsParse_eq_foldl`). On NUL-free buffers the field set of a
sequence of documents is the ordered association list of all their pairs with the last value of
each key (`cqFieldsParse_reference`).
-/

set_option autoImplicit false

namespace Casquinha.Wire

open Lib

/-! ## The reference -/

/-- Drop one trailing CR. -/
def stripCr (l : Bytes) : Bytes := if l.getLast? = some CR then l.dropLast else l

/-- The pair of a line: left and right of its first TAB, when that TAB is at a position `> 0`. -/
def keyValue (l : Bytes) : Option (Bytes × Bytes) :=
  match l.idxOf? TAB with
  | some t => if 0 < t then some (l.take t, l.drop (t + 1)) else none
  | none => none

/-- The pairs of a list of lines. -/
def pairsOfLines (ls : List Bytes) : List (Bytes × Bytes) :=
  ls.filterMap fun l => keyValue (stripCr l)

/-- The pairs of a buffer, in order. -/
def pairsOf (b : Bytes) : List (Bytes × Bytes) := pairsOfLines (b.splitOn LF)

/-- The pairs of a sequence of buffers, in order. -/
def pairsOfAll (bufs : List Bytes) : List (Bytes × Bytes) := bufs.flatMap pairsOf

/-- The same text with CRLF line ends. -/
def toCrlf (b : Bytes) : Bytes := b.flatMap fun c => if c = LF then [CR, LF] else [c]

/-- Store a list of pairs. -/
def putPairs (f : CqFields) (ps : List (Bytes × Bytes)) : CqFields :=
  ps.foldl (fun f p => fieldsPut f p.1 p.2) f

theorem putPairs_append (f : CqFields) (ps qs : List (Bytes × Bytes)) :
    putPairs f (ps ++ qs) = putPairs (putPairs f ps) qs :=
  List.foldl_append

theorem pairsOfLines_append (ls ms : List Bytes) :
    pairsOfLines (ls ++ ms) = pairsOfLines ls ++ pairsOfLines ms :=
  List.filterMap_append

/-! ## The index loops -/

/-- The line-end loop stops at the first LF at or after `e`, or at the end of the buffer. -/
theorem lineEnd_eq (data : Bytes) :
    ∀ (fuel e : Nat), e ≤ data.length → data.length - e ≤ fuel →
      lineEnd data fuel e = e + ((data.drop e).takeWhile (· ≠ LF)).length := by
  intro fuel
  induction fuel with
  | zero =>
      intro e he hf
      have : data.drop e = [] := List.drop_eq_nil_of_le (by omega)
      simp [lineEnd, this]
  | succ fuel ih =>
      intro e he hf
      rw [lineEnd]
      by_cases hlt : e < data.length
      · rw [List.drop_eq_getElem_cons hlt, List.getElem?_eq_getElem hlt]
        by_cases hc : data[e] = LF
        · -- the LF itself ends the loop
          simp [hc]
        · -- any other byte is passed over
          have hs := ih (e + 1) hlt (by omega)
          simp only [hlt, true_and, ne_eq, Option.some.injEq, hc, not_false_eq_true, if_true, hs,
            List.takeWhile_cons, decide_true, List.length_cons]
          omega
      · have : data.drop e = [] := List.drop_eq_nil_of_le (by omega)
        simp [hlt, this]

/-- Reading the buffer inside a line reads the line. -/
theorem getElem?_add_of_lt {data : Bytes} {start n i : Nat} (hi : i < n) :
    data[start + i]? = (slice data start n)[i]? := by
  rw [slice, List.getElem?_take_of_lt hi, List.getElem?_drop]

theorem findTab_eq (data : Bytes) (start n : Nat) (hn : n ≤ (data.drop start).length) :
    ∀ (fuel i : Nat), i ≤ n → n - i ≤ fuel →
      findTab data start n fuel i =
        (((slice data start n).drop i).idxOf? TAB).map (· + i) := by
  have hlen : (slice data start n).length = n := by
    rw [slice, List.length_take, Nat.min_eq_left hn]
  intro fuel
  induction fuel with
  | zero =>
      intro i hi hf
      have : (slice data start n).drop i = [] := List.drop_eq_nil_of_le (by omega)
      simp [findTab, this]
  | succ fuel ih =>
      intro i hi hf
      rw [findTab]
      by_cases hlt : i < n
      · have hlt' : i < (slice data start n).length := by omega
        rw [if_pos hlt, getElem?_add_of_lt hlt, List.getElem?_eq_getElem hlt',
          List.drop_eq_getElem_cons hlt', List.idxOf?_cons]
        by_cases hc : (slice data start n)[i] = TAB
        · -- the first TAB
          simp [hc]
        · -- it lies one byte further on than in what remains
          rw [ih (i + 1) hlt (by omega)]
          simp only [Option.some.injEq, hc, if_false, beq_eq_false_iff_ne.2 hc, Option.map_map,
            Bool.false_eq_true]
          congr 1
          funext x
          simp only [Function.comp_apply]
          omega
      · have : (slice data start n).drop i = [] := List.drop_eq_nil_of_le (by omega)
        simp [hlt, this]

/-- The length of a line without its trailing CR. -/
theorem take_stripCr (l : Bytes) :
    stripCr l = l.take (if 0 < l.length ∧ l[l.length - 1]? = some CR then l.length - 1
      else l.length) := by
  rw [stripCr, List.getLast?_eq_getElem?]
  by_cases h : l[l.length - 1]? = some CR
  · -- a line that ends in CR is not empty
    have hpos : 0 < l.length := by
      have := (List.getElem?_eq_some_iff.1 h).1
      omega
    rw [if_pos h, if_pos ⟨hpos, h⟩, List.dropLast_eq_take]
  · rw [if_neg h, if_neg fun hh => h hh.2, List.take_length]

/-- One round of the parse loop stores the pair of its line. -/
theorem fieldsLine_eq (f : CqFields) (data l : Bytes) (start : Nat)
    (hl : slice data start l.length = l) :
    fieldsLine f data start (start + l.length) = putPairs f (pairsOfLines [l]) := by
  have hle : l.length ≤ (data.drop start).length := by
    have := congrArg List.length hl
    simp only [slice, List.length_take] at this
    omega
  -- the source looks at the byte before the line end, which is the last one of the line
  have hcr : data[start + l.length - 1]? = some CR ∧ 0 < l.length ↔
      0 < l.length ∧ l[l.length - 1]? = some CR := by
    constructor
    · rintro ⟨h, hpos⟩
      rw [show start + l.length - 1 = start + (l.length - 1) by omega,
        getElem?_add_of_lt (show l.length - 1 < l.length by omega), hl] at h
      exact ⟨hpos, h⟩
    · rintro ⟨hpos, h⟩
      rw [show start + l.length - 1 = start + (l.length - 1) by omega,
        getElem?_add_of_lt (show l.length - 1 < l.length by omega), hl]
      exact ⟨h, hpos⟩
  simp only [fieldsLine, show start + l.length - start = l.length by omega]
  simp only [and_comm (a := 0 < l.length) (b := data[start + l.length - 1]? = some CR), hcr]
  generalize hn : (if 0 < l.length ∧ l[l.length - 1]? = some CR then l.length - 1
    else l.length) = n
  have hnl : n ≤ l.length := by
    rw [← hn]
    split <;> omega
  -- `n` is the length of the line without its CR
  have hstrip : slice data start n = stripCr l := by
    rw [take_stripCr, hn]
    conv_rhs => rw [← hl, slice, List.take_take, Nat.min_eq_left hnl]
    rfl
  rw [findTab_eq data start n (by omega) n 0 (by omega) (by omega), List.drop_zero, hstrip]
  simp only [pairsOfLines, List.filterMap_cons, List.filterMap_nil, keyValue]
  cases ht : (stripCr l).idxOf? TAB with
  | none => simp [putPairs]
  | some t =>
      have htl : t < (stripCr l).length := by
        obtain ⟨h, -⟩ := List.idxOf?_eq_some_iff.1 ht
        exact h
      have hlen : (stripCr l).length = n := by
        rw [← hstrip]
        simp only [slice, List.length_take]
        omega
      simp only [Option.map_some, Nat.add_zero]
      -- a line that begins with a tab has no key
      by_cases hpos : 0 < t
      · have hk : slice data start t = (stripCr l).take t := by
          rw [← hstrip, slice, slice, List.take_take, Nat.min_eq_left (by omega)]
        have hv : slice data (start + t + 1) (n - t - 1) = (stripCr l).drop (t + 1) := by
          rw [← hstrip, slice, slice, List.drop_take, List.drop_drop, Nat.add_assoc,
            Nat.sub_sub]
        simp [hpos, hk, hv, putPairs]
      · simp [hpos, putPairs]

/-- A text is its first line, and, when that line ends in LF, the lines after it. -/
theorem splitOn_eq_takeWhile (r : Bytes) :
    r.splitOn LF = r.takeWhile (· ≠ LF) ::
      match r.dropWhile (· ≠ LF) with
      | [] => []
      | _ :: d => d.splitOn LF := by
  induction r with
  | nil => rfl
  | cons c r ih =>
      rw [List.splitOn_cons_eq_if_modifyHead]
      by_cases hc : c = LF
      · simp [hc]
      · simp [hc, ih]

/-- The parse loop from `start` stores the pairs of the text from `start` on. -/
theorem fieldsLoop_eq (data : Bytes) :
    ∀ (fuel start : Nat) (f : CqFields), start ≤ data.length → data.length - start < fuel →
      fieldsLoop data fuel start f = putPairs f (pairsOf (data.drop start)) := by
  intro fuel
  induction fuel with
  | zero => intro start f hs hf; omega
  | succ fuel ih =>
      intro start f hs hf
      rw [fieldsLoop, if_pos hs, lineEnd_eq data data.length start hs (by omega)]
      generalize hl : (data.drop start).takeWhile (· ≠ LF) = l
      -- what remains is a line, and what follows it
      have hsplit : data.drop start = l ++ (data.drop start).dropWhile (· ≠ LF) := by
        rw [← hl, List.takeWhile_append_dropWhile]
      have hslice : slice data start l.length = l := by
        rw [slice, hsplit, List.take_left]
      have hrest : data.drop (start + l.length) = (data.drop start).dropWhile (· ≠ LF) := by
        rw [← List.drop_drop, hsplit, List.drop_left, ← hsplit]
      simp only [fieldsLine_eq f data l start hslice]
      rw [pairsOf, splitOn_eq_takeWhile, hl, ← hrest]
      by_cases hend : data.length ≤ start + l.length
      · -- the last line: nothing follows it
        rw [if_pos hend, List.drop_eq_nil_of_le hend]
      · -- the next round starts behind the LF
        have hlt : start + l.length < data.length := by omega
        rw [if_neg hend, ih _ _ (by omega) (by omega), List.drop_eq_getElem_cons hlt, pairsOf,
          ← putPairs_append, ← pairsOfLines_append]
        rfl

/-- Parsing a document stores its pairs in order. -/
theorem cqFieldsParse_eq_putPairs (f : CqFields) (data : Bytes) :
    cqFieldsParse f data = putPairs f (pairsOf data) := by
  rw [cqFieldsParse]
  by_cases h : data.length = 0
  · rw [if_pos h, List.length_eq_zero_iff.1 h]
    rfl
  · rw [if_neg h, fieldsLoop_eq data _ 0 f (by omega) (by omega), List.drop_zero]

theorem foldl_cqFieldsParse (bufs : List Bytes) (f : CqFields) :
    bufs.foldl cqFieldsParse f = putPairs f (pairsOfAll bufs) := by
  induction bufs generalizing f with
  | nil => rfl
  | cons b bufs ih =>
      rw [List.foldl_cons, ih, cqFieldsParse_eq_putPairs, ← putPairs_append]
      rfl

/-! ## The store -/

/-- The stored pairs. -/
def storedPairs (f : CqFields) : List (Bytes × Bytes) :=
  f.items.map fun e => (e.key.bytes, e.value.bytes)

@[simp] theorem storedPairs_init : storedPairs cqFieldsInit = [] := rfl

theorem keyIs_iff (k : Bytes) (e : CqField) : keyIs k e = true ↔ e.key.bytes = k := by
  simp only [keyIs, CStr.length, Bool.and_eq_true, beq_iff_eq]
  constructor
  · -- `strncmp` over the whole key, and the key ends there
    rintro ⟨hlen, htake⟩
    rw [← htake, ← hlen, List.take_length]
  · rintro rfl
    exact ⟨rfl, List.take_length⟩

/-- A store changes the first entry, or one behind it. -/
theorem fieldsPut_cons (e : CqField) (items : List CqField) (k v : Bytes) :
    fieldsPut ⟨e :: items⟩ k v =
      if e.key.bytes = k then ⟨{ e with value := dupRange v } :: items⟩
      else ⟨e :: (fieldsPut ⟨items⟩ k v).items⟩ := by
  by_cases he : e.key.bytes = k
  · rw [fieldsPut, List.findIdx?_cons, if_pos ((keyIs_iff k e).2 he), if_pos he]
    rfl
  · have hne : keyIs k e = false := by
      rw [← Bool.not_eq_true, keyIs_iff]
      exact he
    rw [fieldsPut, fieldsPut, List.findIdx?_cons, hne, if_neg he]
    cases items.findIdx? (keyIs k) <;> rfl

/-- On NUL-free text the in-place store is the last-value-wins insertion. -/
theorem storedPairs_fieldsPut (f : CqFields) {k v : Bytes} (hk : (0 : UInt8) ∉ k)
    (hv : (0 : UInt8) ∉ v) :
    storedPairs (fieldsPut f k v) = AssocList.insertLast (storedPairs f) k v := by
  obtain ⟨items⟩ := f
  induction items with
  | nil =>
      simp [fieldsPut, storedPairs, AssocList.insertLast, dupRange, cstr_bytes_of_nulFree hk,
        cstr_bytes_of_nulFree hv]
  | cons e items ih =>
      rw [fieldsPut_cons]
      simp only [storedPairs] at ih
      by_cases he : e.key.bytes = k
      · simp [storedPairs, AssocList.insertLast, he, dupRange, cstr_bytes_of_nulFree hv]
      · simp only [storedPairs, if_neg he, List.map_cons, AssocList.insertLast, ih]

/-- A lookup in the field set is a lookup among the stored pairs. -/
theorem cqFieldsGet_eq_get (f : CqFields) (k : CStr) :
    (cqFieldsGet f k).map CStr.bytes = AssocList.get (storedPairs f) k.bytes := by
  obtain ⟨items⟩ := f
  induction items with
  | nil => rfl
  | cons e items ih =>
      simp only [cqFieldsGet, storedPairs] at ih
      simp only [cqFieldsGet, storedPairs, List.map_cons, AssocList.get_cons, List.find?_cons]
      -- entries are told apart by their bytes
      by_cases he : e.key = k
      · simp [he]
      · have hb : ¬ e.key.bytes = k.bytes := fun h => he (CStr.ext' h)
        simp [he, hb, ih]

/-! ## Lookups -/

theorem cqFieldsGet_cons (e : CqField) (items : List CqField) (key : CStr) :
    cqFieldsGet ⟨e :: items⟩ key = if e.key = key then some e.value else cqFieldsGet ⟨items⟩ key := by
  simp only [cqFieldsGet, List.find?_cons]
  by_cases h : e.key = key <;> simp [h]

/-- What a key reads after a line is stored. A line with this very key gives its value; a line whose
key only begins like it, up to a NUL, is read where nothing is stored under the key yet. -/
theorem get_fieldsPut (f : CqFields) (k v : Bytes) (key : CStr) :
    cqFieldsGet (fieldsPut f k v) key =
      if dupRange k ≠ key then cqFieldsGet f key
      else if k = key.bytes then some (dupRange v)
      else (cqFieldsGet f key).or (some (dupRange v)) := by
  obtain ⟨items⟩ := f
  induction items with
  | nil =>
      by_cases hk : dupRange k = key <;> simp [fieldsPut, cqFieldsGet, hk]
  | cons e items ih =>
      rw [fieldsPut_cons, cqFieldsGet_cons]
      by_cases he : e.key.bytes = k
      · -- the entry has the very key: its value is replaced
        have hk : dupRange k = e.key := by rw [← he, dupRange, cstr_bytes]
        rw [if_pos he, cqFieldsGet_cons, hk]
        by_cases heq : e.key = key
        · simp [heq, ← he]
        · simp [heq]
      · rw [if_neg he, cqFieldsGet_cons]
        by_cases heq : e.key = key
        · -- an entry before it already reads as the key, and hides it
          have hne : k ≠ key.bytes := fun h => he (by rw [heq, h])
          simp [heq, hne]
        · simpa only [if_neg heq] using ih

theorem get_fieldsPut_self (f : CqFields) (key : CStr) (v : Bytes) :
    cqFieldsGet (fieldsPut f key.bytes v) key = some (dupRange v) := by
  simp [get_fieldsPut, dupRange]

/-- Storing under another key, with or without a NUL in it, leaves a lookup alone. -/
theorem get_fieldsPut_of_ne (f : CqFields) {k : Bytes} (v : Bytes) {key : CStr}
    (h : dupRange k ≠ key) : cqFieldsGet (fieldsPut f k v) key = cqFieldsGet f key := by
  rw [get_fieldsPut, if_pos h]

/-- Only a line with the very key replaces a value. -/
theorem get_fieldsPut_of_some {f : CqFields} {key x : CStr} {k : Bytes} (hk : k ≠ key.bytes)
    (h : cqFieldsGet f key = some x) (v : Bytes) : cqFieldsGet (fieldsPut f k v) key = some x := by
  simp [get_fieldsPut, hk, h]

/-- A key is absent when no line is stored under it. -/
theorem get_fieldsPut_eq_none_iff (f : CqFields) (key : CStr) (k v : Bytes) :
    cqFieldsGet (fieldsPut f k v) key = none ↔ cqFieldsGet f key = none ∧ dupRange k ≠ key := by
  rw [get_fieldsPut]
  by_cases hk : dupRange k = key
  · rw [if_neg (not_not.2 hk), hk]
    split <;> simp
  · simp [hk]

theorem putPairs_cons (f : CqFields) (p : Bytes × Bytes) (ps : List (Bytes × Bytes)) :
    putPairs f (p :: ps) = putPairs (fieldsPut f p.1 p.2) ps := rfl

theorem get_putPairs_of_ne {ps : List (Bytes × Bytes)} {key : CStr}
    (h : ∀ p ∈ ps, dupRange p.1 ≠ key) (f : CqFields) :
    cqFieldsGet (putPairs f ps) key = cqFieldsGet f key := by
  induction ps generalizing f with
  | nil => rfl
  | cons p ps ih =>
      obtain ⟨hp, hps⟩ := List.forall_mem_cons.1 h
      rw [putPairs_cons, ih hps, get_fieldsPut_of_ne f p.2 hp]

theorem get_putPairs_of_some {ps : List (Bytes × Bytes)} {f : CqFields} {key x : CStr}
    (hps : ∀ p ∈ ps, p.1 ≠ key.bytes) (h : cqFieldsGet f key = some x) :
    cqFieldsGet (putPairs f ps) key = some x := by
  induction ps generalizing f with
  | nil => exact h
  | cons p ps ih =>
      obtain ⟨hp, hps⟩ := List.forall_mem_cons.1 hps
      exact ih hps (get_fieldsPut_of_some hp h p.2)

theorem get_putPairs_eq_none_iff (ps : List (Bytes × Bytes)) (f : CqFields) (key : CStr) :
    cqFieldsGet (putPairs f ps) key = none ↔
      cqFieldsGet f key = none ∧ ∀ p ∈ ps, dupRange p.1 ≠ key := by
  induction ps generalizing f with
  | nil => simp [putPairs]
  | cons p ps ih =>
      rw [putPairs_cons, ih, get_fieldsPut_eq_none_iff, List.forall_mem_cons, and_assoc]

/-! ## NUL-free text -/

theorem mem_of_mem_splitOn {b l : Bytes} (hl : l ∈ b.splitOn LF) {x : UInt8} (hx : x ∈ l) :
    x ∈ b := by
  induction b generalizing l with
  | nil => simp_all
  | cons c b ih =>
      rw [List.splitOn_cons_eq_if_modifyHead] at hl
      split at hl
      · rcases List.mem_cons.1 hl with rfl | hl
        · simp at hx
        · -- a line behind the first LF
          exact List.mem_cons_of_mem _ (ih hl hx)
      · generalize hs : b.splitOn LF = s at hl ih
        cases s with
        | nil => simp at hl
        | cons l₀ s =>
            rcases List.mem_cons.1 hl with rfl | hl
            · -- the first line is one byte longer
              rcases List.mem_cons.1 hx with rfl | hx
              · exact List.mem_cons_self
              · exact List.mem_cons_of_mem _ (ih List.mem_cons_self hx)
            · exact List.mem_cons_of_mem _ (ih (List.mem_cons_of_mem _ hl) hx)

theorem mem_of_mem_stripCr {l : Bytes} {x : UInt8} (hx : x ∈ stripCr l) : x ∈ l := by
  rw [stripCr] at hx
  split at hx
  · exact List.dropLast_subset _ hx
  · exact hx

/-- The two sides of a pair are pieces of its line. -/
theorem mem_of_keyValue {l k v : Bytes} (h : keyValue l = some (k, v)) {x : UInt8}
    (hx : x ∈ k ∨ x ∈ v) : x ∈ l := by
  rw [keyValue] at h
  split at h
  · split at h
    · simp only [Option.some.injEq, Prod.mk.injEq] at h
      obtain ⟨rfl, rfl⟩ := h
      exact hx.elim List.mem_of_mem_take List.mem_of_mem_drop
    · simp at h
  · simp at h

theorem nulFree_of_mem_pairsOf {b : Bytes} (hb : (0 : UInt8) ∉ b) {p : Bytes × Bytes}
    (hp : p ∈ pairsOf b) : (0 : UInt8) ∉ p.1 ∧ (0 : UInt8) ∉ p.2 := by
  obtain ⟨l, hl, hkv⟩ := List.mem_filterMap.1 hp
  have hsub : ∀ x : UInt8, x ∈ p.1 ∨ x ∈ p.2 → x ∈ b := fun x hx =>
    mem_of_mem_splitOn hl (mem_of_mem_stripCr (mem_of_keyValue hkv hx))
  exact ⟨fun h => hb (hsub 0 (Or.inl h)), fun h => hb (hsub 0 (Or.inr h))⟩

theorem storedPairs_putPairs (ps : List (Bytes × Bytes))
    (h : ∀ p ∈ ps, (0 : UInt8) ∉ p.1 ∧ (0 : UInt8) ∉ p.2) (f : CqFields) :
    storedPairs (putPairs f ps) = AssocList.insertAll (storedPairs f) ps := by
  induction ps generalizing f with
  | nil => rfl
  | cons p ps ih =>
      obtain ⟨hk, hv⟩ := h p List.mem_cons_self
      rw [AssocList.insertAll_cons, ← storedPairs_fieldsPut f hk hv]
      exact ih (fun q hq => h q (List.mem_cons_of_mem _ hq)) _

/-- The field set of NUL-free buffers is the association list of their pairs. -/
theorem storedPairs_foldl {bufs : List Bytes} (h : ∀ b ∈ bufs, (0 : UInt8) ∉ b) :
    storedPairs (bufs.foldl cqFieldsParse cqFieldsInit) = AssocList.ofPairs (pairsOfAll bufs) := by
  rw [foldl_cqFieldsParse, storedPairs_putPairs]
  · rfl
  · intro p hp
    obtain ⟨b, hb, hpb⟩ := List.mem_flatMap.1 hp
    exact nulFree_of_mem_pairsOf (h b hb) hpb

/-! ## Joining buffers and line ends -/

theorem pairsOf_append_LF (a b : Bytes) : pairsOf (a ++ LF :: b) = pairsOf a ++ pairsOf b := by
  simp only [pairsOf, List.splitOn_append_cons_self, pairsOfLines_append]

/-- The pairs of a document are the pairs of its lines. -/
theorem pairsOf_intercalate {lines : List Bytes} (h : ∀ l ∈ lines, LF ∉ l) :
    pairsOf ([LF].intercalate lines) = pairsOfLines lines := by
  by_cases hne : lines = []
  · subst hne
    rfl
  · rw [pairsOf, List.splitOn_intercalate LF h hne]

/-- Parsing two buffers one after the other is parsing them with LF in between. -/
theorem cqFieldsParse_append_LF (f : CqFields) (a b : Bytes) :
    cqFieldsParse f (a ++ LF :: b) = cqFieldsParse (cqFieldsParse f a) b := by
  simp only [cqFieldsParse_eq_putPairs, pairsOf_append_LF, putPairs_append]

theorem stripCr_append_CR (l : Bytes) : stripCr (l ++ [CR]) = l := by
  simp [stripCr]

theorem stripCr_of_notMem {l : Bytes} (h : CR ∉ l) : stripCr l = l := by
  rw [stripCr, if_neg]
  intro hl
  exact h (List.mem_of_getLast? hl)

/-- CRLF line ends give the lines of the LF text with a CR after each line but the last. -/
theorem splitOn_toCrlf (b : Bytes) :
    (toCrlf b).splitOn LF = (b.splitOn LF).dropLast.map (· ++ [CR]) ++
      [(b.splitOn LF).getLast (List.splitOn_ne_nil LF b)] := by
  induction b with
  | nil => rfl
  | cons c b ih =>
      -- a CR goes before every LF, so every line but the last ends in one
      by_cases hc : c = LF
      · subst hc
        have hcons : (LF :: b).splitOn LF = [] :: b.splitOn LF := by
          rw [List.splitOn_cons_eq_if_modifyHead]
          simp
        have hcr : toCrlf (LF :: b) = [CR] ++ LF :: toCrlf b := by simp [toCrlf]
        rw [hcr, List.splitOn_append_cons_self, ih]
        simp only [hcons, List.dropLast_cons_of_ne_nil (List.splitOn_ne_nil LF b),
          List.getLast_cons (List.splitOn_ne_nil LF b)]
        rfl
      · have hcr : toCrlf (c :: b) = c :: toCrlf b := by simp [toCrlf, hc]
        have hcons : ∀ t : Bytes, (c :: t).splitOn LF = (t.splitOn LF).modifyHead (c :: ·) := by
          intro t
          rw [List.splitOn_cons_eq_if_modifyHead]
          simp [hc]
        have key : ∀ (ls : List Bytes) (hne : ls ≠ []) (hne' : ls.modifyHead (c :: ·) ≠ []),
            (ls.dropLast.map (· ++ [CR]) ++ [ls.getLast hne]).modifyHead (c :: ·) =
              (ls.modifyHead (c :: ·)).dropLast.map (· ++ [CR]) ++
                [(ls.modifyHead (c :: ·)).getLast hne'] := by
          intro ls hne hne'
          match ls, hne with
          | [l], _ => rfl
          | l :: l' :: ls, _ => rfl
        rw [hcr, hcons, ih]
        simp only [hcons b]
        exact key _ _ _

/-- Rewriting every LF of a CR-free buffer as CRLF does not change the field set. -/
theorem cqFieldsParse_toCrlf (f : CqFields) {b : Bytes} (h : CR ∉ b) :
    cqFieldsParse f (toCrlf b) = cqFieldsParse f b := by
  have hline : ∀ l ∈ b.splitOn LF, stripCr l = l := fun l hl =>
    stripCr_of_notMem fun hx => h (mem_of_mem_splitOn hl hx)
  have hne := List.splitOn_ne_nil LF b
  rw [cqFieldsParse_eq_putPairs, cqFieldsParse_eq_putPairs, pairsOf, pairsOf, splitOn_toCrlf]
  conv_rhs => rw [← List.dropLast_append_getLast hne]
  rw [pairsOfLines_append, pairsOfLines_append]
  congr 2
  rw [pairsOfLines, List.filterMap_map]
  refine List.filterMap_congr fun l hl => ?_
  rw [Function.comp_apply, stripCr_append_CR, hline l (List.dropLast_subset _ hl)]

/-! ## The field set of a sequence of documents -/

/-- The field set of NUL-free buffers is the ordered association list of their pairs: distinct keys
in order of first occurrence, each with its last value. Parsing `a` then `b` is parsing `a`, LF,
`b`, and CRLF line ends parse as LF line ends. -/
theorem cqFieldsParse_reference (bufs : List Bytes) (h : ∀ b ∈ bufs, (0 : UInt8) ∉ b) :
    let f := bufs.foldl cqFieldsParse cqFieldsInit
    storedPairs f = AssocList.lastWins (pairsOfAll bufs) ∧
      (f.items.map CqField.key).Nodup ∧
      (∀ k : CStr, (cqFieldsGet f k).map CStr.bytes =
        AssocList.lastValue (pairsOfAll bufs) k.bytes) ∧
      (∀ a b : Bytes, cqFieldsParse (cqFieldsParse f a) b = cqFieldsParse f (a ++ LF :: b)) ∧
      (∀ b : Bytes, CR ∉ b → cqFieldsParse f (toCrlf b) = cqFieldsParse f b) := by
  intro f
  have hstored : storedPairs f = AssocList.ofPairs (pairsOfAll bufs) := storedPairs_foldl h
  refine ⟨?_, ?_, ?_, fun a b => (cqFieldsParse_append_LF f a b).symm,
    fun b hb => cqFieldsParse_toCrlf f hb⟩
  · rw [hstored, AssocList.ofPairs_eq_lastWins]
  · have hkeys : (f.items.map CqField.key).map CStr.bytes = AssocList.keys (storedPairs f) := by
      simp [storedPairs, AssocList.keys]
    apply List.Nodup.of_map CStr.bytes
    rw [hkeys, hstored]
    exact AssocList.nodup_keys_ofPairs _
  · intro k
    rw [cqFieldsGet_eq_get, hstored, AssocList.get_ofPairs]

theorem cqFieldsParse_reference_sample :
    storedPairs ([ascii "k\ta\r\n\tx\nj\t\n", ascii "k\tb\tc"].foldl cqFieldsParse cqFieldsInit) =
      [(ascii "k", ascii "b\tc"), (ascii "j", [])] := by
  rw [(cqFieldsParse_reference _ (by decide)).1]
  decide

end Casquinha.Wire
