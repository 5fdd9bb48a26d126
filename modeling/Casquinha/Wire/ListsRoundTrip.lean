import Casquinha.Wire.CodecReference
import Casquinha.Wire.Lists

/-!
# Decoding undoes encoding for list blocks

A track list, an artist list and an album list are rendered as `item.<i>.*`, `artist.<i>.*` and
`album.<i>.*` lines. Whatever the order of the lines, and whatever lines with other keys stand among
them, the list decoders give the lists back (`lists_roundTrip`).

The argument has two halves. A field set filled from a document whose lines with one key agree holds
that value under the key (`cqFieldsGet_document`). Item keys are injective, so each key of a rendered
list has one value at most (`mem_rowsPairs`).
-/

set_option autoImplicit false

namespace Casquinha.Wire

open Lib

/-! ## Numbers -/

/-- Digits are not skipped, are no sign, and keep the accumulator below the sign bit. -/
theorem parseDigits_eq (b : Bytes) (hb : ∀ c ∈ b, IsDigitByte c) :
    ∀ acc : Nat, decValue acc b < 2 ^ 63 → parseDigits (acc : Int) b = (decValue acc b : Int) := by
  induction b with
  | nil => intro acc _; rfl
  | cons c b ih =>
      intro acc h
      have hc : IsDigitByte c := hb c List.mem_cons_self
      have h48 : 48 ≤ c.toNat := UInt8.le_iff_toNat_le.1 hc.1
      have hmono : ∀ (l : Bytes) (m : Nat), m ≤ decValue m l := by
        intro l
        induction l with
        | nil => exact fun m => le_refl m
        | cons d l ihl =>
            intro m
            exact le_trans (by omega) (ihl (m * 10 + (d.toNat - 48)))
      have hlt : acc * 10 + (c.toNat - 48) < 2 ^ 63 := lt_of_le_of_lt (hmono b _) h
      have hcast : ((acc : Int) * 10 + ((c.toNat : Int) - 48)) =
          ((acc * 10 + (c.toNat - 48) : Nat) : Int) := by omega
      have hmod : (((acc * 10 + (c.toNat - 48) : Nat) : Int)).bmod (2 ^ 64) =
          ((acc * 10 + (c.toNat - 48) : Nat) : Int) := by
        refine Int.bmod_eq_of_le ?_ ?_ <;> omega
      rw [parseDigits, if_pos hc, hcast, hmod]
      exact ih (fun d hd => hb d (List.mem_cons_of_mem _ hd)) _ h

/-- A non-negative 64-bit number is read back from its decimal text. -/
theorem cqParseLl_decimal {n : Nat} (h : n < 2 ^ 63) : cqParseLl (some (decimal n)) = n := by
  have hdig : ∀ c ∈ decimalBytes n, IsDigitByte c := fun c hc => isDigitByte_of_mem_decimalBytes hc
  have hval := parseDigits_eq (decimalBytes n) hdig 0 (by rw [decValue_decimalBytes]; exact h)
  rw [decValue_decimalBytes] at hval
  cases hb : decimalBytes n with
  | nil => exact absurd hb (decimalBytes_ne_nil n)
  | cons c rest =>
      have hc : IsDigitByte c := hdig c (by rw [hb]; exact List.mem_cons_self)
      have hspace : isSpaceByte c = false := by
        have hs : ∀ d : UInt8, ¬ IsDigitByte d → c ≠ d := fun d hd hcd => hd (hcd ▸ hc)
        simp [isSpaceByte, hs 32 (by decide), hs 9 (by decide), hs 10 (by decide),
          hs 13 (by decide), hs 11 (by decide), hs 12 (by decide)]
      have h43 : c ≠ 43 := fun h43 => absurd (h43 ▸ hc) (by decide)
      have h45 : c ≠ 45 := fun h45 => absurd (h45 ▸ hc) (by decide)
      rw [hb] at hval
      simp only [cqParseLl, bytes_decimal, hb, List.dropWhile_cons, hspace, Bool.false_eq_true,
        if_false, if_neg h43, if_neg h45]
      exact hval

/-! ## Looking a key up after storing pairs -/

/-- When every pair with a key carries the same value, the field set holds that value. -/
theorem cqFieldsGet_putPairs (ps : List (Bytes × Bytes)) {key value : CStr}
    (h : ∀ p ∈ ps, cstr p.1 = key → p = (key.bytes, value.bytes)) (f : CqFields)
    (hmem : (key.bytes, value.bytes) ∈ ps ∨ cqFieldsGet f key = some value) :
    cqFieldsGet (putPairs f ps) key = some value := by
  induction ps generalizing f with
  | nil => exact hmem.resolve_left List.not_mem_nil
  | cons p ps ih =>
      refine ih (fun q hq => h q (List.mem_cons_of_mem _ hq)) _ ?_
      by_cases hp : cstr p.1 = key
      · right
        rw [h p List.mem_cons_self hp, get_fieldsPut_self, dupRange, cstr_bytes]
      · have hne : (key.bytes, value.bytes) ≠ p := by
          rintro rfl
          exact hp (cstr_bytes key)
        rcases hmem with hmem | hmem
        · exact Or.inl ((List.mem_cons.1 hmem).resolve_left hne)
        · exact Or.inr ((get_fieldsPut_of_ne f p.2 hp).trans hmem)

/-! ## Documents -/

/-- A text that survives a line: no LF in it and no CR at its end. -/
def IsLineText (t : CStr) : Prop := LF ∉ t.bytes ∧ t.bytes.getLast? ≠ some CR

instance (t : CStr) : Decidable (IsLineText t) := inferInstanceAs (Decidable (_ ∧ _))

/-- A key that a line can carry. -/
def IsLineKey (k : CStr) : Prop := LF ∉ k.bytes ∧ TAB ∉ k.bytes ∧ k.bytes ≠ []

/-- One `key<TAB>value` line. -/
def fieldLine (p : CStr × CStr) : Bytes := p.1.bytes ++ TAB :: p.2.bytes

/-- The line parser reads a rendered line back. -/
theorem keyValue_fieldLine {k v : CStr} (hk : IsLineKey k) (hv : IsLineText v) :
    keyValue (stripCr (fieldLine (k, v))) = some (k.bytes, v.bytes) := by
  have hlast : (fieldLine (k, v)).getLast? ≠ some CR := by
    cases hb : v.bytes with
    | nil => simp [fieldLine, hb, TAB, CR]
    | cons c t =>
        have := hv.2
        rw [hb] at this
        simpa [fieldLine, hb, List.getLast?_append, List.getLast?_cons_cons] using this
  have hidx : (fieldLine (k, v)).idxOf? TAB = some k.bytes.length := by
    have hnone : k.bytes.idxOf? TAB = none := List.idxOf?_eq_none_iff.2 hk.2.1
    rw [fieldLine, List.idxOf?, List.findIdx?_append]
    rw [List.idxOf?] at hnone
    simp [hnone, List.findIdx?_cons]
  have hpos : 0 < k.bytes.length := List.length_pos_iff.2 hk.2.2
  rw [stripCr, if_neg hlast, keyValue, hidx]
  simp [hpos, fieldLine]

theorem lf_notMem_fieldLine {k v : CStr} (hk : IsLineKey k) (hv : IsLineText v) :
    LF ∉ fieldLine (k, v) := by
  have htab : LF ≠ TAB := by decide
  simp [fieldLine, hk.1, hv.1, htab]

/-- **Lookup in a document.** Its lines are, in any order, the lines of `ps` and lines of which none
has the key: the field set holds the one value that `ps` gives to the key, if any. -/
theorem cqFieldsGet_document {ps : List (CStr × CStr)} {extras lines : List Bytes} {key : CStr}
    (hps : ∀ p ∈ ps, IsLineKey p.1 ∧ IsLineText p.2) (hextras : ∀ l ∈ extras, LF ∉ l)
    (hkey : ∀ l ∈ extras, ∀ p, keyValue (stripCr l) = some p → cstr p.1 ≠ key)
    (hperm : lines.Perm (ps.map fieldLine ++ extras)) {value : Option CStr}
    (hval : ∀ v, (key, v) ∈ ps ↔ value = some v) :
    cqFieldsGet (cqFieldsParse cqFieldsInit ([LF].intercalate lines)) key = value := by
  have hlf : ∀ l ∈ lines, LF ∉ l := by
    intro l hl
    rcases List.mem_append.1 (hperm.mem_iff.1 hl) with hl | hl
    · obtain ⟨p, hp, rfl⟩ := List.mem_map.1 hl
      exact lf_notMem_fieldLine (hps p hp).1 (hps p hp).2
    · exact hextras l hl
  -- a pair with this key comes from a line of `ps`
  have hof : ∀ q ∈ pairsOfLines lines, cstr q.1 = key → ∃ v, (key, v) ∈ ps ∧
      q = (key.bytes, v.bytes) := by
    intro q hq hqk
    obtain ⟨l, hl, hkv⟩ := List.mem_filterMap.1 hq
    rcases List.mem_append.1 (hperm.mem_iff.1 hl) with hl | hl
    · obtain ⟨p, hp, rfl⟩ := List.mem_map.1 hl
      rw [keyValue_fieldLine (hps p hp).1 (hps p hp).2, Option.some.injEq] at hkv
      subst hkv
      rw [cstr_bytes] at hqk
      subst hqk
      exact ⟨p.2, hp, rfl⟩
    · exact absurd hqk (hkey l hl q hkv)
  rw [cqFieldsParse_eq_putPairs, pairsOf_intercalate hlf]
  cases value with
  | none =>
      refine (get_putPairs_of_ne ?_ _).trans rfl
      intro q hq hqk
      obtain ⟨v, hv, -⟩ := hof q hq hqk
      exact Option.some_ne_none v ((hval v).1 hv).symm
  | some v =>
      have hv : (key, v) ∈ ps := (hval v).2 rfl
      refine cqFieldsGet_putPairs _ ?_ _ (Or.inl ?_)
      · intro q hq hqk
        obtain ⟨w, hw, rfl⟩ := hof q hq hqk
        rw [Option.some.inj ((hval w).1 hw)]
      · refine List.mem_filterMap.2 ⟨fieldLine (key, v), ?_, ?_⟩
        · exact hperm.mem_iff.2 (List.mem_append_left _ (List.mem_map_of_mem hv))
        · exact keyValue_fieldLine (hps _ hv).1 (hps _ hv).2

/-! ## Blocks -/

section Blocks

variable {α : Type}

/-- The fields of every row of a block, under their item keys; absent fields have no line. -/
def rowsPairs (pre : CStr) (fields : α → List (CStr × Option CStr)) (l : List α) :
    List (CStr × CStr) :=
  l.zipIdx.flatMap fun row =>
    (fields row.1).filterMap fun p => p.2.map fun v => (itemKey pre row.2 p.1, v)

theorem mem_rowsPairs {pre : CStr} {fields : α → List (CStr × Option CStr)} {l : List α}
    {k v : CStr} : (k, v) ∈ rowsPairs pre fields l ↔
      ∃ i a s, l[i]? = some a ∧ (s, some v) ∈ fields a ∧ k = itemKey pre i s := by
  simp only [rowsPairs, List.mem_flatMap, List.mem_filterMap, Option.map_eq_some_iff,
    List.mem_zipIdx_iff_getElem?, Prod.exists, Prod.mk.injEq]
  constructor
  · rintro ⟨a, i, ha, s, o, hs, w, rfl, rfl, rfl⟩
    exact ⟨i, a, s, ha, hs, rfl⟩
  · rintro ⟨i, a, s, ha, hs, rfl⟩
    exact ⟨a, i, ha, s, some v, hs, v, rfl, rfl, rfl⟩

/-- A block says one thing at most about the field `s` of row `i`. -/
theorem mem_rowsPairs_itemKey {pre s v : CStr} {fields : α → List (CStr × Option CStr)}
    {l : List α} {i : Nat} (hpre : DOT ∉ pre.bytes) :
    (itemKey pre i s, v) ∈ rowsPairs pre fields l ↔
      ∃ a, l[i]? = some a ∧ (s, some v) ∈ fields a := by
  rw [mem_rowsPairs]
  constructor
  · rintro ⟨j, a, t, ha, ht, hk⟩
    obtain ⟨-, rfl, rfl⟩ := (itemKey_inj hpre hpre).1 hk
    exact ⟨a, ha, ht⟩
  · rintro ⟨a, ha, hs⟩
    exact ⟨i, a, s, ha, hs, rfl⟩

/-- Blocks with different prefixes have no key in common. -/
theorem itemKey_notMem_rowsPairs {pre pre' s v : CStr} {fields : α → List (CStr × Option CStr)}
    {l : List α} {i : Nat} (hpre : DOT ∉ pre.bytes) (hpre' : DOT ∉ pre'.bytes)
    (hne : pre ≠ pre') : (itemKey pre i s, v) ∉ rowsPairs pre' fields l := by
  rw [mem_rowsPairs]
  rintro ⟨j, a, t, -, -, hk⟩
  exact hne ((itemKey_inj hpre hpre').1 hk).1

end Blocks

/-- The fields of a track row. -/
def trackFields (t : CqTrackItem) : List (CStr × Option CStr) :=
  [(.lit "uri", some t.uri), (.lit "track", t.track), (.lit "artist", t.artist),
    (.lit "album_id", t.albumId), (.lit "duration_ms", some (decimal t.durationMs.toNat))]

/-- The fields of an artist or album row. -/
def refFields (r : CqRefItem) : List (CStr × Option CStr) :=
  [(.lit "id", some r.id), (.lit "name", r.name)]

/-- A track that can be rendered: its texts survive a line and its duration is a non-negative
64-bit number. -/
def CqTrackItem.Printable (t : CqTrackItem) : Prop :=
  (∀ p ∈ trackFields t, ∀ v, p.2 = some v → IsLineText v) ∧ 0 ≤ t.durationMs ∧
    t.durationMs < 2 ^ 63

/-- A reference row that can be rendered. -/
def CqRefItem.Printable (r : CqRefItem) : Prop :=
  ∀ p ∈ refFields r, ∀ v, p.2 = some v → IsLineText v

/-- The pairs of the three blocks. -/
def listPairs (tracks : List CqTrackItem) (artists albums : List CqRefItem) : List (CStr × CStr) :=
  rowsPairs (.lit "item") trackFields tracks ++ rowsPairs (.lit "artist") refFields artists ++
    rowsPairs (.lit "album") refFields albums

/-- The lines of the three blocks. -/
def renderLists (tracks : List CqTrackItem) (artists albums : List CqRefItem) : List Bytes :=
  (listPairs tracks artists albums).map fieldLine

/-- The suffixes of track keys. -/
def trackSuffixes : List CStr :=
  [.lit "uri", .lit "track", .lit "artist", .lit "album_id", .lit "duration_ms"]

/-- The suffixes of artist and album keys. -/
def refSuffixes : List CStr := [.lit "id", .lit "name"]

/-- The prefixes and suffixes of list keys. -/
def listSuffixes : List (CStr × CStr) :=
  trackSuffixes.map (.lit "item", ·) ++ refSuffixes.map (.lit "artist", ·) ++
    refSuffixes.map (.lit "album", ·)

theorem map_fst_trackFields (t : CqTrackItem) : (trackFields t).map Prod.fst = trackSuffixes := rfl

theorem map_fst_refFields (r : CqRefItem) : (refFields r).map Prod.fst = refSuffixes := rfl

/-- A key of some row of one of the three blocks. -/
def IsListKey (k : CStr) : Prop := ∃ p ∈ listSuffixes, ∃ i, k = itemKey p.1 i p.2

/-- A line that is none of the blocks': one line, with no key or with another key. -/
def IsOtherLine (l : Bytes) : Prop :=
  LF ∉ l ∧ ∀ p, keyValue (stripCr l) = some p → ¬ IsListKey (cstr p.1)

/-- A header without a dot is no list key. -/
theorem not_isListKey_of_notMem {k : CStr} (h : DOT ∉ k.bytes) : ¬ IsListKey k := by
  rintro ⟨p, -, i, rfl⟩
  simp [bytes_itemKey] at h

/-- `data` renders the three lists: their lines and lines with other keys, in any order. -/
def IsRendering (tracks : List CqTrackItem) (artists albums : List CqRefItem) (data : Bytes) :
    Prop :=
  ∃ extras lines : List Bytes, (∀ l ∈ extras, IsOtherLine l) ∧
    lines.Perm (renderLists tracks artists albums ++ extras) ∧ data = [LF].intercalate lines

/-! ## Decoding a rendering -/

theorem isLineKey_itemKey {p : CStr × CStr} (hp : p ∈ listSuffixes) (i : Nat) :
    IsLineKey (itemKey p.1 i p.2) := by
  have hparts : ∀ q ∈ listSuffixes, (LF ∉ q.1.bytes ∧ TAB ∉ q.1.bytes) ∧
      LF ∉ q.2.bytes ∧ TAB ∉ q.2.bytes := by decide
  obtain ⟨⟨h1, h2⟩, h3, h4⟩ := hparts p hp
  have hlf : LF ∉ decimalBytes i := notMem_decimalBytes (by decide) i
  have htab : TAB ∉ decimalBytes i := notMem_decimalBytes (by decide) i
  have hdot : LF ≠ DOT ∧ TAB ≠ DOT := by decide
  refine ⟨?_, ?_, ?_⟩ <;> simp [bytes_itemKey, h1, h2, h3, h4, hlf, htab, hdot.1, hdot.2]

section Rendering

variable {tracks : List CqTrackItem} {artists albums : List CqRefItem} {data : Bytes}

/-- Every key of the three blocks is a list key. -/
theorem suffix_of_mem_listPairs {k v : CStr} (h : (k, v) ∈ listPairs tracks artists albums) :
    ∃ p ∈ listSuffixes, ∃ i, k = itemKey p.1 i p.2 := by
  simp only [listPairs, List.mem_append, mem_rowsPairs] at h
  rcases h with (⟨i, a, s, -, hs, rfl⟩ | ⟨i, a, s, -, hs, rfl⟩) | ⟨i, a, s, -, hs, rfl⟩
  · have hsuf : s ∈ trackSuffixes := map_fst_trackFields a ▸ List.mem_map_of_mem hs
    exact ⟨(.lit "item", s), by simp [listSuffixes, hsuf], i, rfl⟩
  · have hsuf : s ∈ refSuffixes := map_fst_refFields a ▸ List.mem_map_of_mem hs
    exact ⟨(.lit "artist", s), by simp [listSuffixes, hsuf], i, rfl⟩
  · have hsuf : s ∈ refSuffixes := map_fst_refFields a ▸ List.mem_map_of_mem hs
    exact ⟨(.lit "album", s), by simp [listSuffixes, hsuf], i, rfl⟩

variable (htracks : ∀ t ∈ tracks, t.Printable) (hartists : ∀ r ∈ artists, r.Printable)
  (halbums : ∀ r ∈ albums, r.Printable)

include htracks hartists halbums in
theorem isLine_of_mem_listPairs {p : CStr × CStr} (h : p ∈ listPairs tracks artists albums) :
    IsLineKey p.1 ∧ IsLineText p.2 := by
  obtain ⟨k, v⟩ := p
  constructor
  · obtain ⟨q, hq, i, rfl⟩ := suffix_of_mem_listPairs h
    exact isLineKey_itemKey hq i
  · simp only [listPairs, List.mem_append, mem_rowsPairs] at h
    rcases h with (⟨i, a, s, ha, hs, -⟩ | ⟨i, a, s, ha, hs, -⟩) | ⟨i, a, s, ha, hs, -⟩
    · exact (htracks a (List.mem_of_getElem? ha)).1 _ hs v rfl
    · exact hartists a (List.mem_of_getElem? ha) _ hs v rfl
    · exact halbums a (List.mem_of_getElem? ha) _ hs v rfl

include htracks hartists halbums in
/-- A list key reads what the blocks say about it. -/
theorem fieldFor_rendering (hdata : IsRendering tracks artists albums data) {pre s : CStr}
    (hps : (pre, s) ∈ listSuffixes) (i : Nat) {value : Option CStr}
    (hval : ∀ v, (itemKey pre i s, v) ∈ listPairs tracks artists albums ↔ value = some v) :
    fieldFor (cqFieldsParse cqFieldsInit data) pre i s = value := by
  obtain ⟨extras, lines, hextras, hperm, rfl⟩ := hdata
  refine cqFieldsGet_document (fun p hp => isLine_of_mem_listPairs htracks hartists halbums hp)
    (fun l hl => (hextras l hl).1) ?_ hperm hval
  intro l hl p hp hk
  exact (hextras l hl).2 p hp ⟨(pre, s), hps, i, hk⟩

end Rendering

/-- With distinct suffixes in a row, the field `s` of row `i` is the one value the block has. -/
theorem mem_rowsPairs_iff {α : Type} {pre s : CStr} {fields : α → List (CStr × Option CStr)}
    {l : List α} {i : Nat} {a : α} {o : Option CStr} (hpre : DOT ∉ pre.bytes)
    (hnodup : ((fields a).map Prod.fst).Nodup) (ha : l[i]? = some a) (ho : (s, o) ∈ fields a)
    (v : CStr) : (itemKey pre i s, v) ∈ rowsPairs pre fields l ↔ o = some v := by
  rw [mem_rowsPairs_itemKey hpre]
  constructor
  · rintro ⟨b, hb, hv⟩
    obtain rfl : a = b := Option.some.inj (ha.symm.trans hb)
    have := List.inj_on_of_nodup_map hnodup ho hv rfl
    exact (Prod.mk.inj this).2
  · rintro rfl
    exact ⟨a, ha, ho⟩

/-- Past the end of a block there is no field. -/
theorem mem_rowsPairs_iff_none {α : Type} {pre s : CStr} {fields : α → List (CStr × Option CStr)}
    {l : List α} {i : Nat} (hpre : DOT ∉ pre.bytes) (hi : l[i]? = none) (v : CStr) :
    (itemKey pre i s, v) ∈ rowsPairs pre fields l ↔ (none : Option CStr) = some v := by
  rw [mem_rowsPairs_itemKey hpre]
  simp [hi]

/-- The three prefixes are told apart, and none has a dot. -/
theorem prefixes_apart :
    (DOT ∉ (CStr.lit "item").bytes ∧ DOT ∉ (CStr.lit "artist").bytes ∧
      DOT ∉ (CStr.lit "album").bytes) ∧
    CStr.lit "item" ≠ .lit "artist" ∧ CStr.lit "item" ≠ .lit "album" ∧
      CStr.lit "artist" ≠ .lit "album" := by
  decide

section Blocks

variable {tracks : List CqTrackItem} {artists albums : List CqRefItem} {i : Nat} {s v : CStr}

theorem mem_listPairs_item : (itemKey (.lit "item") i s, v) ∈ listPairs tracks artists albums ↔
    (itemKey (.lit "item") i s, v) ∈ rowsPairs (.lit "item") trackFields tracks := by
  obtain ⟨⟨hi, har, hal⟩, h1, h2, -⟩ := prefixes_apart
  simp [listPairs, itemKey_notMem_rowsPairs hi har h1, itemKey_notMem_rowsPairs hi hal h2]

theorem mem_listPairs_artist : (itemKey (.lit "artist") i s, v) ∈ listPairs tracks artists albums ↔
    (itemKey (.lit "artist") i s, v) ∈ rowsPairs (.lit "artist") refFields artists := by
  obtain ⟨⟨hi, har, hal⟩, h1, -, h3⟩ := prefixes_apart
  simp [listPairs, itemKey_notMem_rowsPairs har hi h1.symm, itemKey_notMem_rowsPairs har hal h3]

theorem mem_listPairs_album : (itemKey (.lit "album") i s, v) ∈ listPairs tracks artists albums ↔
    (itemKey (.lit "album") i s, v) ∈ rowsPairs (.lit "album") refFields albums := by
  obtain ⟨⟨hi, har, hal⟩, -, h2, h3⟩ := prefixes_apart
  simp [listPairs, itemKey_notMem_rowsPairs hal hi h2.symm,
    itemKey_notMem_rowsPairs hal har h3.symm]

end Blocks

/-- A track reader that reads the rows of `tracks` reads `tracks`. -/
theorem trackAt_eq {f : CqFields} {tracks : List CqTrackItem}
    (hdur : ∀ t ∈ tracks, 0 ≤ t.durationMs ∧ t.durationMs < 2 ^ 63)
    (hsome : ∀ i t, tracks[i]? = some t → ∀ s o, (s, o) ∈ trackFields t →
      fieldFor f (.lit "item") i s = o)
    (hnone : ∀ i, tracks[i]? = none → fieldFor f (.lit "item") i (.lit "uri") = none) (i : Nat) :
    trackAt f i = tracks[i]? := by
  cases ht : tracks[i]? with
  | none => simp [trackAt, hnone i ht]
  | some t =>
      have hfield := hsome i t ht
      have huri := hfield (.lit "uri") (some t.uri) (by simp [trackFields])
      have htrack := hfield (.lit "track") t.track (by simp [trackFields])
      have hartist := hfield (.lit "artist") t.artist (by simp [trackFields])
      have halbum := hfield (.lit "album_id") t.albumId (by simp [trackFields])
      have hms := hfield (.lit "duration_ms") (some (decimal t.durationMs.toNat))
        (by simp [trackFields])
      obtain ⟨h0, hlt⟩ := hdur t (List.mem_of_getElem? ht)
      have hparse : cqParseLl (some (decimal t.durationMs.toNat)) = t.durationMs := by
        rw [cqParseLl_decimal (by omega), Int.toNat_of_nonneg h0]
      simp [trackAt, huri, htrack, hartist, halbum, hms, hparse]

/-- A reference reader that reads the rows of `refs` reads `refs`. -/
theorem refAt_eq {f : CqFields} {pre : CStr} {refs : List CqRefItem}
    (hsome : ∀ i r, refs[i]? = some r → ∀ s o, (s, o) ∈ refFields r → fieldFor f pre i s = o)
    (hnone : ∀ i, refs[i]? = none → fieldFor f pre i (.lit "id") = none) (i : Nat) :
    refAt f pre i = refs[i]? := by
  cases hr : refs[i]? with
  | none => simp [refAt, hnone i hr]
  | some r =>
      have hid := hsome i r hr (.lit "id") (some r.id) (by simp [refFields])
      have hname := hsome i r hr (.lit "name") r.name (by simp [refFields])
      simp [refAt, hid, hname]

/-- A scan whose reader reads `l` returns `l`: the fuel covers every row, because the first gap is
within the number of stored fields. -/
theorem gapScan_rendering {α : Type} {f : CqFields} {pre s : CStr} {itemAt : Nat → Option α}
    {l : List α} (hitem : ∀ i, itemAt i = none ↔ fieldFor f pre i s = none)
    (hl : ∀ i, itemAt i = l[i]?) : gapScan itemAt (f.items.length + 1) 0 = l := by
  obtain ⟨n, hn, hgap, -⟩ := exists_gap f pre s
  have hlen : l.length ≤ n := by
    rw [← List.getElem?_eq_none_iff, ← hl n]
    exact (hitem n).2 hgap
  exact gapScan_eq itemAt l _ 0 (by omega) fun j => by rw [Nat.zero_add, hl j]

theorem trackAt_eq_none_iff (f : CqFields) (i : Nat) :
    trackAt f i = none ↔ fieldFor f (.lit "item") i (.lit "uri") = none := by
  simp [trackAt]

theorem refAt_eq_none_iff (f : CqFields) (pre : CStr) (i : Nat) :
    refAt f pre i = none ↔ fieldFor f pre i (.lit "id") = none := by
  simp [refAt]

/-- **Decoding a rendering gives the lists back**, and the scan of every field set ends at its
first missing index with the items below it. -/
theorem lists_roundTrip (tracks : List CqTrackItem) (artists albums : List CqRefItem)
    (data : Bytes) (htracks : ∀ t ∈ tracks, t.Printable) (hartists : ∀ r ∈ artists, r.Printable)
    (halbums : ∀ r ∈ albums, r.Printable) (hdata : IsRendering tracks artists albums data) :
    (cqTrackListFromResponse data = ⟨tracks⟩ ∧
      cqRefListFromResponse data (.lit "artist") = ⟨artists⟩ ∧
      cqRefListFromResponse data (.lit "album") = ⟨albums⟩) ∧
    (∀ f : CqFields,
      ∃ n, fieldFor f (.lit "item") n (.lit "uri") = none ∧
        (∀ i, i < n → fieldFor f (.lit "item") i (.lit "uri") ≠ none) ∧
        ∀ fuel, f.items.length < fuel →
          gapScan (trackAt f) fuel 0 = (List.range n).filterMap (trackAt f)) ∧
    (∀ f : CqFields, ∀ pre ∈ listSuffixes.map Prod.fst,
      ∃ n, fieldFor f pre n (.lit "id") = none ∧
        (∀ i, i < n → fieldFor f pre i (.lit "id") ≠ none) ∧
        ∀ fuel, f.items.length < fuel →
          gapScan (refAt f pre) fuel 0 = (List.range n).filterMap (refAt f pre)) := by
  obtain ⟨⟨hi, har, hal⟩, -⟩ := prefixes_apart
  have hfield := @fieldFor_rendering tracks artists albums data htracks hartists halbums hdata
  have hsuffix : (∀ s ∈ trackSuffixes, (CStr.lit "item", s) ∈ listSuffixes) ∧
      (∀ s ∈ refSuffixes, (CStr.lit "artist", s) ∈ listSuffixes) ∧
      (∀ s ∈ refSuffixes, (CStr.lit "album", s) ∈ listSuffixes) := by decide
  have hnt : ∀ t : CqTrackItem, ((trackFields t).map Prod.fst).Nodup := fun t => by
    rw [map_fst_trackFields]
    decide
  have hnr : ∀ r : CqRefItem, ((refFields r).map Prod.fst).Nodup := fun r => by
    rw [map_fst_refFields]
    decide
  refine ⟨⟨?_, ?_, ?_⟩, fun f => gapScan_stops f _ _ _ (trackAt_eq_none_iff f),
    fun f pre _ => gapScan_stops f pre _ _ (refAt_eq_none_iff f pre)⟩
  · refine congrArg CqTrackList.mk (gapScan_rendering (trackAt_eq_none_iff _) ?_)
    refine trackAt_eq (fun t ht => (htracks t ht).2) (fun i t ht s o ho => ?_) (fun i ht => ?_)
    · have hs : s ∈ trackSuffixes := map_fst_trackFields t ▸ List.mem_map_of_mem ho
      exact hfield (hsuffix.1 s hs) i fun v =>
        mem_listPairs_item.trans (mem_rowsPairs_iff hi (hnt t) ht ho v)
    · exact hfield (hsuffix.1 _ (by decide)) i fun v =>
        mem_listPairs_item.trans (mem_rowsPairs_iff_none hi ht v)
  · refine congrArg CqRefList.mk (gapScan_rendering (refAt_eq_none_iff _ _) ?_)
    refine refAt_eq (fun i r hr s o ho => ?_) (fun i hr => ?_)
    · have hs : s ∈ refSuffixes := map_fst_refFields r ▸ List.mem_map_of_mem ho
      exact hfield (hsuffix.2.1 s hs) i fun v =>
        mem_listPairs_artist.trans (mem_rowsPairs_iff har (hnr r) hr ho v)
    · exact hfield (hsuffix.2.1 _ (by decide)) i fun v =>
        mem_listPairs_artist.trans (mem_rowsPairs_iff_none har hr v)
  · refine congrArg CqRefList.mk (gapScan_rendering (refAt_eq_none_iff _ _) ?_)
    refine refAt_eq (fun i r hr s o ho => ?_) (fun i hr => ?_)
    · have hs : s ∈ refSuffixes := map_fst_refFields r ▸ List.mem_map_of_mem ho
      exact hfield (hsuffix.2.2 s hs) i fun v =>
        mem_listPairs_album.trans (mem_rowsPairs_iff hal (hnr r) hr ho v)
    · exact hfield (hsuffix.2.2 _ (by decide)) i fun v =>
        mem_listPairs_album.trans (mem_rowsPairs_iff_none hal hr v)

theorem lists_roundTrip_sample :
    cqTrackListFromResponse (ascii
      "item.0.duration_ms\t1500\nresult_len\t9\nalbum.0.id\tx\nitem.0.uri\tspotify:track:a") =
      ⟨[{ uri := .lit "spotify:track:a", track := none, artist := none, albumId := none
          durationMs := 1500 }]⟩ := by
  let t : CqTrackItem :=
    { uri := .lit "spotify:track:a", track := none, artist := none, albumId := none
      durationMs := 1500 }
  let r : CqRefItem := { id := .lit "x", name := none }
  have ht : ∀ t' ∈ [t], t'.Printable := by
    intro t' ht'
    obtain rfl := List.mem_singleton.1 ht'
    refine ⟨?_, by decide, by decide⟩
    simp only [t, trackFields, List.mem_cons, List.not_mem_nil, or_false]
    rintro p (rfl | rfl | rfl | rfl | rfl) v hv <;> cases hv <;> decide
  have hr : ∀ r' ∈ [r], r'.Printable := by
    intro r' hr'
    obtain rfl := List.mem_singleton.1 hr'
    simp only [CqRefItem.Printable, r, refFields, List.mem_cons, List.not_mem_nil, or_false]
    rintro p (rfl | rfl) v hv <;> cases hv
    decide
  refine (lists_roundTrip [t] [] [r] _ ht (fun _ h => absurd h List.not_mem_nil) hr
    ⟨[ascii "result_len\t9"], [ascii "item.0.duration_ms\t1500", ascii "result_len\t9",
      ascii "album.0.id\tx", ascii "item.0.uri\tspotify:track:a"], ?_, by decide, by decide⟩).1.1
  intro l hl
  obtain rfl := List.mem_singleton.1 hl
  refine ⟨by decide, fun p hp => not_isListKey_of_notMem ?_⟩
  have hkv : keyValue (stripCr (ascii "result_len\t9")) =
      some (ascii "result_len", ascii "9") := by decide
  obtain rfl := Option.some.inj (hkv.symm.trans hp)
  decide

end Casquinha.Wire
