import Casquinha.Wire.Now
import Casquinha.Wire.Truncation
import Casquinha.Wire.ListsRoundTrip

/-!
# The additive contract

A response may gain lines that its reader does not know, anywhere between its lines, and lines with
different keys may change places (`Reordered`). Neither changes a lookup of a key that is read
(`Reordered.get_eq`): a lookup depends on a store only through what it reads there
(`get_putPairs_congr`), an unread line leaves it alone, and two lines with different keys can be
stored in either order.

The snapshot reads thirteen keys. A list reads the keys of its own rows, as many as there are, so its
scan ends at the same index whatever else is stored (`gapScan_congr`). Keys are compared as they are
read, up to a NUL.
-/

set_option autoImplicit false

namespace Casquinha.Wire

open Lib

/-! ## Documents with the same lines -/

/-- The key a line is stored under, when it has one. -/
def lineKey (l : Bytes) : Option CStr := (keyValue (stripCr l)).map fun p => dupRange p.1

/-- The text before a line: empty, or ended by LF. -/
def AtLineStart (A : Bytes) : Prop := A = [] ∨ ∃ B, A = B ++ [LF]

/-- The text behind a line: empty, or begun by LF. -/
def AtLineEnd (R : Bytes) : Prop := R = [] ∨ ∃ B, R = LF :: B

/-- One line: it has no LF in it. -/
def IsLine (l : Bytes) : Prop := LF ∉ l

instance (l : Bytes) : Decidable (IsLine l) := inferInstanceAs (Decidable (LF ∉ l))

/-- The line has no key that is read. -/
def Unread (reads : CStr → Prop) (l : Bytes) : Prop := ∀ key, lineKey l = some key → ¬ reads key

/-- `Reordered reads D E`: the document `E` is `D` with lines added that have no key that is read, at
any line boundary or behind the last line, and with neighbouring lines of different keys exchanged. -/
inductive Reordered (reads : CStr → Prop) (D : Bytes) : Bytes → Prop where
  | same : Reordered reads D D
  | add {A l B : Bytes} (h : Reordered reads D (A ++ B)) (hA : AtLineStart A) (hl : IsLine l)
      (hunread : Unread reads l) : Reordered reads D (A ++ (l ++ LF :: B))
  | addLast {E l : Bytes} (h : Reordered reads D E) (hl : IsLine l) (hunread : Unread reads l) :
      Reordered reads D (E ++ LF :: l)
  | swap {A l m R : Bytes} (h : Reordered reads D (A ++ (l ++ LF :: (m ++ R)))) (hA : AtLineStart A)
      (hl : IsLine l) (hm : IsLine m) (hR : AtLineEnd R)
      (hkeys : ∀ key, lineKey l = some key → lineKey m ≠ some key) :
      Reordered reads D (A ++ (m ++ LF :: (l ++ R)))

/-! ## Lookups -/

/-- A lookup depends on what was stored before only through what it reads there. -/
theorem get_fieldsPut_congr {f g : CqFields} {key : CStr} (h : cqFieldsGet f key = cqFieldsGet g key)
    (k v : Bytes) : cqFieldsGet (fieldsPut f k v) key = cqFieldsGet (fieldsPut g k v) key := by
  rw [get_fieldsPut, get_fieldsPut, h]

theorem get_putPairs_congr {f g : CqFields} {key : CStr} (h : cqFieldsGet f key = cqFieldsGet g key)
    (ps : List (Bytes × Bytes)) :
    cqFieldsGet (putPairs f ps) key = cqFieldsGet (putPairs g ps) key := by
  induction ps generalizing f g with
  | nil => exact h
  | cons p ps ih => exact ih (get_fieldsPut_congr h p.1 p.2)

theorem get_parse_congr {f g : CqFields} {key : CStr} (h : cqFieldsGet f key = cqFieldsGet g key)
    (D : Bytes) : cqFieldsGet (cqFieldsParse f D) key = cqFieldsGet (cqFieldsParse g D) key := by
  rw [cqFieldsParse_eq_putPairs, cqFieldsParse_eq_putPairs]
  exact get_putPairs_congr h (pairsOf D)

/-- A line of its own stores its pair, if it has one. -/
theorem cqFieldsParse_isLine {l : Bytes} (hl : IsLine l) (f : CqFields) :
    cqFieldsParse f l = putPairs f (keyValue (stripCr l)).toList := by
  rw [cqFieldsParse_eq_putPairs, pairsOf, List.splitOn_eq_singleton hl, pairsOfLines]
  cases h : keyValue (stripCr l) <;> simp [h]

/-- A line with another key, or with none, leaves a lookup alone. -/
theorem get_parse_line {l : Bytes} (hl : IsLine l) {key : CStr} (hkey : lineKey l ≠ some key)
    (f : CqFields) : cqFieldsGet (cqFieldsParse f l) key = cqFieldsGet f key := by
  rw [cqFieldsParse_isLine hl]
  apply get_putPairs_of_ne
  intro p hp hview
  apply hkey
  rw [lineKey, Option.mem_toList.1 hp, Option.map_some, hview]

/-- Two lines with different keys can be stored in either order. -/
theorem get_parse_swap {l m : Bytes} (hl : IsLine l) (hm : IsLine m)
    (hkeys : ∀ key, lineKey l = some key → lineKey m ≠ some key) (f : CqFields) (key : CStr) :
    cqFieldsGet (cqFieldsParse (cqFieldsParse f m) l) key =
      cqFieldsGet (cqFieldsParse (cqFieldsParse f l) m) key := by
  by_cases hkey : lineKey l = some key
  · -- `m` is not about this key
    have hother := hkeys key hkey
    rw [get_parse_line hm hother]
    exact get_parse_congr (get_parse_line hm hother f) l
  · -- `l` is not
    rw [get_parse_line hl hkey]
    exact get_parse_congr (get_parse_line hl hkey f).symm m

/-- **A reordered document reads the same.** -/
theorem Reordered.get_eq {reads : CStr → Prop} {D E : Bytes} (h : Reordered reads D E) :
    ∀ key, reads key → cqFieldsGet (cqFieldsParse cqFieldsInit E) key =
      cqFieldsGet (cqFieldsParse cqFieldsInit D) key := by
  induction h with
  | same => exact fun _ _ => rfl
  | @add A l B _ hA hl hunread ih =>
      intro key hkey
      -- what is before the line is stored first, then the line, which the key does not see
      obtain ⟨f, hf⟩ := cqFieldsParse_line hA cqFieldsInit
      have hother : lineKey l ≠ some key := fun h => hunread key h hkey
      rw [← ih key hkey, hf, hf, cqFieldsParse_append_LF]
      exact get_parse_congr (get_parse_line hl hother f) B
  | addLast _ hl hunread ih =>
      intro key hkey
      -- the last line is stored last
      rw [cqFieldsParse_append_LF, get_parse_line hl fun h => hunread key h hkey]
      exact ih key hkey
  | @swap A l m R _ hA hl hm hR hkeys ih =>
      intro key hkey
      obtain ⟨f, hf⟩ := cqFieldsParse_line hA cqFieldsInit
      rw [← ih key hkey, hf, hf, cqFieldsParse_append_LF, cqFieldsParse_append_LF]
      -- the two lines commute, and what is behind them sees no difference
      have hswap := get_parse_swap hl hm hkeys f key
      rcases hR with rfl | ⟨B, rfl⟩
      · rw [List.append_nil, List.append_nil]
        exact hswap
      · rw [cqFieldsParse_append_LF, cqFieldsParse_append_LF]
        exact get_parse_congr hswap B

/-! ## The readers -/

/-- The keys `cq_now_from_fields` reads. -/
def nowKeys : List CStr :=
  [.lit "state", .lit "device", .lit "track", .lit "artist", .lit "album", .lit "album_id",
    .lit "track_id", .lit "position_ms", .lit "duration_ms", .lit "ts", .lit "queue_len", .lit "api",
    .lit "volume"]

/-- The keys a list of rows `<prefix>.<i>.<suffix>` reads. -/
def IsRowKey (pre : CStr) (suffixes : List CStr) (key : CStr) : Prop :=
  ∃ s ∈ suffixes, ∃ i, key = itemKey pre i s

/-- A snapshot depends on its thirteen keys only. -/
theorem cqNowFromFields_congr {f g : CqFields}
    (h : ∀ key ∈ nowKeys, cqFieldsGet f key = cqFieldsGet g key) :
    cqNowFromFields f = cqNowFromFields g := by
  simp only [nowKeys, List.forall_mem_cons] at h
  obtain ⟨h1, h2, h3, h4, h5, h6, h7, h8, h9, h10, h11, h12, h13, -⟩ := h
  simp only [cqNowFromFields, h1, h2, h3, h4, h5, h6, h7, h8, h9, h10, h11, h12, h13]

/-- A scan ends at the first index without its required key, however many fields are stored. -/
theorem gapScan_congr {α : Type} {f g : CqFields} {pre s : CStr} {itemAt : Nat → Option α}
    (hf : ∀ i, itemAt i = none ↔ fieldFor f pre i s = none)
    (hg : ∀ i, itemAt i = none ↔ fieldFor g pre i s = none) :
    gapScan itemAt (f.items.length + 1) 0 = gapScan itemAt (g.items.length + 1) 0 := by
  obtain ⟨n, hn, hbelow, hscan⟩ := gapScan_stops f pre s itemAt hf
  obtain ⟨m, hm, hbelow', hscan'⟩ := gapScan_stops g pre s itemAt hg
  -- both scans end at the first gap, and they have the same gaps
  have hnm : n = m := by
    rcases Nat.lt_trichotomy n m with hlt | heq | hlt
    · exact absurd ((hg n).1 ((hf n).2 hn)) (hbelow' n hlt)
    · exact heq
    · exact absurd ((hf m).1 ((hg m).2 hm)) (hbelow m hlt)
  rw [hscan _ (Nat.lt_succ_self _), hscan' _ (Nat.lt_succ_self _), hnm]

theorem cqTrackListFromFields_congr {f g : CqFields}
    (h : ∀ key, IsRowKey (.lit "item") trackSuffixes key → cqFieldsGet f key = cqFieldsGet g key) :
    cqTrackListFromFields f = cqTrackListFromFields g := by
  have hfield : ∀ i, ∀ s ∈ trackSuffixes,
      fieldFor f (.lit "item") i s = fieldFor g (.lit "item") i s :=
    fun i s hs => h (itemKey (.lit "item") i s) ⟨s, hs, i, rfl⟩
  -- a row reads its five keys and no other
  have hrow : trackAt f = trackAt g := by
    funext i
    have hi := hfield i
    simp only [trackSuffixes, List.forall_mem_cons] at hi
    obtain ⟨h1, h2, h3, h4, h5, -⟩ := hi
    simp only [trackAt, h1, h2, h3, h4, h5]
  rw [cqTrackListFromFields, cqTrackListFromFields, hrow]
  refine congrArg CqTrackList.mk (gapScan_congr (fun i => ?_) (trackAt_eq_none_iff g))
  rw [← hrow]
  exact trackAt_eq_none_iff f i

theorem cqRefListFromFields_congr {f g : CqFields} {pre : CStr}
    (h : ∀ key, IsRowKey pre refSuffixes key → cqFieldsGet f key = cqFieldsGet g key) :
    cqRefListFromFields f pre = cqRefListFromFields g pre := by
  have hfield : ∀ i, ∀ s ∈ refSuffixes, fieldFor f pre i s = fieldFor g pre i s :=
    fun i s hs => h (itemKey pre i s) ⟨s, hs, i, rfl⟩
  -- a row reads its two keys and no other
  have hrow : refAt f pre = refAt g pre := by
    funext i
    have hi := hfield i
    simp only [refSuffixes, List.forall_mem_cons] at hi
    obtain ⟨h1, h2, -⟩ := hi
    simp only [refAt, h1, h2]
  rw [cqRefListFromFields, cqRefListFromFields, hrow]
  refine congrArg CqRefList.mk (gapScan_congr (fun i => ?_) (refAt_eq_none_iff g pre))
  rw [← hrow]
  exact refAt_eq_none_iff f pre i

/-- **The additive contract.** Lines that a reader does not know, and the order of lines with
different keys, change none of the three results. -/
theorem additive_contract (D E : Bytes) :
    (Reordered (· ∈ nowKeys) D E → cqNowFromResponse E = cqNowFromResponse D) ∧
    (Reordered (IsRowKey (.lit "item") trackSuffixes) D E →
      cqTrackListFromResponse E = cqTrackListFromResponse D) ∧
    ∀ pre ∈ [CStr.lit "artist", .lit "album", .lit "item"],
      Reordered (IsRowKey pre refSuffixes) D E →
        cqRefListFromResponse E pre = cqRefListFromResponse D pre := by
  refine ⟨?_, ?_, ?_⟩
  · intro h
    exact cqNowFromFields_congr h.get_eq
  · intro h
    exact cqTrackListFromFields_congr h.get_eq
  · intro pre _ h
    exact cqRefListFromFields_congr h.get_eq

/-- A future field in front of the document, and its two lines exchanged. -/
theorem additive_contract_sample :
    cqNowFromResponse (ascii "lyrics\tyes\nts\t7\nstate\tplaying") =
      cqNowFromResponse (ascii "state\tplaying\nts\t7") := by
  apply (additive_contract (ascii "state\tplaying\nts\t7") _).1
  have hunread : Unread (· ∈ nowKeys) (ascii "lyrics\tyes") := by
    intro key hkey
    obtain rfl : .lit "lyrics" = key := Option.some.inj hkey
    decide
  have hkeys : ∀ key, lineKey (ascii "state\tplaying") = some key →
      lineKey (ascii "ts\t7") ≠ some key := by
    intro key hkey
    rw [← hkey]
    decide
  -- the future field is added, then the lines behind it are exchanged
  have hadd : Reordered (· ∈ nowKeys) (ascii "state\tplaying\nts\t7")
      (ascii "lyrics\tyes" ++ LF :: ascii "state\tplaying\nts\t7") :=
    .add (A := []) .same (Or.inl rfl) (by decide) hunread
  exact .swap (A := ascii "lyrics\tyes\n") (l := ascii "state\tplaying") (m := ascii "ts\t7")
    (R := []) hadd (Or.inr ⟨ascii "lyrics\tyes", rfl⟩) (by decide) (by decide) (Or.inl rfl) hkeys

end Casquinha.Wire
