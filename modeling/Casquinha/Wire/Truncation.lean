import Casquinha.Wire.CodecReference

/-!
# Documents that have been cut off

A prefix of a document has the document's complete lines and a piece of the next one
(`splitOn_prefix`), so it has no key the document does not have. What the last line of a key says is
read back from every prefix that still holds it whole (`get_of_whole`); a cut inside the value leaves
what is before the cut (`get_of_cut`).

No byte is excluded: a line whose key has a NUL in it is stored under the part before the NUL.
-/

set_option autoImplicit false

namespace Casquinha.Wire

open Lib

/-! ## One line -/

theorem stripCr_append {a b : Bytes} (hb : b ≠ []) : stripCr (a ++ b) = a ++ stripCr b := by
  rw [stripCr, stripCr, List.getLast?_append_of_ne_nil _ hb]
  split
  · exact List.dropLast_append_of_ne_nil hb
  · rfl

/-- A trailing CR after the TAB is a trailing CR of the value. -/
theorem stripCr_pair (k w : Bytes) : stripCr (k ++ TAB :: w) = k ++ TAB :: stripCr w := by
  rw [stripCr_append (List.cons_ne_nil TAB w)]
  cases w with
  | nil => rfl
  | cons c w =>
      rw [show TAB :: c :: w = [TAB] ++ (c :: w) from rfl, stripCr_append (List.cons_ne_nil c w)]
      rfl

theorem idxOf?_append_cons {k v : Bytes} (htab : TAB ∉ k) :
    (k ++ TAB :: v).idxOf? TAB = some k.length := by
  induction k with
  | nil => simp [List.idxOf?_cons]
  | cons c k ih =>
      have hc : c ≠ TAB := (List.ne_of_not_mem_cons htab).symm
      rw [List.cons_append, List.idxOf?_cons, ih (List.not_mem_of_not_mem_cons htab)]
      simp [hc]

/-- The pair of a line, read off the line. -/
theorem keyValue_eq_some_iff {l k v : Bytes} :
    keyValue l = some (k, v) ↔ l = k ++ TAB :: v ∧ TAB ∉ k ∧ k ≠ [] := by
  constructor
  · intro h
    rw [keyValue] at h
    split at h
    · next t ht =>
      split at h
      · next hpos =>
        simp only [Option.some.injEq, Prod.mk.injEq] at h
        obtain ⟨rfl, rfl⟩ := h
        obtain ⟨hlt, hget, hbefore⟩ := List.idxOf?_eq_some_iff.1 ht
        refine ⟨?_, ?_, ?_⟩
        · rw [← hget, List.getElem_cons_drop, List.take_append_drop]
        · intro hmem
          obtain ⟨j, hj, hjt⟩ := List.mem_take_iff_getElem.1 hmem
          exact hbefore j (by omega) hjt
        · intro hnil
          have := congrArg List.length hnil
          simp only [List.length_take, List.length_nil] at this
          omega
      · cases h
    · cases h
  · rintro ⟨rfl, htab, hne⟩
    have hpos : 0 < k.length := List.length_pos_of_ne_nil hne
    simp [keyValue, idxOf?_append_cons htab, hpos]

/-- The pair of a line of the form `key TAB value`. -/
theorem keyValue_stripCr_pair {k w : Bytes} (htab : TAB ∉ k) (hne : k ≠ []) :
    keyValue (stripCr (k ++ TAB :: w)) = some (k, stripCr w) := by
  rw [stripCr_pair]
  exact keyValue_eq_some_iff.2 ⟨rfl, htab, hne⟩

theorem stripCr_cut (l : Bytes) : stripCr l <+: l := by
  rw [stripCr]
  split
  · exact List.dropLast_prefix l
  · exact List.prefix_refl l

/-- Between a line without its CR and the line there is no other line. -/
theorem stripCr_between {w w' : Bytes} (hvalue : stripCr (stripCr w) = stripCr w)
    (hle : stripCr w <+: w') (hge : w' <+: w) : stripCr w' = stripCr w := by
  by_cases hcr : w.getLast? = some CR
  · -- with a CR, `w'` is `w` or what is left of it without the CR
    have hstrip : stripCr w = w.dropLast := by rw [stripCr, if_pos hcr]
    have hlen : w.length = (stripCr w).length + 1 := by
      have hpos : 0 < w.length := by
        cases w with
        | nil => cases hcr
        | cons c w => simp
      rw [hstrip, List.length_dropLast]
      omega
    by_cases heq : w'.length = w.length
    · rw [hge.eq_of_length heq]
    · have hshort := hle.length_le
      have hlong := hge.length_le
      rw [← hle.eq_of_length (by omega), hvalue]
  · -- without one there is nothing in between
    have hstrip : stripCr w = w := by rw [stripCr, if_neg hcr]
    rw [hstrip] at hle
    rw [hge.eq_of_length (le_antisymm hge.length_le hle.length_le)]

theorem stripCr_prefix {l' l : Bytes} (hl : l' <+: l) : stripCr l' <+: stripCr l := by
  obtain ⟨x, rfl⟩ := hl
  by_cases hx : x = []
  · have hsame : stripCr l' = stripCr (l' ++ x) := by rw [hx, List.append_nil]
    exact ⟨[], (List.append_nil _).trans hsame⟩
  · -- the CR that the longer line loses is not in the shorter one
    rw [stripCr_append hx]
    exact (stripCr_cut l').trans (List.prefix_append l' (stripCr x))

/-- A piece of a line has no other key than the line, and a piece of its value. -/
theorem keyValue_prefix {l' l k v' : Bytes} (hl : l' <+: l)
    (h : keyValue (stripCr l') = some (k, v')) :
    ∃ v, keyValue (stripCr l) = some (k, v) ∧ v' <+: v := by
  obtain ⟨heq, htab, hne⟩ := keyValue_eq_some_iff.1 h
  obtain ⟨x, hx⟩ := stripCr_prefix hl
  refine ⟨v' ++ x, keyValue_eq_some_iff.2 ⟨?_, htab, hne⟩, List.prefix_append v' x⟩
  rw [← hx, heq, List.append_assoc, List.cons_append]

/-! ## The lines of a prefix -/

/-- A prefix has the complete lines of the document and a piece of the next one. -/
theorem splitOn_prefix {P D : Bytes} (h : P <+: D) :
    ∃ ls l' l rest, P.splitOn LF = ls ++ [l'] ∧ D.splitOn LF = ls ++ l :: rest ∧ l' <+: l := by
  induction P generalizing D with
  | nil =>
      cases hD : D.splitOn LF with
      | nil => exact absurd hD (List.splitOn_ne_nil LF D)
      | cons l rest => exact ⟨[], [], l, rest, rfl, rfl, List.nil_prefix⟩
  | cons c P ih =>
      obtain ⟨x, rfl⟩ := h
      obtain ⟨ls, l', l, rest, hP, hD, hl⟩ := ih (List.prefix_append P x)
      rw [List.cons_append, List.splitOn_cons_eq_if_modifyHead,
        List.splitOn_cons_eq_if_modifyHead, hP, hD]
      by_cases hc : c = LF
      · -- the byte ends a line in both
        exact ⟨[] :: ls, l', l, rest, by simp [hc], by simp [hc], hl⟩
      · -- the byte belongs to the first line of both
        cases ls with
        | nil => exact ⟨[], c :: l', c :: l, rest, by simp [hc], by simp [hc], by simpa using hl⟩
        | cons b ls => exact ⟨(c :: b) :: ls, l', l, rest, by simp [hc], by simp [hc], hl⟩

/-- The key of the last line, when it has one. The text behind the last LF is a line, also when it is
empty. -/
def lastLineKey (b : Bytes) : Option Bytes :=
  (b.splitOn LF).getLast?.bind fun l => (keyValue (stripCr l)).map Prod.fst

/-- A pair of a prefix is a pair of the document, or, on the last line, a piece of one. -/
theorem mem_pairsOf_prefix {P D k v : Bytes} (h : P <+: D) (hp : (k, v) ∈ pairsOf P) :
    ∃ w, (k, w) ∈ pairsOf D ∧ v <+: w ∧ (lastLineKey P ≠ some k → v = w) := by
  obtain ⟨ls, l', l, rest, hP, hD, hl⟩ := splitOn_prefix h
  obtain ⟨line, hline, hkv⟩ := List.mem_filterMap.1 hp
  rw [hP] at hline
  have hmem : ∀ {m : Bytes} {q : Bytes × Bytes}, m ∈ D.splitOn LF →
      keyValue (stripCr m) = some q → q ∈ pairsOf D := fun hm hq =>
    List.mem_filterMap.2 ⟨_, hm, hq⟩
  rcases List.mem_append.1 hline with hls | hlast
  · -- a complete line stands in the document as it is
    exact ⟨v, hmem (by rw [hD]; exact List.mem_append_left _ hls) hkv, List.prefix_refl v,
      fun _ => rfl⟩
  · -- the last line is a piece of a line of the document, with the same key
    rw [List.mem_singleton.1 hlast] at hkv
    obtain ⟨w, hw, hvw⟩ := keyValue_prefix hl hkv
    refine ⟨w, hmem (by rw [hD]; simp) hw, hvw, fun hne => absurd ?_ hne⟩
    simp [lastLineKey, hP, hkv]

/-- **A cut invents no key.** A key the document does not have is absent from every prefix. -/
theorem get_prefix_eq_none {P D : Bytes} {key : CStr} (hP : P <+: D)
    (h : cqFieldsGet (cqFieldsParse cqFieldsInit D) key = none) :
    cqFieldsGet (cqFieldsParse cqFieldsInit P) key = none := by
  rw [cqFieldsParse_eq_putPairs, get_putPairs_eq_none_iff] at h ⊢
  refine ⟨rfl, ?_⟩
  intro p hp
  obtain ⟨w, hw, -⟩ := mem_pairsOf_prefix hP hp
  exact h.2 (p.1, w) hw

/-! ## The field set of a prefix -/

/-- On NUL-free text a key reads the value of its last line. -/
theorem get_parse_eq_lastValue {D : Bytes} (h : (0 : UInt8) ∉ D) (key : CStr) :
    (cqFieldsGet (cqFieldsParse cqFieldsInit D) key).map CStr.bytes =
      AssocList.lastValue (pairsOf D) key.bytes := by
  have hstored : storedPairs (cqFieldsParse cqFieldsInit D) = AssocList.ofPairs (pairsOf D) := by
    have hall : ∀ b ∈ [D], (0 : UInt8) ∉ b := by simpa using h
    simpa [pairsOfAll] using storedPairs_foldl hall
  rw [cqFieldsGet_eq_get, hstored, AssocList.get_ofPairs]

/-- **A cut invents nothing.** In a prefix of a NUL-free document with distinct keys, every key is a
key of the document, its value is a piece of the document's value, and the whole of it unless it is
the key of the prefix's last line. -/
theorem get_of_prefix (D P : Bytes) (hnul : (0 : UInt8) ∉ D)
    (hkeys : (AssocList.keys (pairsOf D)).Nodup) (hP : P <+: D) (key v : CStr)
    (hv : cqFieldsGet (cqFieldsParse cqFieldsInit P) key = some v) :
    ∃ w, cqFieldsGet (cqFieldsParse cqFieldsInit D) key = some w ∧ v.bytes <+: w.bytes ∧
      (lastLineKey P ≠ some key.bytes → v = w) := by
  -- what is read is the value of a line
  have hpair : (key.bytes, v.bytes) ∈ pairsOf P := by
    apply AssocList.mem_of_lastValue_eq_some
    rw [← get_parse_eq_lastValue (fun h => hnul (hP.subset h)), hv]
    rfl
  obtain ⟨w, hw, hvw, hwhole⟩ := mem_pairsOf_prefix hP hpair
  have hread := get_parse_eq_lastValue hnul key
  -- with distinct keys the document has no other line for it
  rw [AssocList.lastValue_of_nodup hkeys hw] at hread
  obtain ⟨w', hw', rfl⟩ := Option.map_eq_some_iff.1 hread
  exact ⟨w', hw', hvw, fun hne => CStr.ext' (hwhole hne)⟩

/-- A cut inside a CRLF, behind a value that ends in CR. -/
theorem get_of_prefix_sample :
    ∃ w, cqFieldsGet (cqFieldsParse cqFieldsInit (ascii "api\t1\nts\t90\r\r\n")) (.lit "ts") =
        some w ∧ (CStr.lit "90").bytes <+: w.bytes ∧
      (lastLineKey (ascii "api\t1\nts\t90\r") ≠ some (CStr.lit "ts").bytes → .lit "90" = w) :=
  get_of_prefix (ascii "api\t1\nts\t90\r\r\n") (ascii "api\t1\nts\t90\r") (by decide)
    (by decide) (by decide) (.lit "ts") (.lit "90") (by decide)

/-! ## The last line of a key -/

/-- The last line of `D` for `key` is `key TAB w`: `A` is before that line, and `R` is empty or a line
end and lines with other keys. The value it gives is `w` without a trailing CR. -/
structure LastLine (D : Bytes) (key : CStr) (w A R : Bytes) : Prop where
  eq : D = A ++ (key.bytes ++ TAB :: w) ++ R
  start : A = [] ∨ ∃ B, A = B ++ [LF]
  keyed : TAB ∉ key.bytes ∧ LF ∉ key.bytes ∧ key.bytes ≠ []
  line : LF ∉ w
  after : R = [] ∨ ∃ rest, R = LF :: rest ∧ ∀ p ∈ pairsOf rest, p.1 ≠ key.bytes

/-- `P` holds the line `key TAB w` behind `A` whole: all of it, or all but its CR. -/
def HoldsLine (P : Bytes) (key : CStr) (w A : Bytes) : Prop :=
  A ++ (key.bytes ++ TAB :: w) <+: P ∨
    stripCr (stripCr w) = stripCr w ∧ A ++ (key.bytes ++ TAB :: stripCr w) <+: P

/-- Parsing what comes before a line, then the line. -/
theorem cqFieldsParse_line {A : Bytes} (hA : A = [] ∨ ∃ B, A = B ++ [LF]) (f : CqFields) :
    ∃ f', ∀ l : Bytes, cqFieldsParse f (A ++ l) = cqFieldsParse f' l := by
  rcases hA with rfl | ⟨B, rfl⟩
  · exact ⟨f, fun _ => rfl⟩
  · refine ⟨cqFieldsParse f B, ?_⟩
    intro l
    rw [List.append_assoc, List.singleton_append, cqFieldsParse_append_LF]

/-- A text of one line stores its pair. -/
theorem cqFieldsParse_one {f : CqFields} {k w : Bytes} (htab : TAB ∉ k) (hlf : LF ∉ k) (hne : k ≠ [])
    (hw : LF ∉ w) : cqFieldsParse f (k ++ TAB :: w) = fieldsPut f k (stripCr w) := by
  have hline : LF ∉ k ++ TAB :: w := by
    simp only [List.mem_append, List.mem_cons, not_or]
    exact ⟨hlf, by decide, hw⟩
  rw [cqFieldsParse_eq_putPairs, pairsOf, List.splitOn_eq_singleton hline, pairsOfLines,
    List.filterMap_cons, keyValue_stripCr_pair htab hne]
  rfl

/-- A cut inside the line leaves what is before the cut. -/
theorem LastLine.get_of_cut {D A w R w' : Bytes} {key : CStr} (h : LastLine D key w A R)
    (hw : w' <+: w) :
    cqFieldsGet (cqFieldsParse cqFieldsInit (A ++ (key.bytes ++ TAB :: w'))) key =
      some (dupRange (stripCr w')) := by
  obtain ⟨htab, hlf, hne⟩ := h.keyed
  obtain ⟨f, hf⟩ := cqFieldsParse_line h.start cqFieldsInit
  rw [hf, cqFieldsParse_one htab hlf hne fun hx => h.line (hw.subset hx), get_fieldsPut_self]

/-- A cut behind the line leaves what the line says. -/
theorem LastLine.get_of_whole {D A w R R' : Bytes} {key : CStr} (h : LastLine D key w A R)
    (hR : R' <+: R) :
    cqFieldsGet (cqFieldsParse cqFieldsInit (A ++ (key.bytes ++ TAB :: w) ++ R')) key =
      some (dupRange (stripCr w)) := by
  obtain ⟨htab, hlf, hne⟩ := h.keyed
  obtain ⟨f, hf⟩ := cqFieldsParse_line h.start cqFieldsInit
  -- a cut of what is behind the line has no line for the key either
  have hR' : R' = [] ∨ ∃ r, R' = LF :: r ∧ ∀ p ∈ pairsOf r, p.1 ≠ key.bytes := by
    rcases h.after with hnil | ⟨rest, hrest, hkeys⟩
    · rw [hnil] at hR
      exact Or.inl (List.prefix_nil.1 hR)
    · rw [hrest] at hR
      rcases List.prefix_cons_iff.1 hR with hnil | ⟨r, hr, hpre⟩
      · exact Or.inl hnil
      · refine Or.inr ⟨r, hr, fun p hp => ?_⟩
        obtain ⟨w', hw', -⟩ := mem_pairsOf_prefix hpre hp
        exact hkeys (p.1, w') hw'
  rcases hR' with rfl | ⟨r, rfl, hr⟩
  · rw [List.append_nil]
    exact h.get_of_cut (List.prefix_refl w)
  · rw [List.append_assoc, hf, cqFieldsParse_append_LF, cqFieldsParse_one htab hlf hne h.line,
      cqFieldsParse_eq_putPairs]
    exact get_putPairs_of_some hr (get_fieldsPut_self f key (stripCr w))

/-- What the document itself says. -/
theorem LastLine.get_self {D A w R : Bytes} {key : CStr} (h : LastLine D key w A R) :
    cqFieldsGet (cqFieldsParse cqFieldsInit D) key = some (dupRange (stripCr w)) := by
  rw [h.eq]
  exact h.get_of_whole (List.prefix_refl R)

/-- A prefix that reaches past the TAB ends inside the line or holds it whole. -/
theorem LastLine.prefix_cases {D A w R P : Bytes} {key : CStr} (h : LastLine D key w A R)
    (hP : P <+: D) (hstart : A ++ (key.bytes ++ [TAB]) <+: P) :
    (∃ w', w' <+: w ∧ P = A ++ (key.bytes ++ TAB :: w')) ∨
      ∃ R', R' <+: R ∧ P = A ++ (key.bytes ++ TAB :: w) ++ R' := by
  obtain ⟨x, rfl⟩ := hstart
  -- behind the TAB the prefix goes on like the document
  have hx : x <+: w ++ R := by
    rw [h.eq] at hP
    simpa [List.append_assoc, List.prefix_append_right_inj] using hP
  rcases List.prefix_or_prefix_of_prefix hx (List.prefix_append w R) with hxw | ⟨R', rfl⟩
  · exact Or.inl ⟨x, hxw, by simp⟩
  · exact Or.inr ⟨R', (List.prefix_append_right_inj w).1 hx, by simp⟩

/-- **A prefix that holds the line whole reads what the document says.** -/
theorem LastLine.get_of_holds {D A w R P : Bytes} {key : CStr} (h : LastLine D key w A R)
    (hP : P <+: D) (hholds : HoldsLine P key w A) :
    cqFieldsGet (cqFieldsParse cqFieldsInit P) key =
      cqFieldsGet (cqFieldsParse cqFieldsInit D) key := by
  rw [h.get_self]
  rcases hholds with ⟨R', rfl⟩ | ⟨hvalue, hpre⟩
  · -- it reaches to the end of the line
    rw [h.eq] at hP
    exact h.get_of_whole ((List.prefix_append_right_inj _).1 hP)
  · have hstart : A ++ (key.bytes ++ [TAB]) <+: P := List.IsPrefix.trans (by simp) hpre
    rcases h.prefix_cases hP hstart with ⟨w', hw', rfl⟩ | ⟨R', hR', rfl⟩
    · -- between the value and the end of the line there is room for one CR only
      have hbetween : stripCr w <+: w' := by simpa using hpre
      rw [h.get_of_cut hw', stripCr_between hvalue hbetween hw']
    · exact h.get_of_whole hR'

/-- A prefix that holds the first byte of the value reads a text that is not empty. -/
theorem LastLine.get_of_first {D A w R P : Bytes} {key : CStr} {c : UInt8}
    (h : LastLine D key (c :: w) A R) (hc : c ≠ 0 ∧ c ≠ CR) (hP : P <+: D)
    (hfirst : A ++ (key.bytes ++ [TAB, c]) <+: P) :
    ∃ x, cqFieldsGet (cqFieldsParse cqFieldsInit P) key = some x ∧ x.bytes ≠ [] := by
  -- one byte that is neither NUL nor CR is left of any piece
  have htext : ∀ u : Bytes, (dupRange (stripCr (c :: u))).bytes ≠ [] := by
    intro u
    have hhead : ∃ u', stripCr (c :: u) = c :: u' := by
      cases u with
      | nil => exact ⟨[], stripCr_of_notMem (by simp [hc.2.symm])⟩
      | cons d u =>
          exact ⟨stripCr (d :: u), stripCr_append (a := [c]) (List.cons_ne_nil d u)⟩
    obtain ⟨u', hu'⟩ := hhead
    simp [hu', dupRange, cstr, hc.1]
  have hstart : A ++ (key.bytes ++ [TAB]) <+: P := List.IsPrefix.trans (by simp) hfirst
  rcases h.prefix_cases hP hstart with ⟨w', hw', rfl⟩ | ⟨R', hR', rfl⟩
  · obtain ⟨u, rfl⟩ : [c] <+: w' := by simpa using hfirst
    exact ⟨_, h.get_of_cut hw', htext u⟩
  · exact ⟨_, h.get_of_whole hR', htext w⟩

/-- A text of one line that stores a pair is `key TAB w`. -/
theorem exists_pair_of_line {l k : Bytes} (hl : LF ∉ l) (h : ∃ p ∈ pairsOf l, p.1 = k) :
    ∃ w, l = k ++ TAB :: w ∧ TAB ∉ k ∧ k ≠ [] := by
  obtain ⟨⟨k', v⟩, hp, rfl⟩ := h
  obtain ⟨line, hline, hkv⟩ := List.mem_filterMap.1 hp
  rw [List.splitOn_eq_singleton hl, List.mem_singleton] at hline
  obtain ⟨heq, htab, hne⟩ := keyValue_eq_some_iff.1 hkv
  obtain ⟨x, hx⟩ := stripCr_cut line
  refine ⟨v ++ x, ?_, htab, hne⟩
  rw [← hline, ← hx, heq, List.append_assoc, List.cons_append]

/-- A line before the document does not change its last line. -/
theorem LastLine.cons_line {D A w R : Bytes} {key : CStr} (h : LastLine D key w A R) (l : Bytes) :
    LastLine (l ++ LF :: D) key w (l ++ LF :: A) R where
  eq := by rw [h.eq]; simp
  start := by
    rcases h.start with rfl | ⟨B, rfl⟩
    · exact Or.inr ⟨l, rfl⟩
    · exact Or.inr ⟨l ++ LF :: B, by simp⟩
  keyed := h.keyed
  line := h.line
  after := h.after

/-- Every document that stores a pair under `key` itself has a last line for it. -/
theorem exists_lastLine {key : CStr} (hlf : LF ∉ key.bytes) {D : Bytes}
    (h : ∃ p ∈ pairsOf D, p.1 = key.bytes) : ∃ w A R, LastLine D key w A R := by
  induction hn : D.length using Nat.strong_induction_on generalizing D with
  | h n ih =>
      by_cases hD : LF ∈ D
      · obtain ⟨l, D', rfl, hl⟩ := List.eq_append_cons_of_mem hD
        by_cases hlater : ∃ p ∈ pairsOf D', p.1 = key.bytes
        · -- a later line has the key: the last of them is the last
          obtain ⟨w, A, R, hlast⟩ := ih D'.length (by simp at hn; omega) hlater rfl
          exact ⟨w, _, R, hlast.cons_line l⟩
        · -- none has: it is the first line
          have hfirst : ∃ p ∈ pairsOf l, p.1 = key.bytes := by
            obtain ⟨p, hp, hkey⟩ := h
            rw [pairsOf_append_LF] at hp
            rcases List.mem_append.1 hp with hp | hp
            · exact ⟨p, hp, hkey⟩
            · exact absurd ⟨p, hp, hkey⟩ hlater
          obtain ⟨w, rfl, htab, hne⟩ := exists_pair_of_line hl hfirst
          refine ⟨w, [], LF :: D', rfl, Or.inl rfl, ⟨htab, hlf, hne⟩, fun hw => hl ?_,
            Or.inr ⟨D', rfl, fun p hp hkey => hlater ⟨p, hp, hkey⟩⟩⟩
          simp [hw]
      · -- one line only
        obtain ⟨w, rfl, htab, hne⟩ := exists_pair_of_line hD h
        refine ⟨w, [], [], by simp, Or.inl rfl, ⟨htab, hlf, hne⟩, fun hw => hD ?_, Or.inl rfl⟩
        simp [hw]

end Casquinha.Wire
