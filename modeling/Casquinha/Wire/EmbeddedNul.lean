import Casquinha.Wire.CodecReference

/-!
# Keys with a NUL in them

A line is stored under the length of its key and read back as a C string, so a line whose key has a
NUL in it is found under the part before that NUL. Deleting these lines from a buffer
(`dropNulKeys`) changes what a key reads exactly when such a line stands for it: some line's key
begins like it up to a NUL, and no line has the key itself (`get_dropNulKeys_iff`).

A line with the key itself settles the lookup whatever its neighbours store (`get_putPairs_of_own`).
-/

set_option autoImplicit false

namespace Casquinha.Wire

open Lib

/-- The key part of the line has a NUL in it. -/
def hasNulKey (l : Bytes) : Bool := (keyValue (stripCr l)).any fun p => 0 ∈ p.1

/-- The buffer without the lines whose key part has a NUL in it. -/
def dropNulKeys (b : Bytes) : Bytes := [LF].intercalate ((b.splitOn LF).filter fun l => !hasNulKey l)

/-- Some line has the key itself. -/
def HasLine (b : Bytes) (key : CStr) : Prop := ∃ p ∈ pairsOf b, p.1 = key.bytes

/-- Some line has a key that reads as `key` in C: up to its first NUL it is `key`. -/
def HasView (b : Bytes) (key : CStr) : Prop := ∃ p ∈ pairsOf b, dupRange p.1 = key

instance (b : Bytes) (key : CStr) : Decidable (HasLine b key) :=
  inferInstanceAs (Decidable (∃ p ∈ pairsOf b, p.1 = key.bytes))

instance (b : Bytes) (key : CStr) : Decidable (HasView b key) :=
  inferInstanceAs (Decidable (∃ p ∈ pairsOf b, dupRange p.1 = key))

theorem lf_notMem_of_mem_splitOn {b l : Bytes} (hl : l ∈ b.splitOn LF) : LF ∉ l := by
  induction b generalizing l with
  | nil =>
      rw [List.splitOn_nil, List.mem_singleton] at hl
      rw [hl]
      exact List.not_mem_nil
  | cons c b ih =>
      rw [List.splitOn_cons_eq_if_modifyHead] at hl
      split at hl
      · -- a line ends here, and the first one is empty
        rcases List.mem_cons.1 hl with rfl | hl
        · exact List.not_mem_nil
        · exact ih hl
      · next hc =>
        -- the byte goes to the first line
        cases hs : b.splitOn LF with
        | nil => exact absurd hs (List.splitOn_ne_nil LF b)
        | cons m ms =>
            rw [hs] at hl ih
            rcases List.mem_cons.1 hl with rfl | hl
            · intro hmem
              rcases List.mem_cons.1 hmem with heq | hmem
              · exact hc (by simp [heq])
              · exact ih List.mem_cons_self hmem
            · exact ih (List.mem_cons_of_mem _ hl)

/-- The pairs that are left are those with a NUL-free key. -/
theorem pairsOf_dropNulKeys (b : Bytes) :
    pairsOf (dropNulKeys b) = (pairsOf b).filter fun p => 0 ∉ p.1 := by
  have hlines : ∀ l ∈ (b.splitOn LF).filter fun l => !hasNulKey l, LF ∉ l := by
    intro l hl
    exact lf_notMem_of_mem_splitOn (List.mem_of_mem_filter hl)
  rw [dropNulKeys, pairsOf_intercalate hlines, pairsOf, pairsOfLines, pairsOfLines,
    List.filter_filterMap, List.filterMap_filter]
  refine List.filterMap_congr fun l _ => ?_
  -- a line without a pair is left out on both sides
  cases hp : keyValue (stripCr l) with
  | none => simp [hasNulKey, hp]
  | some p => by_cases hnul : (0 : UInt8) ∈ p.1 <;> simp [hasNulKey, hp, hnul, Option.filter]

/-- **A line with the key itself settles the lookup.** What was stored before, and the lines whose key
has a NUL in it, do not count. -/
theorem get_putPairs_of_own {ps : List (Bytes × Bytes)} {key : CStr} :
    (∃ p ∈ ps, p.1 = key.bytes) → ∀ f g : CqFields,
      cqFieldsGet (putPairs f ps) key =
        cqFieldsGet (putPairs g (ps.filter fun p => 0 ∉ p.1)) key := by
  induction ps using List.reverseRecOn with
  | nil =>
      rintro ⟨p, hp, -⟩
      cases hp
  | append_singleton ps p ih =>
      intro hown f g
      rw [List.filter_append, putPairs_append, putPairs_append]
      by_cases hp : p.1 = key.bytes
      · -- the last line has the key: both sides read its value
        have hkept : [p].filter (fun q => 0 ∉ q.1) = [p] := by simp [hp, key.nulFree]
        have hlast : ∀ h : CqFields, cqFieldsGet (putPairs h [p]) key = some (dupRange p.2) := by
          intro h
          rw [putPairs_cons, hp]
          exact get_fieldsPut_self h key p.2
        rw [hkept, hlast, hlast]
      · -- the key stands in an earlier line, and what follows does not replace its value
        have hbefore : ∃ q ∈ ps, q.1 = key.bytes := by
          obtain ⟨q, hq, hkey⟩ := hown
          rcases List.mem_append.1 hq with hq | hq
          · exact ⟨q, hq, hkey⟩
          · exact absurd (List.mem_singleton.1 hq ▸ hkey) hp
        have hsame := ih hbefore f g
        obtain ⟨x, hx⟩ : ∃ x, cqFieldsGet (putPairs f ps) key = some x := by
          obtain ⟨q, hq, hkey⟩ := hbefore
          rw [← Option.ne_none_iff_exists', Ne, get_putPairs_eq_none_iff]
          rintro ⟨-, hnone⟩
          exact hnone q hq (by rw [hkey, dupRange, cstr_bytes])
        have hfirst : cqFieldsGet (putPairs (putPairs f ps) [p]) key = some x :=
          get_fieldsPut_of_some hp hx p.2
        rw [hfirst]
        rw [hx] at hsame
        symm
        apply get_putPairs_of_some _ hsame.symm
        intro q hq
        rw [List.mem_singleton.1 (List.mem_of_mem_filter hq)]
        exact hp

/-- **What the deletion of NUL keys changes.** A key reads the same with and without the lines whose
key part has a NUL in it exactly when a line has the key itself or no line's key reads as it in C. -/
theorem get_dropNulKeys_iff (b : Bytes) (key : CStr) :
    cqFieldsGet (cqFieldsParse cqFieldsInit b) key =
        cqFieldsGet (cqFieldsParse cqFieldsInit (dropNulKeys b)) key ↔
      HasLine b key ∨ ¬ HasView b key := by
  rw [cqFieldsParse_eq_putPairs, cqFieldsParse_eq_putPairs, pairsOf_dropNulKeys]
  by_cases hown : HasLine b key
  · exact ⟨fun _ => Or.inl hown, fun _ => get_putPairs_of_own hown _ _⟩
  · -- the deletion leaves nothing for the key: a NUL-free key that reads as it is the key
    have hdropped : cqFieldsGet (putPairs cqFieldsInit ((pairsOf b).filter fun p => 0 ∉ p.1)) key =
        none := by
      rw [get_putPairs_eq_none_iff]
      refine ⟨rfl, fun p hp hview => hown ⟨p, List.mem_of_mem_filter hp, ?_⟩⟩
      have hfree : (0 : UInt8) ∉ p.1 := by simpa using (List.mem_filter.1 hp).2
      rw [← hview, dupRange, cstr_bytes_of_nulFree hfree]
    have hview : cqFieldsGet (putPairs cqFieldsInit (pairsOf b)) key = none ↔ ¬ HasView b key := by
      rw [get_putPairs_eq_none_iff, HasView]
      push Not
      exact ⟨fun h => h.2, fun h => ⟨rfl, h⟩⟩
    rw [hdropped, hview]
    exact ⟨Or.inr, fun h => h.resolve_left hown⟩

/-- A junk line of an error reply's key: `error NUL x` is read back as `error`. -/
theorem get_dropNulKeys_counterexample :
    ¬ ∀ (b : Bytes) (key : CStr), cqFieldsGet (cqFieldsParse cqFieldsInit b) key =
      cqFieldsGet (cqFieldsParse cqFieldsInit (dropNulKeys b)) key := by
  intro h
  have hcase := h (ascii "error" ++ 0 :: ascii "x\tupstream\n") (.lit "error")
  exact absurd hcase (by decide)

end Casquinha.Wire
