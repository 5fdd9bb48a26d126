import Casquinha.Lib.CString
import Mathlib.Data.List.DropRight
import Mathlib.Data.List.MinMax
import Mathlib.Data.List.Nodup

/-!
# Lines of text

A text is a sequence of lines, each with an ending of its own (`doc`). Split at every CR and LF, a text
gives its lines and, for each CRLF, one empty line more, so readers that pass over empty lines see the
same lines whatever the endings are (`filter_splitOnP_doc`).

A reader that keeps the least of the lines' keys, and replaces it only by a smaller one, has kept the
first least one (`split_of_mem_argmin`), which does not depend on the order of the lines when the keys
differ (`argmin_eq_of_perm`).
-/

set_option autoImplicit false

namespace Lib

/-! ## Endings -/

/-- CR or LF. -/
def isEol (c : UInt8) : Bool := c = 13 || c = 10

/-- The end of a line. -/
inductive Ending where
  | cr
  | lf
  | crlf
deriving DecidableEq

/-- The bytes of an ending. -/
def Ending.bytes : Ending → Bytes
  | .cr => [13]
  | .lf => [10]
  | .crlf => [13, 10]

/-- The text of some lines with their endings and a last line without one. -/
def doc : List (Bytes × Ending) → Bytes → Bytes
  | [], last => last
  | (line, ending) :: lines, last => line ++ ending.bytes ++ doc lines last

/-- Neither CR nor LF is in the line. -/
def OneLine (line : Bytes) : Prop := ∀ c ∈ line, isEol c = false

instance (line : Bytes) : Decidable (OneLine line) := List.decidableBAll _ line

theorem splitOnP_line {line : Bytes} (h : OneLine line) : line.splitOnP isEol = [line] :=
  List.splitOnP_eq_singleton h

/-- Split behind a line and its ending, a text gives that line, and an empty one for a CRLF. -/
theorem splitOnP_ending {line : Bytes} (h : OneLine line) (ending : Ending) (rest : Bytes) :
    (line ++ ending.bytes ++ rest).splitOnP isEol =
      line :: (if ending = .crlf then [[]] else []) ++ rest.splitOnP isEol := by
  cases ending with
  | cr =>
      rw [Ending.bytes, List.append_assoc, List.singleton_append,
        List.splitOnP_append_cons_of_forall_mem h 13 (by decide)]
      rfl
  | lf =>
      rw [Ending.bytes, List.append_assoc, List.singleton_append,
        List.splitOnP_append_cons_of_forall_mem h 10 (by decide)]
      rfl
  | crlf =>
      have empty : ([10] ++ rest).splitOnP isEol = [] :: rest.splitOnP isEol :=
        @List.splitOnP_append_cons_of_forall_mem _ isEol [] (by simp) 10 (by decide) rest
      rw [Ending.bytes, List.append_assoc, List.cons_append,
        List.splitOnP_append_cons_of_forall_mem h 13 (by decide), empty]
      rfl

/-- The text up to the next CR or LF, and what follows. -/
theorem cut_at_eol (p : Bytes) :
    OneLine (p.takeWhile fun c => !isEol c) ∧
      ((p.drop (p.takeWhile fun c => !isEol c).length = [] ∧
          p = p.takeWhile fun c => !isEol c) ∨
        ∃ c p', p.drop (p.takeWhile fun c => !isEol c).length = c :: p' ∧ isEol c = true ∧
          p = (p.takeWhile fun c => !isEol c) ++ c :: p') := by
  have here : OneLine (p.takeWhile fun c => !isEol c) := by
    intro c hc
    simpa using List.mem_takeWhile_imp hc
  have whole : (p.takeWhile fun c => !isEol c) ++ (p.dropWhile fun c => !isEol c) = p :=
    List.takeWhile_append_dropWhile
  have rest : p.drop (p.takeWhile fun c => !isEol c).length = p.dropWhile fun c => !isEol c :=
    (congrArg (List.drop _) whole.symm).trans List.drop_left
  refine ⟨here, ?_⟩
  rw [rest]
  cases hd : p.dropWhile fun c => !isEol c with
  | nil =>
      rw [hd, List.append_nil] at whole
      exact .inl ⟨rfl, whole.symm⟩
  | cons c p' =>
      have stops := List.head_dropWhile_not (fun c => !isEol c) (l := p) (by simp [hd])
      rw [hd] at whole
      simp only [hd, List.head_cons, Bool.not_eq_false'] at stops
      exact .inr ⟨c, p', rfl, stops, whole.symm⟩

/-- A reader that passes over empty lines sees the lines of the text. `f` is what it makes of a line. -/
theorem filter_splitOnP_doc (f : Bytes → Bytes) (hf : f [] = []) (lines : List (Bytes × Ending))
    {last : Bytes} (hlines : ∀ l ∈ lines, OneLine l.1) (hlast : OneLine last) :
    (((doc lines last).splitOnP isEol).map f).filter (· ≠ []) =
      ((lines.map Prod.fst ++ [last]).map f).filter (· ≠ []) := by
  induction lines with
  | nil =>
      rw [doc, splitOnP_line hlast]
      rfl
  | cons l lines ih =>
      obtain ⟨line, ending⟩ := l
      have later := ih fun l hl => hlines l (List.mem_cons_of_mem _ hl)
      have here : OneLine line := hlines (line, ending) List.mem_cons_self
      have crlf_adds_nothing :
          ((if ending = .crlf then [[]] else [] : List Bytes).map f).filter (· ≠ []) = [] := by
        split
        · simp [hf]
        · rfl
      rw [doc, splitOnP_ending here, List.map_append, List.filter_append, later, List.map_cons,
        List.filter_cons, crlf_adds_nothing]
      simp only [List.map_cons, List.cons_append, List.filter_cons]
      split <;> rfl

/-! ## Trimming -/

/-- A line without the bytes of `p` at its ends. -/
def trim (p : UInt8 → Bool) (line : Bytes) : Bytes := (line.dropWhile p).rdropWhile p

/-! ## The first least key -/

/-- The least key of a list is kept at its first place. -/
theorem split_of_mem_argmin {α β : Type} [DecidableEq α] [LinearOrder β] {f : α → β} {l : List α}
    {m : α} (h : m ∈ l.argmin f) :
    ∃ before after, l = before ++ m :: after ∧ (∀ a ∈ before, f m < f a) ∧
      ∀ a ∈ after, f m ≤ f a := by
  obtain ⟨hm, least, first⟩ := List.mem_argmin_iff.1 h
  obtain ⟨before, after, hl, hnot⟩ := List.eq_append_cons_of_mem hm
  refine ⟨before, after, hl, ?_, fun a ha => least a (by simp [hl, ha])⟩
  intro a ha
  refine lt_of_le_of_ne (least a (by simp [hl, ha])) fun tie => ?_
  have place := first a (by simp [hl, ha]) tie.symm.le
  rw [hl, List.idxOf_append_of_mem ha, List.idxOf_append_of_notMem hnot, List.idxOf_cons_self] at place
  exact absurd place (Nat.not_le.2 (List.idxOf_lt_length_of_mem ha))

/-- With keys that differ, the order of the list does not matter. -/
theorem argmin_eq_of_perm {α β : Type} [LinearOrder β] {f : α → β} {l l' : List α}
    (perm : l.Perm l') (distinct : (l.map f).Nodup) : l.argmin f = l'.argmin f := by
  cases h : l.argmin f with
  | none =>
      rw [List.argmin_eq_none.1 h, List.nil_perm] at perm
      rw [perm]
      rfl
  | some m =>
      cases h' : l'.argmin f with
      | none =>
          rw [List.argmin_eq_none.1 h', List.perm_nil] at perm
          rw [perm] at h
          cases h
      | some m' =>
          have hm := List.argmin_mem h
          have hm' := perm.mem_iff.2 (List.argmin_mem h')
          have tie : f m = f m' :=
            le_antisymm (List.le_of_mem_argmin hm' h) (List.le_of_mem_argmin (perm.mem_iff.1 hm) h')
          rw [List.inj_on_of_nodup_map distinct hm hm' tie]

end Lib
