import Mathlib.Data.List.DropRight

/-!
# The last elements of a stream

A window holds the last elements of a stream, `cap` of them at most. A block that refers back into the stream is put
together from the end of the window and its own elements (`view`); what a block leaves unused is the next window
(`slide`). Whatever is kept so is the end of the stream (`IsTail.slide`), and a block that refers back no further
than the window reaches is a part of the stream (`IsTail.view_eq`).
-/

set_option autoImplicit false

namespace Lib

universe u

variable {α : Type u}

/-! ## The end of a list -/

theorem length_rtake (l : List α) (n : Nat) : (l.rtake n).length = min n l.length := by
  rw [List.rtake, List.length_drop]
  omega

theorem rtake_suffix (l : List α) (n : Nat) : l.rtake n <:+ l := List.drop_suffix _ l

theorem rtake_append (l m : List α) (n : Nat) : (l ++ m).rtake (n + m.length) = l.rtake n ++ m := by
  rw [List.rtake, List.rtake, List.length_append, Nat.add_sub_add_right,
    List.drop_append_of_le_length (Nat.sub_le _ _)]

/-- The end of a list is the end of its end. -/
theorem rtake_of_suffix {w l : List α} {n : Nat} (h : w <:+ l) (hn : n ≤ w.length) : l.rtake n = w.rtake n := by
  obtain ⟨before, rfl⟩ := h
  rw [List.rtake, List.rtake, List.length_append, Nat.add_sub_assoc hn, List.drop_append]
  rw [List.drop_of_length_le (Nat.le_add_right _ _), List.nil_append, Nat.add_sub_cancel_left]

/-! ## Windows -/

/-- At most `cap` elements. -/
@[ext] structure Window (α : Type u) (cap : Nat) where
  held : List α
  length_le : held.length ≤ cap

namespace Window

variable {cap : Nat}

/-- A block that begins `back` elements before its own. -/
def view (w : Window α cap) (back : Nat) (block : List α) : List α := w.held.rtake back ++ block

/-- The window behind a block, of which `used` elements are no longer needed. -/
def slide (view : List α) (used : Nat) : Window α cap :=
  ⟨(view.drop used).rtake cap, by rw [length_rtake]; exact Nat.min_le_left _ _⟩

theorem length_view (w : Window α cap) (back : Nat) (block : List α) :
    (w.view back block).length = min back w.held.length + block.length := by
  rw [view, List.length_append, length_rtake]

theorem held_slide (view : List α) (used : Nat) :
    (slide view used : Window α cap).held = (view.drop used).rtake cap := rfl

theorem length_slide (view : List α) (used : Nat) :
    (slide view used : Window α cap).held.length = min cap (view.length - used) := by
  rw [slide, length_rtake, List.length_drop]

/-- The window holds the end of the stream. -/
def IsTail (w : Window α cap) (stream : List α) : Prop := w.held <:+ stream

theorem IsTail.view_suffix {w : Window α cap} {stream : List α} (h : w.IsTail stream) (back : Nat) (block : List α) :
    w.view back block <:+ stream ++ block := by
  obtain ⟨before, hbefore⟩ := (rtake_suffix w.held back).trans h
  exact ⟨before, by rw [view, ← List.append_assoc, hbefore]⟩

/-- **A window stays the end of its stream**, however far a block refers back and however much of it is used. -/
theorem IsTail.slide {w : Window α cap} {stream : List α} (h : w.IsTail stream) (back used : Nat) (block : List α) :
    (Window.slide (w.view back block) used : Window α cap).IsTail (stream ++ block) :=
  ((rtake_suffix _ cap).trans (List.drop_suffix used _)).trans (h.view_suffix back block)

/-- **A block that refers back no further than the window reaches** is the end of the stream. -/
theorem IsTail.view_eq {w : Window α cap} {stream : List α} (h : w.IsTail stream) {back : Nat}
    (hback : back ≤ w.held.length) (block : List α) :
    w.view back block = (stream ++ block).rtake (back + block.length) := by
  rw [rtake_append, rtake_of_suffix h hback, view]

end Window

end Lib
