import Mathlib.Data.List.Basic

/-!
# One handle at a time

A trace of what is done with handles keeps the rules when every handle is used and released while it is held, and none
is acquired before the last one was released. `held` plays a trace and says which handle is held behind it, or that it
breaks the rules. A trace that ends with nothing held has released everything it acquired, once each.
-/

set_option autoImplicit false

namespace Lib

universe u v

variable {H : Type u} {O : Type v} [DecidableEq H]

/-- What is done with a handle. -/
inductive Access (H : Type u) (O : Type v) where
  | acquire (h : H)
  | use (h : H) (op : O)
  | release (h : H)
deriving DecidableEq

namespace Access

/-- The handle that is held behind a step; `none` is a broken rule. -/
def step : Option H → Access H O → Option (Option H)
  | none, acquire h => some (some h)
  | some k, use h _ => if h = k then some (some k) else none
  | some k, release h => if h = k then some none else none
  | none, use _ _ | none, release _ | some _, acquire _ => none

/-- The handle that is held behind a trace which begins with `cur` held. -/
def held : Option H → List (Access H O) → Option (Option H)
  | cur, [] => some cur
  | cur, a :: trace => (step cur a).bind fun next => held next trace

theorem held_append (cur : Option H) (s t : List (Access H O)) :
    held cur (s ++ t) = (held cur s).bind fun next => held next t := by
  induction s generalizing cur with
  | nil => rfl
  | cons a s ih =>
      rw [List.cons_append, held, held]
      cases step cur a with
      | none => rfl
      | some next => exact ih next

theorem held_trans {cur mid last : Option H} {s t : List (Access H O)} (hs : held cur s = some mid)
    (ht : held mid t = some last) : held cur (s ++ t) = some last := by
  rw [held_append, hs]
  exact ht

theorem held_uses (h : H) (ops : List O) : held (some h) (ops.map (Access.use h)) = some (some h) := by
  induction ops with
  | nil => rfl
  | cons op ops ih =>
      rw [List.map_cons, held, step, if_pos rfl]
      exact ih

theorem held_release (h : H) : held (some h) [(release h : Access H O)] = some none := by
  rw [held, step, if_pos rfl]
  rfl

/-- A handle that is acquired, used and released. -/
theorem held_session (h : H) (ops : List O) :
    held none (acquire h :: (ops.map (Access.use h) ++ [release h])) = some none := by
  rw [held, step, Option.bind_some]
  exact held_trans (held_uses h ops) (held_release h)

end Access

end Lib
