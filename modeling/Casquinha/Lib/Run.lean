import Mathlib.Data.List.Basic

/-!
# Runs of a machine

A machine is a step function `S → A → Option S`; an action that is not possible in a state has no
successor. `run` performs a list of actions. `Meets ok` says that every step of a run meets a
condition on the state it starts from and its action. An invariant that every such step preserves
holds in every state such a run reaches. A machine may carry a log of its history (`traced`).
-/

set_option autoImplicit false

namespace Lib

universe u v w

variable {S : Type u} {A : Type v}

/-- Perform the actions from left to right. -/
def run (step : S → A → Option S) : S → List A → Option S
  | s, [] => some s
  | s, a :: as => (step s a).bind fun t => run step t as

/-- Every step of the run meets `ok`. -/
def Meets (step : S → A → Option S) (ok : S → A → Prop) : S → List A → Prop
  | _, [] => True
  | s, a :: as => ok s a ∧ ∀ t, step s a = some t → Meets step ok t as

variable {step : S → A → Option S}

@[simp] theorem run_nil (s : S) : run step s [] = some s := rfl

theorem run_cons (s : S) (a : A) (as : List A) :
    run step s (a :: as) = (step s a).bind fun t => run step t as := rfl

theorem run_append (s : S) (as bs : List A) :
    run step s (as ++ bs) = (run step s as).bind fun t => run step t bs := by
  induction as generalizing s with
  | nil => rfl
  | cons a as ih =>
      rw [List.cons_append, run_cons, run_cons]
      cases step s a with
      | none => rfl
      | some t => exact ih t

/-- A run of decidable steps can be checked. -/
instance decidableMeets {ok : S → A → Prop} [∀ s a, Decidable (ok s a)] :
    ∀ (s : S) (as : List A), Decidable (Meets step ok s as)
  | _, [] => isTrue trivial
  | s, a :: as =>
      match h : step s a with
      | none =>
          decidable_of_iff (ok s a)
            ⟨fun hok => ⟨hok, fun t ht => by rw [h] at ht; cases ht⟩, And.left⟩
      | some t =>
          have : Decidable (Meets step ok t as) := decidableMeets t as
          decidable_of_iff (ok s a ∧ Meets step ok t as)
            ⟨fun hok => ⟨hok.1, fun u hu => by rw [h] at hu; cases hu; exact hok.2⟩,
              fun hm => ⟨hm.1, hm.2 t h⟩⟩

theorem meets_of_forall {ok : S → A → Prop} {as : List A} (h : ∀ a ∈ as, ∀ s, ok s a) (s : S) :
    Meets step ok s as := by
  induction as generalizing s with
  | nil => trivial
  | cons a as ih =>
      exact ⟨h a List.mem_cons_self s, fun t _ => ih (fun b hb => h b (List.mem_cons_of_mem _ hb)) t⟩

/-- The first step, and the run from where it leads. -/
theorem meets_cons {ok : S → A → Prop} {a : A} {as : List A} {s t : S} (hok : ok s a) (ht : step s a = some t)
    (hrest : Meets step ok t as) : Meets step ok s (a :: as) := by
  refine ⟨hok, ?_⟩
  intro u hu
  cases ht.symm.trans hu
  exact hrest

/-- Two conditions that a run meets. -/
theorem meets_and {ok ok' : S → A → Prop} {as : List A} {s : S} (h : Meets step ok s as)
    (h' : Meets step ok' s as) : Meets step (fun s a => ok s a ∧ ok' s a) s as := by
  induction as generalizing s with
  | nil => trivial
  | cons a as ih => exact ⟨⟨h.1, h'.1⟩, fun t ht => ih (h.2 t ht) (h'.2 t ht)⟩

theorem meets_append {ok : S → A → Prop} {as bs : List A} {s t : S} (h : run step s as = some t) :
    Meets step ok s (as ++ bs) ↔ Meets step ok s as ∧ Meets step ok t bs := by
  induction as generalizing s with
  | nil =>
      cases h
      exact ⟨fun hbs => ⟨trivial, hbs⟩, And.right⟩
  | cons a as ih =>
      obtain ⟨u, hu, hrun⟩ := Option.bind_eq_some_iff.1 h
      constructor
      · rintro ⟨hok, hrest⟩
        obtain ⟨has, hbs⟩ := (ih hrun).1 (hrest u hu)
        refine ⟨⟨hok, ?_⟩, hbs⟩
        intro v hv
        rw [hu] at hv
        cases hv
        exact has
      · rintro ⟨⟨hok, hrest⟩, hbs⟩
        refine ⟨hok, ?_⟩
        intro v hv
        rw [hu] at hv
        cases hv
        exact (ih hrun).2 ⟨hrest u hu, hbs⟩

/-- **Induction over a run.** -/
theorem run_invariant (Inv : S → Prop) (hstep : ∀ s a t, Inv s → step s a = some t → Inv t) :
    ∀ {as : List A} {s t : S}, Inv s → run step s as = some t → Inv t := by
  intro as
  induction as with
  | nil =>
      intro s t hs h
      cases h
      exact hs
  | cons a as ih =>
      intro s t hs h
      obtain ⟨u, hu, hrun⟩ := Option.bind_eq_some_iff.1 h
      exact ih (hstep s a u hs hu) hrun

/-- **Induction over a run whose steps all meet a condition.** -/
theorem run_invariant_of_meets (Inv : S → Prop) {ok : S → A → Prop}
    (hstep : ∀ s a t, Inv s → ok s a → step s a = some t → Inv t) :
    ∀ {as : List A} {s t : S}, Inv s → Meets step ok s as → run step s as = some t → Inv t := by
  intro as
  induction as with
  | nil =>
      intro s t hs _ h
      cases h
      exact hs
  | cons a as ih =>
      intro s t hs hm h
      obtain ⟨u, hu, hrun⟩ := Option.bind_eq_some_iff.1 h
      exact ih (hstep s a u hs hm.1 hu) (hm.2 u hu) hrun

/-- A run in which every step meets a condition reaches only states that satisfy a law, and conversely:
the condition keeps an invariant that gives the law, and a step that breaks the condition breaks the
law. -/
theorem meets_iff_of_law (Inv : S → Prop) {Law : S → Prop} {ok : S → A → Prop}
    (hlaw : ∀ s, Inv s → Law s)
    (hkeep : ∀ s a t, Inv s → ok s a → step s a = some t → Inv t)
    (hneed : ∀ s a t, Inv s → step s a = some t → Law t → ok s a)
    (htotal : ∀ s a, (step s a).isSome) {as : List A} {s : S} (hs : Inv s) :
    Meets step ok s as ↔ ∀ before t, before <+: as → run step s before = some t → Law t := by
  induction as generalizing s with
  | nil =>
      refine ⟨?_, fun _ => trivial⟩
      intro _ before t hbefore ht
      rw [List.prefix_nil.1 hbefore] at ht
      cases ht
      exact hlaw s hs
  | cons a as ih =>
      obtain ⟨u, hu⟩ := Option.isSome_iff_exists.1 (htotal s a)
      constructor
      · rintro ⟨hok, hrest⟩ before t hbefore ht
        rcases List.prefix_cons_iff.1 hbefore with rfl | ⟨bs, rfl, hbs⟩
        · cases ht
          exact hlaw s hs
        · rw [run_cons, hu, Option.bind_some] at ht
          exact (ih (hkeep s a u hs hok hu)).1 (hrest u hu) bs t hbs ht
      · intro hall
        -- the law after the first step is what makes that step meet the condition
        have hlawu : Law u :=
          hall [a] u (by simp) (by rw [run_cons, hu, Option.bind_some, run_nil])
        have hok : ok s a := hneed s a u hs hu hlawu
        refine ⟨hok, ?_⟩
        intro t ht
        rw [hu] at ht
        cases ht
        apply (ih (hkeep s a u hs hok hu)).2
        intro before t hbefore ht
        apply hall (a :: before) t
        · exact List.prefix_cons_iff.2 (Or.inr ⟨before, rfl, hbefore⟩)
        · rw [run_cons, hu, Option.bind_some, ht]

/-- A condition that is exactly what a step needs to keep an invariant is met by exactly the runs whose
states all satisfy it. -/
theorem meets_iff_of_step_iff {Inv : S → Prop} {ok : S → A → Prop}
    (hstep : ∀ s a t, Inv s → step s a = some t → (Inv t ↔ ok s a))
    (htotal : ∀ s a, (step s a).isSome) {as : List A} {s : S} (hs : Inv s) :
    Meets step ok s as ↔ ∀ before t, before <+: as → run step s before = some t → Inv t :=
  meets_iff_of_law Inv (fun _ h => h) (fun s a t h hok ht => (hstep s a t h ht).2 hok)
    (fun s a t h ht hinv => (hstep s a t h ht).1 hinv) htotal hs

/-- What an invariant gives for every step is met by every run. -/
theorem meets_of_invariant (Inv : S → Prop) {ok : S → A → Prop}
    (hkeep : ∀ s a t, Inv s → step s a = some t → Inv t) (hok : ∀ s a, Inv s → ok s a)
    {as : List A} {s : S} (hs : Inv s) : Meets step ok s as := by
  induction as generalizing s with
  | nil => trivial
  | cons a as ih => exact ⟨hok s a hs, fun t ht => ih (hkeep s a t hs ht)⟩

/-- Two conditions that agree wherever an invariant holds are met by the same runs, when the steps that
meet them keep it. -/
theorem meets_congr_of_keep (Inv : S → Prop) {given ok ok' : S → A → Prop}
    (hkeep : ∀ s a t, Inv s → given s a → ok s a → step s a = some t → Inv t)
    (hiff : ∀ s a, Inv s → given s a → (ok s a ↔ ok' s a)) {as : List A} {s : S} (hs : Inv s)
    (hgiven : Meets step given s as) : Meets step ok s as ↔ Meets step ok' s as := by
  induction as generalizing s with
  | nil => exact Iff.rfl
  | cons a as ih =>
      obtain ⟨hfirst, hlater⟩ := hgiven
      have hagree := hiff s a hs hfirst
      constructor
      · rintro ⟨hok, hrest⟩
        refine ⟨hagree.1 hok, ?_⟩
        intro t ht
        exact (ih (hkeep s a t hs hfirst hok ht) (hlater t ht)).1 (hrest t ht)
      · rintro ⟨hok', hrest⟩
        have hok := hagree.2 hok'
        refine ⟨hok, ?_⟩
        intro t ht
        exact (ih (hkeep s a t hs hfirst hok ht) (hlater t ht)).2 (hrest t ht)

/-- Two conditions that agree wherever an invariant holds are met by the same of the runs that keep it. -/
theorem meets_congr_of_meets (Inv : S → Prop) {given ok ok' : S → A → Prop}
    (hkeep : ∀ s a t, Inv s → given s a → step s a = some t → Inv t)
    (hiff : ∀ s a, Inv s → (ok s a ↔ ok' s a)) {as : List A} {s : S} (hs : Inv s)
    (hgiven : Meets step given s as) : Meets step ok s as ↔ Meets step ok' s as := by
  apply meets_congr_of_keep Inv ?_ ?_ hs hgiven
  · intro s a t h hfirst _ ht
    exact hkeep s a t h hfirst ht
  · intro s a h _
    exact hiff s a h

/-- A condition that an invariant and the given condition imply is met by every run that meets the given
one. -/
theorem meets_of_meets (Inv : S → Prop) {given ok : S → A → Prop}
    (hkeep : ∀ s a t, Inv s → given s a → step s a = some t → Inv t)
    (hok : ∀ s a, Inv s → given s a → ok s a) {as : List A} {s : S} (hs : Inv s)
    (hgiven : Meets step given s as) : Meets step ok s as := by
  induction as generalizing s with
  | nil => trivial
  | cons a as ih =>
      obtain ⟨hfirst, hlater⟩ := hgiven
      refine ⟨hok s a hs hfirst, ?_⟩
      intro t ht
      exact ih (hkeep s a t hs hfirst ht) (hlater t ht)

/-- Every run keeps an invariant that no step breaks. -/
theorem meets_congr_of_inv (Inv : S → Prop) {ok ok' : S → A → Prop}
    (hkeep : ∀ s a t, Inv s → step s a = some t → Inv t)
    (hiff : ∀ s a, Inv s → (ok s a ↔ ok' s a)) {as : List A} {s : S} (hs : Inv s) :
    Meets step ok s as ↔ Meets step ok' s as := by
  have hany : Meets step (fun _ _ => True) s as := meets_of_forall (fun _ _ _ => trivial) s
  apply meets_congr_of_meets Inv ?_ hiff hs hany
  intro s a t h _ ht
  exact hkeep s a t h ht

/-- Two machines that take the same steps wherever an invariant of the second holds have the same runs. -/
theorem run_congr_of_meets {step' : S → A → Option S} (Inv : S → Prop) {ok : S → A → Prop}
    (hkeep : ∀ s a t, Inv s → ok s a → step' s a = some t → Inv t)
    (hagree : ∀ s a, Inv s → ok s a → step s a = step' s a) {as : List A} {s : S} (hs : Inv s)
    (hmeets : Meets step ok s as) : Meets step' ok s as ∧ run step s as = run step' s as := by
  induction as generalizing s with
  | nil => exact ⟨trivial, rfl⟩
  | cons a as ih =>
      obtain ⟨hok, hrest⟩ := hmeets
      have hsame := hagree s a hs hok
      cases ht : step' s a with
      | none =>
          refine ⟨⟨hok, ?_⟩, ?_⟩
          · intro t hnone
            rw [ht] at hnone
            cases hnone
          · rw [run_cons, run_cons, hsame, ht]
            rfl
      | some t =>
          obtain ⟨hmeets', hrun⟩ := ih (hkeep s a t hs hok ht) (hrest t (hsame.trans ht))
          refine ⟨⟨hok, ?_⟩, ?_⟩
          · intro u hu
            rw [ht] at hu
            cases hu
            exact hmeets'
          · rw [run_cons, run_cons, hsame, ht]
            exact hrun

/-! ## History -/

/-- A state with a log that is written along a run and never read. -/
structure Traced (S : Type u) (L : Type w) where
  state : S
  log : L

/-- The machine, with a log. -/
def traced {L : Type w} (step : S → A → Option S) (note : L → S → A → L) (x : Traced S L) (a : A) :
    Option (Traced S L) :=
  (step x.state a).map fun t => ⟨t, note x.log x.state a⟩

variable {L : Type w} (note : L → S → A → L)

/-- Nor does it change which runs meet a condition on the state. -/
theorem meets_traced {ok : S → A → Prop} (as : List A) (x : Traced S L) :
    Meets (traced step note) (fun y a => ok y.state a) x as ↔ Meets step ok x.state as := by
  induction as generalizing x with
  | nil => exact Iff.rfl
  | cons a as ih =>
      constructor
      · rintro ⟨hok, hrest⟩
        refine ⟨hok, ?_⟩
        intro t ht
        apply (ih ⟨t, note x.log x.state a⟩).1
        apply hrest
        rw [traced, ht]
        rfl
      · rintro ⟨hok, hrest⟩
        refine ⟨hok, ?_⟩
        intro y hy
        obtain ⟨t, ht, rfl⟩ := Option.map_eq_some_iff.1 hy
        exact (ih _).2 (hrest t ht)

end Lib
