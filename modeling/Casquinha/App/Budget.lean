import Casquinha.App.Adoption

/-!
# The connection budget

The automatic starters (cover, queue, `/stream` fact) open a transaction only below the budget, and
`TxInFlight` is what they measure it by. It counts eight of the nine handles: the artist drill came
later and is not among them. So a starter may open a fourth connection, and it does so exactly when a
drill is in flight beside two transactions that count (`connection_budget`).
-/

set_option autoImplicit false

namespace Casquinha.App

open Lib Wire

/-- The handles of all transactions that ride a connection of their own to the server. -/
def handles (s : Globals) : List (Option Tx) :=
  [s.gTx, s.probe.gCmd, s.gCover, s.gFire, s.gSearchTx, s.gArtistTx, s.gQueueTx, s.gPls, s.gFactTx]

/-- The transactions that are open. -/
def openTxs (s : Globals) : Nat := (handles s).countP Option.isSome

/-- An automatic gated starter opens its transaction: its handle was free and is not any more. -/
def opensGated (s : Globals) (e : Event) : Bool :=
  match e.act with
  | .startCover => s.gCover.isNone && (startCover e.env s).gCover.isSome
  | .pumpQueue => s.gQueueTx.isNone && (pumpQueue e.env s).gQueueTx.isSome
  | .pumpFact => s.gFactTx.isNone && (pumpFact e.env s).gFactTx.isSome
  | _ => false

/-- When a starter opens its transaction, fewer than the budget of the others are open. -/
def WithinBudget (s : Globals) (e : Event) : Prop :=
  opensGated s e = true → openTxs s < cqMaxInflight

/-- No starter opens beside an artist drill and as many counted transactions as leave room for one. -/
def DrillInBudget (s : Globals) (e : Event) : Prop :=
  opensGated s e = true → s.gArtistTx.isSome = true → txInFlight s + 1 ≠ cqMaxInflight

/-- `TxInFlight` counts every handle but the drill's. -/
theorem openTxs_eq (s : Globals) : openTxs s = txInFlight s + s.gArtistTx.toList.length := by
  have hcount : ∀ o : Option Tx, o.toList.length = if o.isSome = true then 1 else 0 := by
    intro o
    cases o <;> rfl
  simp only [openTxs, handles, txInFlight, List.countP_cons, List.countP_nil, hcount]
  omega

/-- Every starter looks at the budget first. -/
theorem txInFlight_lt_of_opensGated {s : Globals} {e : Event} (h : opensGated s e = true) :
    txInFlight s < cqMaxInflight := by
  obtain ⟨env, act⟩ := e
  by_contra hfull
  cases act with
  | startCover =>
      simp only [opensGated, Bool.and_eq_true, Option.isNone_iff_eq_none] at h
      obtain ⟨hfree, hopen⟩ := h
      -- at the limit the gate of the starter is shut, and the handle stays empty
      have hsame : (startCover env s).gCover = s.gCover := by
        rw [startCover]
        split
        · rfl
        · rw [if_neg fun hgate => hfull hgate.2.2.2.2.1]
      rw [hsame, hfree] at hopen
      cases hopen
  | pumpQueue =>
      simp only [opensGated, Bool.and_eq_true, Option.isNone_iff_eq_none] at h
      obtain ⟨hfree, hopen⟩ := h
      have hsame : (pumpQueue env s).gQueueTx = s.gQueueTx := by
        simp only [pumpQueue, hfree, startQueue]
        rw [if_neg fun hgate => hfull hgate.2.1]
        exact hfree
      rw [hsame, hfree] at hopen
      cases hopen
  | pumpFact =>
      simp only [opensGated, Bool.and_eq_true, Option.isNone_iff_eq_none] at h
      obtain ⟨hfree, hopen⟩ := h
      have hsame : (pumpFact env s).gFactTx = s.gFactTx := by
        simp only [pumpFact, hfree, startFact]
        rw [if_neg fun hgate => hfull hgate.2.2.1]
        exact hfree
      rw [hsame, hfree] at hopen
      cases hopen
  | _ => cases h

/-- **One step** stays within the budget if and only if it does not open beside an uncounted drill at
the limit. -/
theorem withinBudget_iff (s : Globals) (e : Event) : WithinBudget s e ↔ DrillInBudget s e := by
  constructor
  · intro h hopens hdrill hlimit
    have hlt := h hopens
    obtain ⟨tx, htx⟩ := Option.isSome_iff_exists.1 hdrill
    rw [openTxs_eq, htx] at hlt
    simp only [Option.toList_some, List.length_cons, List.length_nil] at hlt
    omega
  · intro h hopens
    have hlt := txInFlight_lt_of_opensGated hopens
    rw [openTxs_eq]
    cases hdrill : s.gArtistTx with
    | none => simpa using hlt
    | some tx =>
        have hlimit := h hopens (by rw [hdrill]; rfl)
        simp only [Option.toList_some, List.length_cons, List.length_nil]
        omega

/-- **The connection budget.** Every automatic start of a run finds fewer than the budget of the other
transactions open if and only if none of them is made beside an artist drill with two counted
transactions open. -/
theorem connection_budget (host : CStr) (port : Nat) (autoStart qtOk : Bool) (events : List Event) :
    Meets step DrillInBudget (launch host port autoStart qtOk) events ↔
      Meets step WithinBudget (launch host port autoStart qtOk) events :=
  meets_congr_of_inv (fun _ => True) (fun _ _ _ _ _ => trivial)
    (fun s e _ => (withinBudget_iff s e).symm) trivial

/-- A drill, a poll and a command are in flight. -/
def threeInFlight : List Event :=
  [⟨worldAt 1000 .running, .runSearch (.lit "rosa")⟩,
    ⟨worldAt 1060 (.done (ascii "artist.0.id\tR1\n")), .pumpSearch⟩,
    ⟨worldAt 1200 .running, .clickResult 0⟩,
    ⟨worldAt 1210 .running, .pollNow⟩,
    ⟨worldAt 1220 .running, .script .play⟩]

/-- **A fourth connection.** The queue poll opens beside three others. -/
theorem drill_breaks_budget :
    (run step (launch (.lit "192.0.2.10") 70 false false) threeInFlight).map
        (fun s => (openTxs s, opensGated s ⟨worldAt 1230 .running, .pumpQueue⟩)) =
      some (cqMaxInflight, true) := by
  decide +kernel

end Casquinha.App
