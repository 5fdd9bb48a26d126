import Casquinha.App.Acknowledge

/-!
# The marks of the auto-start and the debouncer

The auto-start decides off the first snapshot that is adopted, and never again. A tap waits in the
debouncer until a later one replaces it or `PollNetwork` sends it. Nothing else touches these globals:
`marks_of_adopts` says what an adoption leaves of them, `marks_kept` that every other step leaves them as
they are.
-/

set_option autoImplicit false

namespace Casquinha.App

open Lib Wire

/-- The selector that a step puts into the debouncer. -/
def tapOf (s : Globals) (e : Event) : Option CStr :=
  match e.act with
  | .clickPrev => some (.lit "/spot/api/1/prev")
  | .clickNext =>
      match nextRow s with
      | none => some (.lit "/spot/api/1/next")
      | some _ => none
  | _ => none

/-! ## Renders and replies -/

theorem marks_dropIntent (s : Globals) (v : CqView) : marks (dropIntent s v) = marks s := by
  rw [dropIntent]
  split <;> rfl

theorem marks_redraw (env : Env) (s : Globals) : marks (redraw env s) = marks s :=
  marks_dropIntent _ _

theorem marks_dropPending (s : Globals) : marks (dropPending s) = marks s := by
  rw [dropPending]
  split <;> rfl

/-- The auto-start decides once. -/
theorem marks_autoWake (env : Env) (s : Globals) :
    marks (autoWake env s) =
      (s.gAutoStart, s.gAutoStart || s.gAutoWoke, s.gDeb, s.gCmdFire) := by
  by_cases hdecides : s.gAutoStart = true ∧ s.gAutoWoke = false
  · have hdecided : marks (autoWake env s) = marks { s with gAutoWoke := true } := by
      simp only [autoWake, if_pos hdecides]
      split
      · split
        · rfl
        · exact (starts_startCommand env _ _).frame marks rfl
        · rfl
      · exact (starts_startCommand env _ _).frame marks rfl
    rw [hdecided, hdecides.1]
    simp only [marks, Bool.true_or]
  · have hkept : autoWake env s = s := by
      simp only [autoWake, if_neg hdecides]
    rw [hkept, marks]
    cases hstart : s.gAutoStart with
    | false => rw [Bool.false_or]
    | true =>
        have hwoke : s.gAutoWoke = true := by simpa [hstart] using hdecides
        rw [hwoke, Bool.or_self]

/-- **An adoption** makes the auto-start decide, and leaves the debouncer alone. -/
theorem marks_of_adopts {s : Globals} {e : Event} {n : CqNow} (h : adopts s e = some n) :
    marks (perform e.env s e.act) =
      (s.gAutoStart, s.gAutoStart || s.gAutoWoke, s.gDeb, s.gCmdFire) := by
  have hreply : ∀ {data : Bytes} (isCmd : Bool), healthyReply data = some n →
      (cqGuardAcceptTs s.shown.gGuard n.ts).1 = true →
      marks (adoptReply e.env s data isCmd) =
        (s.gAutoStart, s.gAutoStart || s.gAutoWoke, s.gDeb, s.gCmdFire) := by
    intro data isCmd hdata haccept
    have hkept := congrArg Prod.snd
      ((notes_settled e.env (adopting s isCmd n) n).trans (notes_adopting s isCmd n))
    simp only [notes, marks, Prod.mk.injEq] at hkept
    obtain ⟨hstart, hwoke, hdeb, hfire⟩ := hkept
    rw [adoptReply_of_adopts isCmd hdata haccept, marks_redraw, adoptSnapshot, marks_dropPending]
    show marks (autoWake e.env (settled e.env (adopting s isCmd n) n)) = _
    rw [marks_autoWake, hstart, hwoke, hdeb, hfire]
  obtain ⟨data, hdata, haccept, hstep⟩ := adopts_cases h
  rcases hstep with ⟨-, -, hperform⟩ | ⟨-, hperform⟩
  · rw [hperform]
    exact hreply true hdata haccept
  · rw [hperform]
    exact hreply false hdata haccept

/-- A reply that is not adopted leaves the marks alone. -/
theorem marks_adoptReply_of_stale {env : Env} {s : Globals} {data : Bytes} (isCmd : Bool)
    (hstale : (healthyReply data).filter (fun n => (cqGuardAcceptTs s.shown.gGuard n.ts).1) = none) :
    marks (adoptReply env s data isCmd) = marks s :=
  (marks_redraw env (replied env s data isCmd)).trans
    (congrArg Prod.snd (notes_replied_of_stale isCmd hstale))

/-! ## Steps -/

theorem marks_pumpCmd {env : Env} {s : Globals} (h : adopts s ⟨env, .pumpCmd⟩ = none) :
    marks (pumpCmd env s) = marks s := by
  rw [pumpCmd]
  cases hcmd : s.probe.gCmd with
  | none => rfl
  | some tx =>
      dsimp only
      cases hpoll : env.poll tx.id with
      | running => rfl
      | failed message => exact marks_redraw env _
      | done data =>
          simp only [adopts, hears, delivered, hcmd, hpoll, TxPoll.reply, Option.bind_some] at h
          exact marks_adoptReply_of_stale true h

theorem marks_pollNow {env : Env} {s : Globals} (h : adopts s ⟨env, .pollNow⟩ = none) :
    marks (pollNow env s) = marks s := by
  rw [pollNow, pumpPoll]
  cases htx : s.gTx with
  | none =>
      rw [if_neg (by simp), startPoll]
      split <;> rfl
  | some tx =>
      rw [if_pos (by simp)]
      dsimp only
      cases hpoll : env.poll tx.id with
      | running => rfl
      | failed message => exact marks_redraw env _
      | done data =>
          simp only [adopts, hears, delivered, htx, hpoll, TxPoll.reply, Option.bind_some] at h
          exact marks_adoptReply_of_stale false h

theorem marks_pumpQueue (env : Env) (s : Globals) : marks (pumpQueue env s) = marks s := by
  simp only [pumpQueue, startQueue, adoptQueue, adoptEmptyQueue]
  split
  · split <;> rfl
  · split
    · rfl
    · split
      · split
        · exact (starts_playFrom env _ _ 0 none).frame marks rfl
        · rfl
      · split <;> rfl
    · rfl

theorem marks_clickPlay (env : Env) (s : Globals) : marks (clickPlay env s) = marks s := by
  rcases clickPlay_cases env s with h | ⟨kind, sel, h⟩
  · rw [h]
  · rw [h]
    exact (starts_startCommand env _ _).frame marks rfl

theorem marks_playContextAlbum (env : Env) (s : Globals) (albumId : CStr) :
    marks (playContextAlbum env s albumId) = marks s := by
  rcases playContextAlbum_cases env s albumId with h | ⟨sel, h⟩
  · rw [h]
  · rw [h]
    exact (starts_startCommand env _ _).frame marks rfl

theorem marks_clickResult (env : Env) (s : Globals) (row : Nat) :
    marks (clickResult env s row) = marks s := by
  rw [clickResult]
  split
  · exact (starts_playFrom env s _ _ _).frame marks rfl
  · split
    · exact congrArg Prod.snd (notes_startArtistAlbums env s _ _)
    · rfl
  · split
    · exact marks_playContextAlbum env s _
    · rfl
  · rfl
  · rfl

/-- **Every other step** leaves the marks alone, unless it taps or flushes the debouncer. -/
theorem marks_kept {s : Globals} {e : Event} (h : adopts s e = none) (htap : tapOf s e = none)
    (hflush : e.act ≠ .flushDebounce) : marks (perform e.env s e.act) = marks s := by
  obtain ⟨env, act⟩ := e
  by_cases hkeeps : keepsNotes act = true
  · exact congrArg Prod.snd (notes_kept env s hkeeps)
  cases act with
  | flushDebounce => exact absurd rfl hflush
  | clickPrev => cases htap
  | clickNext =>
      simp only [tapOf] at htap
      have hrow : nextRow (setIntent env s .skip) = nextRow s := rfl
      simp only [perform, nextCommand, hrow]
      split at htap
      · cases htap
      · next row hnext =>
        rw [hnext]
        exact (starts_playFrom env _ _ row none).frame marks rfl
  | pumpCmd => exact marks_pumpCmd h
  | pollNow => exact marks_pollNow h
  | pumpQueue => exact marks_pumpQueue env s
  | clickPlay => exact marks_clickPlay env s
  | clickResult row => exact marks_clickResult env s row
  | script cmd => cases cmd <;> exact (starts_startCommand env _ _).frame marks rfl
  | pumpCover =>
      simp only [perform, pumpCover]
      split
      · rfl
      · split
        · rfl
        · rfl
        · split
          · exact marks_redraw env _
          · rfl
  | tickView =>
      simp only [perform, tickView]
      split
      · rfl
      · split
        · exact (marks_redraw env _).trans (marks_dropIntent s _)
        · exact marks_dropIntent s _
  | _ => exact absurd rfl hkeeps

/-! ## The auto-start -/

theorem start_perform (s : Globals) (e : Event) :
    (perform e.env s e.act).gAutoStart = s.gAutoStart := by
  cases hserver : resetsGuard s e with
  | false =>
      apply perform_frame hserver Globals.gAutoStart
      cases e.act <;> rfl
  | true =>
      obtain ⟨host, port, suspended, hperform⟩ := perform_of_resets hserver
      rw [hperform]
      rfl

theorem woke_of_adopts {s : Globals} {e : Event} {n : CqNow} (h : adopts s e = some n) :
    (perform e.env s e.act).gAutoWoke = (s.gAutoStart || s.gAutoWoke) :=
  congrArg (fun m => m.2.1) (marks_of_adopts h)

theorem woke_of_not_adopts {s : Globals} {e : Event} (h : adopts s e = none) :
    (perform e.env s e.act).gAutoWoke = s.gAutoWoke := by
  obtain ⟨env, act⟩ := e
  by_cases hflush : act = .flushDebounce
  · subst hflush
    simp only [perform, flushDebounce]
    split
    · split
      · exact (starts_startCommand env _ _).frame Globals.gAutoWoke rfl
      · rfl
    · rfl
  · cases htap : tapOf s ⟨env, act⟩ with
    | none => exact congrArg (fun m => m.2.1) (marks_kept h htap hflush)
    | some sel =>
        -- a tap is put into the debouncer, no more
        cases act with
        | clickPrev => rfl
        | clickNext =>
            have hrow : nextRow (setIntent env s .skip) = nextRow s := rfl
            simp only [tapOf] at htap
            split at htap
            · next hnext =>
              simp only [perform, nextCommand, hrow, hnext]
              rfl
            · cases htap
        | _ => cases htap

end Casquinha.App
