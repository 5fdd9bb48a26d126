import Casquinha.App.Writes

/-!
# What is clicked is what is shown

A step keeps the result list and the row mapping together in one of two ways: it touches neither the
mode flag nor the lists, or it fills the list again. `RunSearch` does neither: it leaves the drill at
once, and the list is filled only when the reply arrives. So a run keeps the law if and only if it
starts no search while an artist's albums are on show (`clicked_is_shown_iff`).
-/

set_option autoImplicit false

namespace Casquinha.App

open Lib Wire

/-- The selector of `RunSearch`. -/
def searchSel (query : CStr) : CStr :=
  (CStr.lit "/spot/api/1/search?q=" ++ escInto (query.fit 384) 1160 false).fit 1200

/-- A search that is started finds the list of a search on show, not a drill. -/
def SearchesFromResults (s : Globals) (e : Event) : Prop :=
  ∀ query, e.act = .runSearch query → s.gAlbumBrowse = true →
    query.bytes = [] ∨ isRepeat e.env s (searchSel query) = true

/-- The list shows what `FillResults` would show now. -/
def Filled (s : Globals) : Prop := s.gSearchList = resultRows s

/-- A step that leaves the mode flag and the lists alone, as a change of server does. -/
theorem filled_of_frame {env : Env} {s : Globals} {act : Act} (hs : Filled s)
    (hf : ∀ t : Globals, Filled (written act s t) = Filled s) : Filled (perform env s act) := by
  cases hserver : resetsGuard s ⟨env, act⟩ with
  | false =>
      rw [perform_frame hserver Filled (hf _)]
      exact hs
  | true =>
      obtain ⟨host, port, suspended, h⟩ := perform_of_resets hserver
      rw [h]
      exact hs

theorem filled_pumpSearch (env : Env) {s : Globals} (hs : Filled s) : Filled (pumpSearch env s) := by
  rw [pumpSearch]
  split
  · exact hs
  · split
    · exact hs
    · rfl
    · exact hs

theorem filled_pumpArtist (env : Env) {s : Globals} (hs : Filled s) : Filled (pumpArtist env s) := by
  rw [pumpArtist]
  split
  · exact hs
  · split
    · exact hs
    · rfl
    · exact hs

theorem Talks.filled {s t : Globals} (h : Talks s t) (hs : Filled s) : Filled t := by
  rw [h.frame Filled rfl]
  exact hs

/-- A drill starts from a list without a back row, so the name of the artist is not on show yet. -/
theorem filled_startArtistAlbums (env : Env) {s : Globals} (id : CStr) (name : Option CStr)
    (hs : Filled s) (hresults : s.gAlbumBrowse = false) :
    Filled (startArtistAlbums env s id name) := by
  have hrows : ∀ t : Globals, t.gAlbumBrowse = false →
      resultRows { t with gBrowseArtist := (name.getD .empty).fit 64 } = resultRows t := by
    intro t ht
    simp only [resultRows, ht]
    rfl
  rcases startArtistAlbums_cases env s id name with h | ⟨sel, h⟩
  · rw [h]
    exact hs
  · rw [h]
    exact Eq.trans hs (hrows s hresults).symm

theorem filled_clickResult (env : Env) {s : Globals} (row : Nat) (hs : Filled s) :
    Filled (clickResult env s row) := by
  rw [clickResult]
  split
  · exact (asks_playFrom env s _ _ _).talks.filled hs
  · next i hkind =>
    -- artist rows are there only outside of a drill
    have hresults : s.gAlbumBrowse = false := by
      rw [Bool.eq_false_iff]
      intro hbrowse
      rw [resultKindAt, if_pos hbrowse] at hkind
      split at hkind
      · cases hkind
      · split at hkind <;> cases hkind
    split
    · exact filled_startArtistAlbums env _ _ hs hresults
    · exact hs
  · split
    · exact (asks_playContextAlbum env s _).talks.filled hs
    · exact hs
  · rfl
  · exact hs

/-- A search keeps the law if and only if it does not leave a drill. -/
theorem filled_runSearch_iff (env : Env) {s : Globals} (query : CStr) (hs : Filled s) :
    Filled (runSearch env s query) ↔ SearchesFromResults s ⟨env, .runSearch query⟩ := by
  have hclean : SearchesFromResults s ⟨env, .runSearch query⟩ ↔
      (s.gAlbumBrowse = true → query.bytes = [] ∨ isRepeat env s (searchSel query) = true) := by
    constructor
    · intro h
      exact h query rfl
    · intro h query' heq
      cases heq
      exact h
  rw [hclean, runSearch]
  by_cases hnil : query.bytes = []
  · rw [if_pos hnil]
    exact iff_of_true hs fun _ => Or.inl hnil
  · rw [if_neg hnil]
    dsimp only
    rcases actionRepeat_cases env s (searchSel query) with ⟨hrep, h⟩ | ⟨hrep, h⟩
    · rw [searchSel] at h
      rw [h]
      exact iff_of_true hs fun _ => Or.inr hrep
    · rw [searchSel] at h
      rw [h]
      cases hbrowse : s.gAlbumBrowse with
      | false =>
          refine iff_of_true ?_ (fun h' => by cases h')
          have hrows : ∀ t : Globals, t.gAlbumBrowse = false →
              resultRows { t with gAlbumBrowse := false, gBrowseArtist := .empty } =
                resultRows t := by
            intro t ht
            simp only [resultRows, ht]
            rfl
          exact Eq.trans hs (hrows s hbrowse).symm
      | true =>
          -- row 0 is the back row, and outside of a drill no row is
          refine iff_of_false ?_ ?_
          · intro hfilled
            have hkind := ((clickedIsShown_iff _).2 hfilled).row 0 ⟨backText s, .back⟩ (by
              change s.gSearchList[0]? = _
              rw [hs, resultRows, if_pos hbrowse]
              rfl)
            have hback : ∀ t : Globals, t.gAlbumBrowse = false → resultKindAt t 0 ≠ .back := by
              intro t ht
              rw [resultKindAt, if_neg (by simp [ht])]
              dsimp only
              split
              · simp
              · split
                · simp
                · split <;> simp
            exact hback _ rfl hkind.1
          · intro hclean'
            rcases hclean' rfl with h' | h'
            · exact hnil h'
            · rw [hrep] at h'
              cases h'

/-- **A step keeps the list and the mapping together if and only if it does not search from a drill.** -/
theorem filled_perform_iff (env : Env) {s : Globals} (act : Act) (hs : Filled s) :
    Filled (perform env s act) ↔ SearchesFromResults s ⟨env, act⟩ := by
  have quiet : ∀ a : Act, (∀ query, a ≠ .runSearch query) → Filled (perform env s a) →
      (Filled (perform env s a) ↔ SearchesFromResults s ⟨env, a⟩) :=
    fun a ha hfilled => iff_of_true hfilled fun query heq => absurd heq (ha query)
  cases act with
  | runSearch query => exact filled_runSearch_iff env query hs
  | pumpSearch => exact quiet _ (by simp) (filled_pumpSearch env hs)
  | pumpArtist => exact quiet _ (by simp) (filled_pumpArtist env hs)
  | clickResult row => exact quiet _ (by simp) (filled_clickResult env row hs)
  | _ => exact quiet _ (by simp) (filled_of_frame hs fun _ => rfl)

/-- **What is clicked is what is shown**, in every state a run passes through, if and only if the run
starts no search while a drill is on show. -/
theorem clicked_is_shown_iff (host : CStr) (port : Nat) (autoStart qtOk : Bool)
    (events : List Event) :
    Meets step SearchesFromResults (launch host port autoStart qtOk) events ↔
      ∀ before s, before <+: events →
        run step (launch host port autoStart qtOk) before = some s → ClickedIsShown s := by
  refine meets_iff_of_step_iff ?_ (fun _ _ => rfl) ?_
  · intro s e t hs ht
    cases ht
    rw [clickedIsShown_iff] at hs ⊢
    exact filled_perform_iff e.env e.act hs
  · exact (clickedIsShown_iff _).2 rfl

/-- A search shows an artist, a click drills into the artist, and another search is started. -/
def searchFromDrill : List Event :=
  [⟨worldAt 1000 .running, .runSearch (.lit "rosa")⟩,
    ⟨worldAt 1060 (.done (ascii "artist.0.id\tR1\nartist.0.name\tRosa\n")), .pumpSearch⟩,
    ⟨worldAt 1200 .running, .clickResult 0⟩,
    ⟨worldAt 1260 (.done (ascii "item.0.id\tA1\nitem.0.name\tMar\n")), .pumpArtist⟩,
    ⟨worldAt 1400 .running, .runSearch (.lit "lua")⟩]

/-- **A search from a drill.** The back row is still on show, and a click on it drills into the
artist. -/
theorem search_from_drill_misleads :
    ∃ s, run step (launch (.lit "192.0.2.10") 70 false false) searchFromDrill = some s ∧
      s.gSearchList.map ResultRow.kind = [.back, .album 0] ∧ resultKindAt s 0 = .artist 0 ∧
      ¬ ClickedIsShown s := by
  refine ⟨_, rfl, by decide +kernel, by decide +kernel, ?_⟩
  intro h
  have hback := (h.row 0 ⟨.lit "< Rosa", .back⟩ (by decide +kernel)).1
  exact absurd hback (by decide +kernel)

end Casquinha.App
