import Casquinha.App.State

/-!
# The result list (`FillResults`, `ResultKindAt`)

`FillResults` lays the search results out as rows, `ResultKindAt` maps a row back to an item. Both read
the mode flag and the lists, each in its own way; over one and the same state they agree
(`getElem?_resultRows`). The row counter of the source is a `short`: the rows here stand for a list of
fewer than 32768.
-/

set_option autoImplicit false

namespace Casquinha.App

open Lib Wire

/-! ## The rows -/

/-- The size of a row buffer of `FillResults`. -/
def rowSize : Nat := 256

/-- The text of the back row. -/
def backText (s : Globals) : CStr :=
  (CStr.lit "< " ++
    if s.gBrowseArtist.bytes = [] then .lit "voltar" else s.gBrowseArtist).fit rowSize

/-- The text of an artist or album row. -/
def refText (label : CStr) (item : CqRefItem) : CStr :=
  (label ++ item.name.getD (.lit "?")).fit rowSize

/-- The text of a track row. -/
def trackText (item : CqTrackItem) : CStr :=
  (item.track.getD (.lit "?") ++ .lit " - " ++ item.artist.getD .empty).fit rowSize

/-- One loop of `FillResults`: a row for each item, in order. -/
def listRows {α : Type} (kind : Nat → CqRowKind) (text : α → CStr) (items : List α) :
    List ResultRow :=
  items.mapIdx fun i item => ⟨text item, kind i⟩

/-- The rows that `FillResults` adds. -/
def resultRows (s : Globals) : List ResultRow :=
  if s.gAlbumBrowse then
    ⟨backText s, .back⟩ :: listRows .album (refText (.lit "  album: ")) s.gArtistAlbums.items
  else
    listRows .artist (refText (.lit "artista: ")) s.gSearchArtists.items ++
      listRows .album (refText (.lit "album: ")) s.gSearchAlbums.items ++
      listRows .track trackText s.gSearchItems.items

/-- `FillResults`. -/
def fillResults (s : Globals) : Globals := { s with gSearchList := resultRows s }

/-! ## The items behind the rows -/

/-- `ResultKindAt`. -/
def resultKindAt (s : Globals) (row : Nat) : CqRowKind :=
  if s.gAlbumBrowse then
    if row = 0 then .back
    else if row - 1 < s.gArtistAlbums.items.length then .album (row - 1)
    else .none
  else
    let artists := s.gSearchArtists.items.length
    let albums := s.gSearchAlbums.items.length
    if row < artists then .artist row
    else if row - artists < albums then .album (row - artists)
    else if row - artists - albums < s.gSearchItems.items.length then .track (row - artists - albums)
    else .none

/-- The albums on show. -/
def albumsShown (s : Globals) : CqRefList :=
  if s.gAlbumBrowse then s.gArtistAlbums else s.gSearchAlbums

/-- The label of an album row. -/
def albumLabel (s : Globals) : CStr := if s.gAlbumBrowse then .lit "  album: " else .lit "album: "

/-- The text of an item, under the lists as they are now. -/
def itemText (s : Globals) : CqRowKind → Option CStr
  | .artist i => (s.gSearchArtists.items[i]?).map (refText (.lit "artista: "))
  | .album i => ((albumsShown s).items[i]?).map (refText (albumLabel s))
  | .track i => (s.gSearchItems.items[i]?).map trackText
  | .back => if s.gAlbumBrowse then some (backText s) else none
  | .none => none

@[simp] theorem length_listRows {α : Type} (kind : Nat → CqRowKind) (text : α → CStr)
    (items : List α) : (listRows kind text items).length = items.length := by
  rw [listRows, List.length_mapIdx]

theorem getElem?_listRows {α : Type} (kind : Nat → CqRowKind) (text : α → CStr) (items : List α)
    (i : Nat) : (listRows kind text items)[i]? = (items[i]?).map fun item => ⟨text item, kind i⟩ := by
  rw [listRows, List.getElem?_mapIdx]

/-- **Row by row**, `FillResults` shows the item that `ResultKindAt` names. -/
theorem getElem?_resultRows (s : Globals) (r : Nat) :
    (resultRows s)[r]? =
      (itemText s (resultKindAt s r)).map fun text => ⟨text, resultKindAt s r⟩ := by
  rw [resultRows, resultKindAt]
  by_cases hbrowse : s.gAlbumBrowse = true
  · rw [if_pos hbrowse, if_pos hbrowse]
    cases r with
    | zero => simp [itemText, hbrowse]
    | succ r =>
        rw [List.getElem?_cons_succ, getElem?_listRows, if_neg (Nat.succ_ne_zero r),
          Nat.add_sub_cancel]
        by_cases hr : r < s.gArtistAlbums.items.length
        · rw [if_pos hr]
          simp [itemText, albumsShown, albumLabel, hbrowse, hr]
        · rw [if_neg hr]
          simp [itemText, Nat.le_of_not_lt hr]
  · rw [if_neg hbrowse, if_neg hbrowse]
    dsimp only
    -- the row lies among the artists, among the albums, or behind both
    by_cases hartist : r < s.gSearchArtists.items.length
    · rw [if_pos hartist, List.append_assoc, List.getElem?_append_left (by simpa using hartist),
        getElem?_listRows]
      simp [itemText, hartist]
    · rw [if_neg hartist, List.append_assoc, List.getElem?_append_right (by simpa using hartist),
        length_listRows]
      by_cases halbum : r - s.gSearchArtists.items.length < s.gSearchAlbums.items.length
      · rw [if_pos halbum, List.getElem?_append_left (by simpa using halbum), getElem?_listRows]
        simp [itemText, albumsShown, albumLabel, hbrowse, halbum]
      · rw [if_neg halbum, List.getElem?_append_right (by simpa using halbum), length_listRows,
          getElem?_listRows]
        by_cases htrack : r - s.gSearchArtists.items.length - s.gSearchAlbums.items.length <
          s.gSearchItems.items.length
        · rw [if_pos htrack]
          simp [itemText, htrack]
        · rw [if_neg htrack]
          simp [itemText, Nat.le_of_not_lt htrack]

/-- `ResultKindAt` names an item that is there, or nothing. -/
theorem resultKindAt_eq_none {s : Globals} {r : Nat} (h : itemText s (resultKindAt s r) = none) :
    resultKindAt s r = .none := by
  revert h
  simp only [resultKindAt]
  split
  · next hbrowse =>
    split
    · simp [itemText, hbrowse]
    · split
      · next hr => simp [itemText, albumsShown, hbrowse, hr]
      · intro _
        exact rfl
  · next hbrowse =>
    split
    · next hr => simp [itemText, hr]
    · split
      · next hr => simp [itemText, albumsShown, hbrowse, hr]
      · split
        · next hr => simp [itemText, hr]
        · intro _
          exact rfl

/-! ## What is clicked is what is shown -/

/-- Every row of the list maps to the item it was made from, which still reads as the row does, and
every row beyond the list maps to nothing. -/
structure ClickedIsShown (s : Globals) : Prop where
  row : ∀ (r : Nat) (shown : ResultRow), s.gSearchList[r]? = some shown →
    resultKindAt s r = shown.kind ∧ itemText s shown.kind = some shown.text
  beyond : ∀ r, s.gSearchList.length ≤ r → resultKindAt s r = .none

/-- What is clicked is what is shown exactly when the list shows what `FillResults` would show now. -/
theorem clickedIsShown_iff (s : Globals) : ClickedIsShown s ↔ s.gSearchList = resultRows s := by
  constructor
  · intro h
    -- row by row: the kind says which text `FillResults` would show
    apply List.ext_getElem?
    intro r
    rw [getElem?_resultRows]
    cases hrow : s.gSearchList[r]? with
    | none =>
        rw [h.beyond r (List.getElem?_eq_none_iff.1 hrow)]
        rfl
    | some shown =>
        obtain ⟨hkind, htext⟩ := h.row r shown hrow
        rw [hkind, htext]
        rfl
  · intro h
    constructor
    · intro r shown hrow
      rw [h, getElem?_resultRows] at hrow
      obtain ⟨text, htext, rfl⟩ := Option.map_eq_some_iff.1 hrow
      exact ⟨rfl, htext⟩
    · intro r hr
      rw [h] at hr
      have hnone := List.getElem?_eq_none_iff.2 hr
      rw [getElem?_resultRows, Option.map_eq_none_iff] at hnone
      exact resultKindAt_eq_none hnone

end Casquinha.App
