import Casquinha.App.Selector
import Casquinha.App.Watchdog

/-!
# The ids of `PlayFrom`

The selector of `PlayFrom` names the clicked row and its continuation. A row is here what the source
has, a `uri` that may be `NULL`; on a list whose rows all have one, this is `playFrom`
(`playFromRows_uris`).

The loop appends a comma and an id for each row that has one, at most 23 of them (`playFromRowsLoop_eq`).
Neither the cut of `snprintf` nor the room test is reached for ids of at most 22 characters, so what the
server splits at the commas is the list of the rows on show.
-/

set_option autoImplicit false

namespace Casquinha.App

open Lib Wire

/-! ## Rows without a uri -/

/-- `u ? strrchr(u, ':') : NULL`, behind the colon. -/
def uriId (u : Option CStr) : Option CStr := u.bind afterLastColon

/-- `for (i = start; i < rest->count && n < 24; i++)`. -/
def playFromRowsLoop : List (Option CStr) → Nat → SelBuf → SelBuf
  | [], _, b => b
  | u :: rest, n, b =>
      if n < 24 then
        match uriId u with
        | none => playFromRowsLoop rest n b
        | some id =>
            if id.bytes = [] then playFromRowsLoop rest n b
            else if playFromSelSize ≤ b.o + id.length + 16 then b
            else
              playFromRowsLoop rest (n + 1)
                ((b.print playFromSelSize (.lit ",")).print playFromSelSize id)
      else b

/-- The selector for the clicked id and the rows that follow. -/
def playFromRowsSel (id : CStr) (rest : List (Option CStr)) : CStr :=
  let head := SelBuf.print ⟨.empty, 0⟩ playFromSelSize selHead
  let b := playFromRowsLoop rest 1 (head.print playFromSelSize id)
  (b.print playFromSelSize selTail).text

/-- `PlayItem`, on a row that may have no uri. -/
def playItemRow (env : Env) (s : Globals) (items : List (Option CStr)) (row : Nat) : Globals :=
  match items[row]? with
  | none | some none => s
  | some (some uri) => startFire env s ((CStr.lit "/spot/play?uri=" ++ escInto uri 128 true).fit 160)

/-- `rest` from `start` on. -/
def rowsAfter (items : List (Option CStr)) (row : Nat) (cont : Option (List (Option CStr))) :
    List (Option CStr) :=
  match cont with
  | some rest => rest
  | none => items.drop (row + 1)

/-- `PlayFrom`, on rows that may have no uri. -/
def playFromRows (env : Env) (s : Globals) (items : List (Option CStr)) (row : Nat)
    (cont : Option (List (Option CStr))) : Globals :=
  match items[row]? with
  | none | some none => s
  | some (some uri) =>
      if s.probe.gNativePlay = .notFound then playItemRow env s items row
      else if s.probe.gCmd.isSome then s
      else
        match afterLastColon uri with
        | none => playItemRow env s items row
        | some id =>
            if id.bytes = [] then playItemRow env s items row
            else storeAndStart env s uri (playFromRowsSel id (rowsAfter items row cont))

/-- The uris of a list whose rows all have one. -/
def uris (items : List CqTrackItem) : List (Option CStr) := items.map fun item => some item.uri

theorem playFromRowsLoop_uris (items : List CqTrackItem) (n : Nat) (b : SelBuf) :
    playFromRowsLoop (uris items) n b = playFromLoop items n b := by
  induction items generalizing n b with
  | nil => rfl
  | cons item items ih =>
      have tail : uris (item :: items) = some item.uri :: uris items := rfl
      rw [tail, playFromRowsLoop, playFromLoop]
      have id_eq : uriId (some item.uri) = afterLastColon item.uri := rfl
      rw [id_eq]
      cases afterLastColon item.uri with
      | none => simp only [ih]
      | some id => simp only [ih]

/-- On rows that all have a uri this is `playFrom`. -/
theorem playFromRows_uris (env : Env) (s : Globals) (items : CqTrackList) (row : Nat)
    (cont : Option CqTrackList) :
    playFromRows env s (uris items.items) row (cont.map fun rest => uris rest.items) =
      playFrom env s items row cont := by
  have rest_eq : rowsAfter (uris items.items) row (cont.map fun rest => uris rest.items) =
      uris (continuation items row cont) := by
    cases cont with
    | none => exact List.map_drop.symm
    | some rest => rfl
  have item_eq : playItemRow env s (uris items.items) row = playItem env s items row := by
    rw [playItemRow, playItem, uris, List.getElem?_map]
    cases items.items[row]? <;> rfl
  rw [playFromRows, playFrom, item_eq, rest_eq]
  simp only [playFromRowsSel, playFromRowsLoop_uris]
  rw [uris, List.getElem?_map]
  cases items.items[row]? <;> rfl

/-! ## The text of the selector -/

/-- An id that the server takes apart at the commas: 1 to 22 characters, no colon, comma or ampersand. -/
structure IdText (id : Bytes) : Prop where
  nonempty : id ≠ []
  short : id.length ≤ 22
  noColon : (58 : UInt8) ∉ id
  noComma : (44 : UInt8) ∉ id
  noAmpersand : (38 : UInt8) ∉ id

/-- A uri that ends in a colon and an id. -/
def EndsInId (u : CStr) : Prop := ∃ kind id, u.bytes = kind ++ 58 :: id ∧ IdText id

theorem afterLastColon_of_eq {u : CStr} {kind id : Bytes} (hu : u.bytes = kind ++ 58 :: id)
    (noColon : (58 : UInt8) ∉ id) : (afterLastColon u).map CStr.bytes = some id := by
  have colon : (58 : UInt8) ∈ u.bytes := by simp [hu]
  have nulFree : (0 : UInt8) ∉ id := by
    intro h
    exact u.nulFree (by simp [hu, h])
  have last : (u.bytes.reverse.takeWhile (· ≠ 58)).reverse = id := by
    rw [hu, List.reverse_append, List.reverse_cons, List.append_assoc,
      List.takeWhile_append_of_pos]
    · simp
    · intro c hc
      have : c ≠ 58 := ne_of_mem_of_not_mem (List.mem_reverse.1 hc) noColon
      simpa using this
  rw [afterLastColon, if_pos colon, last, Option.map_some, cstr_bytes_of_nulFree nulFree]

theorem EndsInId.uriId {u : CStr} (h : EndsInId u) :
    ∃ id : CStr, uriId (some u) = some id ∧ IdText id.bytes := by
  obtain ⟨kind, id, hu, hid⟩ := h
  obtain ⟨t, ht, hbytes⟩ := Option.map_eq_some_iff.1 (afterLastColon_of_eq hu hid.noColon)
  refine ⟨t, ht, ?_⟩
  rw [hbytes]
  exact hid

/-- The ids of the rows that have one, in order. -/
def rowIds (rest : List (Option CStr)) : List Bytes := (rest.filterMap uriId).map CStr.bytes

/-- Every uri that is present ends in an id. -/
def AllEndInId (rows : List (Option CStr)) : Prop := ∀ u, some u ∈ rows → EndsInId u

theorem idText_of_mem_rowIds {rest : List (Option CStr)} (h : AllEndInId rest) {id : Bytes}
    (hid : id ∈ rowIds rest) : IdText id := by
  obtain ⟨t, ht, rfl⟩ := List.mem_map.1 hid
  obtain ⟨row, hrow, ht⟩ := List.mem_filterMap.1 ht
  cases row with
  | none => cases ht
  | some u =>
      obtain ⟨t', ht', htext⟩ := (h u hrow).uriId
      rw [ht'] at ht
      cases ht
      exact htext

/-- What is printed in front of the end of `sel` is appended. -/
theorem print_of_room {b : SelBuf} {t : CStr} (ho : b.o = b.text.length)
    (room : b.o + t.length < playFromSelSize) :
    b.print playFromSelSize t = ⟨b.text ++ t, b.o + t.length⟩ := by
  have before : b.text.fit (b.o + 1) = b.text := CStr.fit_eq_self (by omega)
  have whole : (b.text ++ t).fit playFromSelSize = b.text ++ t := by
    apply CStr.fit_eq_self
    rw [CStr.length, CStr.bytes_append, List.length_append]
    rw [ho] at room
    exact room
  rw [SelBuf.print, if_pos (by omega), before, whole]

/-- The comma and the id of one row. -/
theorem print_comma_id {b : SelBuf} {id : CStr} (ho : b.o = b.text.length)
    (room : b.o + 1 + id.length < playFromSelSize) :
    ((b.print playFromSelSize (.lit ",")).print playFromSelSize id) =
      ⟨b.text ++ .lit "," ++ id, b.o + 1 + id.length⟩ := by
  have comma : (CStr.lit ",").length = 1 := by decide
  have first := print_of_room (t := .lit ",") ho (by omega)
  rw [comma] at first
  rw [first]
  refine print_of_room ?_ room
  rw [CStr.length, CStr.bytes_append, List.length_append, ho]
  rfl

/-- **The loop** appends a comma and an id for each row that has one, until there are 24. -/
theorem playFromRowsLoop_eq {rest : List (Option CStr)} (h : AllEndInId rest) {n : Nat} {b : SelBuf}
    (hn : n ≤ 24) (ho : b.o = b.text.length) (hb : b.o ≤ 26 + 23 * n) :
    (playFromRowsLoop rest n b).text.bytes =
        b.text.bytes ++ ((rowIds rest).take (24 - n)).flatMap (44 :: ·) ∧
      (playFromRowsLoop rest n b).o = (playFromRowsLoop rest n b).text.length ∧
      (playFromRowsLoop rest n b).o ≤ 26 + 23 * 24 := by
  induction rest generalizing n b with
  | nil => exact ⟨by simp [playFromRowsLoop, rowIds], ho, by simp only [playFromRowsLoop]; omega⟩
  | cons u rest ih =>
      have later : AllEndInId rest := fun v hv => h v (List.mem_cons_of_mem _ hv)
      rw [playFromRowsLoop]
      by_cases more : n < 24
      · rw [if_pos more]
        cases u with
        | none => exact ih later hn ho hb
        | some u =>
            obtain ⟨id, hid, htext⟩ := (h u List.mem_cons_self).uriId
            have short : id.length ≤ 22 := htext.short
            have room : ¬ playFromSelSize ≤ b.o + id.length + 16 := by
              rw [playFromSelSize]
              omega
            have ids : rowIds (some u :: rest) = id.bytes :: rowIds rest := by
              rw [rowIds, List.filterMap_cons_some hid, List.map_cons]
              rfl
            have left : 24 - n = 24 - (n + 1) + 1 := by omega
            simp only [hid, if_neg htext.nonempty, if_neg room]
            rw [print_comma_id ho (by omega), ids, left, List.take_succ_cons, List.flatMap_cons]
            have next := ih (n := n + 1) (b := ⟨b.text ++ .lit "," ++ id, b.o + 1 + id.length⟩)
              later more (by
                rw [ho, CStr.length, CStr.length, CStr.length, CStr.bytes_append, CStr.bytes_append,
                  List.length_append, List.length_append]
                rfl) (by simp only; omega)
            refine ⟨?_, next.2⟩
            rw [next.1, CStr.bytes_append, CStr.bytes_append, List.append_assoc, List.append_assoc]
            rfl
      · have full : 24 - n = 0 := by omega
        rw [if_neg more, full]
        exact ⟨by simp, ho, by omega⟩

theorem intercalate_eq_flatMap (c : UInt8) (id : Bytes) (ids : List Bytes) :
    List.intercalate [c] (id :: ids) = id ++ ids.flatMap (c :: ·) := by
  induction ids generalizing id with
  | nil => simp
  | cons next ids ih =>
      rw [List.intercalate_cons_cons, ih, List.flatMap_cons, List.append_assoc]
      rfl

/-- The ids that go out for a clicked row and what follows it. -/
def idsShown (uri : CStr) (rest : List (Option CStr)) : List Bytes :=
  (rowIds [some uri]) ++ (rowIds rest).take 23

/-- What the server reads of a selector behind `ids=`: the text in front of the `&`, split at the commas. -/
def idsRead (sel : CStr) : List Bytes := ((sel.bytes.drop 26).takeWhile (· ≠ 38)).splitOn 44

theorem rowIds_singleton {u id : CStr} (h : afterLastColon u = some id) :
    rowIds [some u] = [id.bytes] := by
  have row : uriId (some u) = some id := h
  simp [rowIds, row]

/-- The selector: the head, the ids at their commas, the tail. -/
theorem playFromRowsSel_bytes {uri id : CStr} {rest : List (Option CStr)}
    (hid : afterLastColon uri = some id) (htext : IdText id.bytes) (hrest : AllEndInId rest) :
    (playFromRowsSel id rest).bytes =
      selHead.bytes ++ List.intercalate [44] (idsShown uri rest) ++ selTail.bytes := by
  have short : id.length ≤ 22 := htext.short
  have headLength : selHead.length = 26 := by decide
  have tailLength : selTail.length = 9 := by decide
  have empty : CStr.empty ++ selHead = selHead := CStr.ext' rfl
  have first : SelBuf.print ⟨.empty, 0⟩ playFromSelSize selHead = ⟨selHead, 26⟩ := by
    have h := print_of_room (b := ⟨.empty, 0⟩) (t := selHead) rfl (by simp only; rw [headLength]; decide)
    simp only [empty, headLength] at h
    exact h
  have second : SelBuf.print ⟨selHead, 26⟩ playFromSelSize id = ⟨selHead ++ id, 26 + id.length⟩ :=
    print_of_room headLength.symm (by simp only [playFromSelSize]; omega)
  have length_clicked : 26 + id.length = (selHead ++ id).length := by
    rw [CStr.length, CStr.length, CStr.bytes_append, List.length_append]
    rfl
  have loop := playFromRowsLoop_eq (n := 1) (b := ⟨selHead ++ id, 26 + id.length⟩) hrest (by decide)
    length_clicked (by simp only; omega)
  have last := print_of_room (t := selTail) loop.2.1 (by
    have := loop.2.2
    simp only [playFromSelSize]
    omega)
  rw [playFromRowsSel, first, second, last, CStr.bytes_append, loop.1, idsShown,
    rowIds_singleton hid, List.singleton_append, intercalate_eq_flatMap, CStr.bytes_append]
  simp only [List.append_assoc]

/-- Split at the commas, the ids of the selector are the ids that were joined. -/
theorem idsRead_of_bytes {sel : CStr} {ids : List Bytes}
    (hsel : sel.bytes = selHead.bytes ++ List.intercalate [44] ids ++ selTail.bytes)
    (hne : ids ≠ []) (hids : ∀ id ∈ ids, IdText id) : idsRead sel = ids := by
  have behind : sel.bytes.drop 26 = List.intercalate [44] ids ++ selTail.bytes := by
    have headLength : selHead.bytes.length = 26 := by decide
    rw [hsel, List.append_assoc, ← headLength, List.drop_left]
  have noAmpersand : (38 : UInt8) ∉ List.intercalate [44] ids := by
    obtain ⟨id, later, rfl⟩ := List.exists_cons_of_ne_nil hne
    rw [intercalate_eq_flatMap]
    intro h
    rcases List.mem_append.1 h with h | h
    · exact (hids id List.mem_cons_self).noAmpersand h
    · obtain ⟨next, hnext, h⟩ := List.mem_flatMap.1 h
      rcases List.mem_cons.1 h with h | h
      · cases h
      · exact (hids next (List.mem_cons_of_mem _ hnext)).noAmpersand h
  have front : (sel.bytes.drop 26).takeWhile (· ≠ 38) = List.intercalate [44] ids := by
    rw [behind, List.takeWhile_append_of_pos]
    · have tail : selTail.bytes.takeWhile (· ≠ 38) = [] := by decide
      rw [tail, List.append_nil]
    · intro c hc
      have : c ≠ 38 := ne_of_mem_of_not_mem hc noAmpersand
      simpa using this
  rw [idsRead, front]
  exact List.splitOn_intercalate 44 (fun id hid => (hids id hid).noComma) hne

/-! ## What is sent -/

/-- The rows that follow the clicked one have ids, too. -/
theorem AllEndInId.rowsAfter {items : List (Option CStr)} {cont : Option (List (Option CStr))}
    (hitems : AllEndInId items) (hcont : ∀ rest, cont = some rest → AllEndInId rest) (row : Nat) :
    AllEndInId (rowsAfter items row cont) := by
  cases cont with
  | none => exact fun u hu => hitems u (List.mem_of_mem_drop hu)
  | some rest => exact hcont rest rfl

/-- **PlayFrom sends what the screen shows.** The selector is the head, the comma-joined ids of the
clicked row and of the first 23 rows behind it that have one, and the tail; split at the commas it is
that list again. -/
theorem playFromRows_sends (env : Env) (s : Globals) (items : List (Option CStr)) (row : Nat)
    (cont : Option (List (Option CStr))) (uri : CStr) (hrow : items[row]? = some (some uri))
    (hnative : s.probe.gNativePlay ≠ .notFound) (hfree : s.probe.gCmd = none)
    (hitems : AllEndInId items) (hcont : ∀ rest, cont = some rest → AllEndInId rest) :
    ∃ sel : CStr, playFromRows env s items row cont = storeAndStart env s uri sel ∧
      (isRepeat env s sel = false →
        (playFromRows env s items row cont).probe.gCmd = cqTxNew env s sel) ∧
      sel.bytes = ascii "/spot/api/1/play/from?ids=" ++
        List.intercalate (ascii ",") (idsShown uri (rowsAfter items row cont)) ++
        ascii "&offset=0" ∧
      idsRead sel = idsShown uri (rowsAfter items row cont) := by
  have hrest := hitems.rowsAfter hcont row
  have huri : EndsInId uri := hitems uri (List.mem_of_getElem? hrow)
  obtain ⟨id, hid, htext⟩ := huri.uriId
  have clicked : afterLastColon uri = some id := hid
  have built : playFromRows env s items row cont =
      storeAndStart env s uri (playFromRowsSel id (rowsAfter items row cont)) := by
    simp only [playFromRows, hrow, if_neg hnative, hfree, Option.isSome_none, Bool.false_eq_true,
      if_false, clicked, if_neg htext.nonempty]
  have text := playFromRowsSel_bytes clicked htext hrest
  refine ⟨playFromRowsSel id (rowsAfter items row cont), built, ?_, ?_, ?_⟩
  · intro fresh
    rw [built, cmd_storeAndStart env uri _ hfree, if_pos fresh]
  · have head : selHead.bytes = ascii "/spot/api/1/play/from?ids=" := by decide
    have tail : selTail.bytes = ascii "&offset=0" := by decide
    have comma : ascii "," = [44] := by decide
    rw [text, head, tail, comma]
  · refine idsRead_of_bytes text ?_ ?_
    · rw [idsShown, rowIds_singleton clicked]
      exact List.cons_ne_nil _ _
    · intro shown hshown
      rw [idsShown, rowIds_singleton clicked] at hshown
      rcases List.mem_append.1 hshown with h | h
      · rw [List.mem_singleton.1 h]
        exact htext
      · exact idText_of_mem_rowIds hrest (List.mem_of_mem_take h)

/-- A list with a row that has no uri. -/
def gappedRows : List (Option CStr) :=
  [some (.lit "spotify:track:A"), none, some (.lit "spotify:track:B2")]

theorem allEndInId_gappedRows : AllEndInId gappedRows := by
  intro u hu
  simp only [gappedRows, List.mem_cons, Option.some.injEq, reduceCtorEq, List.not_mem_nil,
    or_false, false_or] at hu
  rcases hu with rfl | rfl
  · exact ⟨ascii "spotify:track", ascii "A", by decide,
      ⟨by decide, by decide, by decide, by decide, by decide⟩⟩
  · exact ⟨ascii "spotify:track", ascii "B2", by decide,
      ⟨by decide, by decide, by decide, by decide, by decide⟩⟩

/-- More rows than a selector takes, in a list that continues another. -/
def moreRows : List (Option CStr) :=
  none :: List.replicate 20 (some (.lit "spotify:track:B2")) ++
    none :: List.replicate 10 (some (.lit "spotify:track:C3"))

theorem allEndInId_moreRows : AllEndInId moreRows := by
  intro u hu
  simp only [moreRows, List.mem_append, List.mem_cons, List.mem_replicate, Option.some.injEq, reduceCtorEq,
    false_or] at hu
  rcases hu with ⟨-, rfl⟩ | ⟨-, rfl⟩
  · exact ⟨ascii "spotify:track", ascii "B2", by decide,
      ⟨by decide, by decide, by decide, by decide, by decide⟩⟩
  · exact ⟨ascii "spotify:track", ascii "C3", by decide,
      ⟨by decide, by decide, by decide, by decide, by decide⟩⟩

/-- The clicked id and the 23 that go out behind it. -/
def moreIds : List Bytes := ascii "A" :: (List.replicate 20 (ascii "B2") ++ List.replicate 3 (ascii "C3"))

/-- Rows without a uri are passed over, and a continuation is cut at the 23rd row that has one. -/
theorem playFromRows_sends_gapped :
    (∃ sel : CStr,
      (playFromRows (worldAt 1000 .running) (launch (.lit "h") 70 false false) gappedRows 0
          none).probe.gCmd = some ⟨0, .lit "h", 70, sel⟩ ∧
      sel.bytes = ascii "/spot/api/1/play/from?ids=A,B2&offset=0" ∧
      idsRead sel = [ascii "A", ascii "B2"]) ∧
    ∃ sel : CStr,
      (playFromRows (worldAt 1000 .running) (launch (.lit "h") 70 false false) gappedRows 0
          (some moreRows)).probe.gCmd = some ⟨0, .lit "h", 70, sel⟩ ∧
      sel.bytes = ascii "/spot/api/1/play/from?ids=" ++ List.intercalate (ascii ",") moreIds ++
        ascii "&offset=0" ∧
      idsRead sel = moreIds := by
  have shown : idsShown (.lit "spotify:track:A") (rowsAfter gappedRows 0 none) =
      [ascii "A", ascii "B2"] := by decide +kernel
  have capped : idsShown (.lit "spotify:track:A") (rowsAfter gappedRows 0 (some moreRows)) =
      moreIds := by decide +kernel
  constructor
  · obtain ⟨sel, -, sent, text, read⟩ :=
      playFromRows_sends (worldAt 1000 .running) (launch (.lit "h") 70 false false) gappedRows 0 none
        (.lit "spotify:track:A") rfl (by decide) rfl allEndInId_gappedRows (fun _ h => by cases h)
    rw [shown] at text read
    refine ⟨sel, sent rfl, ?_, read⟩
    rw [text]
    decide +kernel
  · obtain ⟨sel, -, sent, text, read⟩ :=
      playFromRows_sends (worldAt 1000 .running) (launch (.lit "h") 70 false false) gappedRows 0
        (some moreRows) (.lit "spotify:track:A") rfl (by decide) rfl allEndInId_gappedRows
        (fun _ h => by cases h; exact allEndInId_moreRows)
    rw [capped] at text read
    exact ⟨sel, sent rfl, text, read⟩

end Casquinha.App
