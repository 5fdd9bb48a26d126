import Casquinha.App.Loop
import Casquinha.Lib.Ring
import Casquinha.Wire.CodecReference

/-!
# The selector buffer of `PlayFrom`

`PlayFrom` builds its selector in `char sel[900]` with `snprintf(sel + o, sizeof(sel) - o, ...)` and a
plain store for each comma. Here `sel` is a memory, every write is logged with its offset, and
`sizeof(sel) - o` is the subtraction of `size_t` that it is. As long as the offset stays below the size, what
the memory spells is the text of `playFromSel` (`Built`). The loop over the continuation has a guard; the id
of the clicked row has none (`stays_inside_iff`).
-/

set_option autoImplicit false

namespace Casquinha.App

open Lib Wire

/-! ## The writes -/

/-- A write into `sel`. -/
structure SelWrite where
  off : Nat
  bytes : Bytes
deriving DecidableEq

/-- `sel`, the offset `o` behind its text, and the writes so far. -/
structure SelMem where
  mem : Nat → UInt8
  o : Nat
  writes : List SelWrite

/-- `sizeof(sel) - o`. -/
def selSpace (o : Nat) : Nat := (BitVec.ofNat 32 playFromSelSize - BitVec.ofNat 32 o).toNat

namespace SelMem

/-- Write `bytes` at `o`. -/
def write (m : SelMem) (bytes : Bytes) : SelMem :=
  { m with
    mem := blit m.mem m.o bytes
    writes := m.writes ++ [⟨m.o, bytes⟩] }

/-- `snprintf(sel + o, sizeof(sel) - o, "%s", t)`: what fits, and the terminator. -/
def printAt (m : SelMem) (t : CStr) : SelMem :=
  if selSpace m.o = 0 then m.write [] else m.write ((t.fit (selSpace m.o)).bytes ++ [0])

/-- `o += snprintf(sel + o, sizeof(sel) - o, "%s", t)`. -/
def print (m : SelMem) (t : CStr) : SelMem := { m.printAt t with o := m.o + t.length }

/-- `sel[o++] = c`. -/
def put (m : SelMem) (c : UInt8) : SelMem := { m.write [c] with o := m.o + 1 }

@[simp] theorem mem_print (m : SelMem) (t : CStr) : (m.print t).mem = (m.printAt t).mem := by
  simp only [print]

@[simp] theorem o_print (m : SelMem) (t : CStr) : (m.print t).o = m.o + t.length := by
  simp only [print]

@[simp] theorem writes_print (m : SelMem) (t : CStr) : (m.print t).writes = (m.printAt t).writes := by
  simp only [print]

/-- What `sel` spells. -/
def text (m : SelMem) : CStr := cstr (readMem m.mem 0 playFromSelSize)

end SelMem

/-- `"/spot/api/1/play/from?ids="`. -/
def selHead : CStr := .lit "/spot/api/1/play/from?ids="

/-- `"&offset=0"`. -/
def selTail : CStr := .lit "&offset=0"

/-- The loop over the continuation, `n` ids written so far. -/
def playFromWrites : List CqTrackItem → Nat → SelMem → SelMem
  | [], _, m => m
  | item :: rest, n, m =>
      if n < 24 then
        match afterLastColon item.uri with
        | none => playFromWrites rest n m
        | some id =>
            if id.bytes = [] then playFromWrites rest n m
            else if playFromSelSize ≤ m.o + id.length + 16 then m
            else playFromWrites rest (n + 1) ((m.put 44).print id)
      else m

/-- `sel` with the head and the id of the clicked row. -/
def selClicked (stack : Nat → UInt8) (id : CStr) : SelMem :=
  (SelMem.print ⟨stack, 0, []⟩ selHead).print id

/-- `sel` behind the loop. -/
def selLoop (stack : Nat → UInt8) (id : CStr) (rest : List CqTrackItem) : SelMem :=
  playFromWrites rest 1 (selClicked stack id)

/-- `PlayFrom` up to `ActionRepeat`: `sel`, and whether the selector is finished. What `sel` holds before is
arbitrary. -/
def playFromBuild (stack : Nat → UInt8) (s : Globals) (items : CqTrackList) (row : Int)
    (cont : Option CqTrackList) : SelMem × Bool :=
  let m : SelMem := ⟨stack, 0, []⟩
  if row < 0 then (m, false)
  else
    match items.items[row.toNat]? with
    | none => (m, false)
    | some item =>
        -- `PlayItem`
        if s.probe.gNativePlay = .notFound then (m, false)
        else if s.probe.gCmd.isSome then (m, false)
        else
          match afterLastColon item.uri with
          -- `PlayItem`, with the head already written
          | none => (m.print selHead, false)
          | some id =>
              if id.bytes = [] then (m.print selHead, false)
              else ((selLoop stack id (continuation items row.toNat cont)).printAt selTail, true)

/-- The id of the clicked row, where `PlayFrom` writes one. -/
def clickedId (s : Globals) (items : CqTrackList) (row : Int) : Option CStr :=
  if row < 0 ∨ s.probe.gNativePlay = .notFound ∨ s.probe.gCmd.isSome then none
  else (items.items[row.toNat]?.bind fun item => afterLastColon item.uri).filter fun id => id.bytes ≠ []

/-! ## The law -/

/-- Every write starts at an offset below the size and lies inside `sel`. -/
def Inside (m : SelMem) : Prop :=
  ∀ w ∈ m.writes, w.off < playFromSelSize ∧ w.off + w.bytes.length ≤ playFromSelSize

/-- Nothing is written past `sel`, and a finished selector ends with its tail. -/
def StaysInside (built : SelMem × Bool) : Prop :=
  Inside built.1 ∧ (built.2 = true → selTail.bytes <:+ built.1.text.bytes)

/-- The id leaves room for the tail, or ends with the text of it where none is left. -/
def LeavesRoom (id : CStr) : Prop :=
  id.length ≤ 864 ∨ id.length = 873 ∧ selTail.bytes <:+ id.bytes

/-! ## One write -/

theorem selSpace_of_le {o : Nat} (h : o ≤ playFromSelSize) : selSpace o = playFromSelSize - o := by
  rw [selSpace, ofNat_sub_ofNat h, BitVec.toNat_ofNat]
  exact Nat.mod_eq_of_lt (Nat.lt_of_le_of_lt (Nat.sub_le _ _) (by decide))

theorem Inside.write {m : SelMem} (h : Inside m) {bytes : Bytes} (hoff : m.o < playFromSelSize)
    (hlen : m.o + bytes.length ≤ playFromSelSize) : Inside (m.write bytes) := by
  intro w hw
  rcases List.mem_append.1 hw with hold | hnew
  · exact h w hold
  · rw [List.mem_singleton.1 hnew]
    exact ⟨hoff, hlen⟩

/-- Below the size there is room for the terminator at least. -/
theorem printAt_of_lt {m : SelMem} (h : m.o < playFromSelSize) (t : CStr) :
    m.printAt t = m.write ((t.fit (playFromSelSize - m.o)).bytes ++ [0]) := by
  have hspace := selSpace_of_le (Nat.le_of_lt h)
  rw [SelMem.printAt, if_neg (by omega), hspace]

theorem length_fit (size : Nat) (t : CStr) : (t.fit size).bytes.length = min (size - 1) t.length :=
  List.length_take

theorem Inside.printAt {m : SelMem} (h : Inside m) (hoff : m.o < playFromSelSize) (t : CStr) :
    Inside (m.printAt t) := by
  rw [printAt_of_lt hoff]
  apply h.write hoff
  rw [List.length_append, length_fit, List.length_singleton]
  omega

/-- At the size or beyond it, even a write of nothing is out of place. -/
theorem not_inside_printAt {m : SelMem} (h : playFromSelSize ≤ m.o) (t : CStr) :
    ¬ Inside (m.printAt t) := by
  intro hinside
  have hwrite : ∃ bytes, m.printAt t = m.write bytes := by
    rw [SelMem.printAt]
    split
    · exact ⟨_, rfl⟩
    · exact ⟨_, rfl⟩
  obtain ⟨bytes, hbytes⟩ := hwrite
  rw [hbytes] at hinside
  have hlast := hinside ⟨m.o, bytes⟩ (List.mem_append_right _ (List.mem_singleton_self _))
  exact absurd hlast.1 (Nat.not_lt.2 h)

/-! ## What the memory spells -/

/-- The bytes in front of `o` are the text of `b`, and all of it has been written inside `sel`. -/
structure Built (m : SelMem) (b : SelBuf) : Prop where
  inside : Inside m
  offset : m.o = b.o
  length : b.text.length = b.o
  room : b.o < playFromSelSize
  spells : readMem m.mem 0 m.o = b.text.bytes

/-- A write behind the text extends it. -/
theorem readMem_write {m : SelMem} {b : SelBuf} (h : Built m b) (bytes : Bytes) :
    readMem (m.write bytes).mem 0 (m.o + bytes.length) = b.text.bytes ++ bytes := by
  rw [SelMem.write, readMem_add, readMem_blit_of_le bytes (by omega), h.spells, Nat.zero_add,
    readMem_blit]

/-- `SelBuf.print` below the size appends. -/
theorem selBuf_print {b : SelBuf} (hlength : b.text.length = b.o) {t : CStr}
    (hroom : b.o + t.length < playFromSelSize) :
    b.print playFromSelSize t = ⟨b.text ++ t, b.o + t.length⟩ := by
  have hshort : b.text.length < b.o + 1 := by omega
  have hall : (b.text ++ t).length < playFromSelSize := by
    rw [CStr.length, CStr.bytes_append, List.length_append]
    show b.text.length + t.length < _
    omega
  rw [SelBuf.print, if_pos (by omega), CStr.fit_eq_self hshort, CStr.fit_eq_self hall]

theorem length_append (s t : CStr) : (s ++ t).length = s.length + t.length :=
  List.length_append

theorem Built.print {m : SelMem} {b : SelBuf} (h : Built m b) {t : CStr}
    (hroom : b.o + t.length < playFromSelSize) : Built (m.print t) (b.print playFromSelSize t) := by
  have hoff : m.o < playFromSelSize := by
    rw [h.offset]
    exact h.room
  have hfit : t.fit (playFromSelSize - m.o) = t := by
    apply CStr.fit_eq_self
    rw [h.offset]
    omega
  rw [selBuf_print h.length hroom]
  refine ⟨?_, ?_, ?_, hroom, ?_⟩
  · rw [Inside, SelMem.writes_print]
    exact h.inside.printAt hoff t
  · rw [SelMem.o_print, h.offset]
  · rw [length_append, h.length]
  · have hread := readMem_write h (t.bytes ++ [0])
    rw [List.length_append, ← Nat.add_assoc, readMem_add, ← List.append_assoc] at hread
    rw [SelMem.mem_print, SelMem.o_print, printAt_of_lt hoff, hfit]
    exact List.append_inj_left' hread (by rw [length_readMem])

theorem Built.put {m : SelMem} {b : SelBuf} (h : Built m b) {c : UInt8} {t : CStr}
    (ht : t.bytes = [c]) (hroom : b.o + 1 < playFromSelSize) :
    Built (m.put c) (b.print playFromSelSize t) := by
  have hlen : t.length = 1 := by
    rw [CStr.length, ht]
    rfl
  have hoff : m.o < playFromSelSize := by
    rw [h.offset]
    exact h.room
  rw [selBuf_print h.length (by omega), hlen]
  refine ⟨?_, ?_, ?_, hroom, ?_⟩
  · exact h.inside.write hoff hoff
  · show m.o + 1 = b.o + 1
    rw [h.offset]
  · rw [length_append, h.length, hlen]
  · rw [CStr.bytes_append, ht, SelMem.put]
    exact readMem_write h [c]

/-- The last write spells the text with its tail, as far as `sel` goes. -/
theorem Built.text_printAt {m : SelMem} {b : SelBuf} (h : Built m b) (t : CStr) :
    (m.printAt t).text = (b.text ++ t).fit playFromSelSize := by
  have hoff : m.o < playFromSelSize := by
    rw [h.offset]
    exact h.room
  have hlength := h.length
  have hoffset := h.offset
  let printed := (t.fit (playFromSelSize - m.o)).bytes
  have hprinted : m.o + (printed ++ [0]).length ≤ playFromSelSize := by
    rw [List.length_append, length_fit, List.length_singleton]
    omega
  -- the terminator ends the text, whatever lies behind it
  obtain ⟨rest, hrest⟩ := readMem_mono (m.write (printed ++ [0])).mem 0 hprinted
  rw [readMem_write h, ← List.append_assoc, List.append_assoc _ [0]] at hrest
  have hnul : ∀ c ∈ b.text.bytes ++ printed, decide (c ≠ 0) = true := by
    intro c hc
    rw [decide_eq_true_eq]
    rintro rfl
    rcases List.mem_append.1 hc with hc | hc
    · exact b.text.nulFree hc
    · exact (t.fit _).nulFree hc
  apply CStr.ext'
  calc (m.printAt t).text.bytes
      = (b.text.bytes ++ printed ++ ([0] ++ rest)).takeWhile (· ≠ 0) := by
        rw [printAt_of_lt hoff, SelMem.text, cstr, ← hrest]
    _ = b.text.bytes ++ printed := by
        rw [List.takeWhile_append_of_pos hnul, List.singleton_append,
          List.takeWhile_cons_of_neg (by simp), List.append_nil]
    _ = (b.text.bytes ++ t.bytes).take (playFromSelSize - 1) := by
        rw [List.take_append, List.take_of_length_le (by rw [← CStr.length]; omega), ← CStr.length]
        show _ ++ t.bytes.take (playFromSelSize - m.o - 1) = _
        rw [hoffset, hlength, Nat.sub_right_comm]

/-! ## The loop -/

/-- The guard keeps the loop inside `sel`. -/
theorem Built.loop {rest : List CqTrackItem} :
    ∀ {n : Nat} {m : SelMem} {b : SelBuf}, Built m b →
      Built (playFromWrites rest n m) (playFromLoop rest n b) := by
  induction rest with
  | nil =>
      intro n m b h
      exact h
  | cons item rest ih =>
      intro n m b h
      rw [playFromWrites, playFromLoop]
      by_cases hn : n < 24
      · rw [if_pos hn, if_pos hn]
        cases afterLastColon item.uri with
        | none => exact ih h
        | some id =>
            dsimp only
            rw [h.offset]
            by_cases hid : id.bytes = []
            · rw [if_pos hid, if_pos hid]
              exact ih h
            · rw [if_neg hid, if_neg hid]
              by_cases hguard : playFromSelSize ≤ b.o + id.length + 16
              · rw [if_pos hguard, if_pos hguard]
                exact h
              · rw [if_neg hguard, if_neg hguard]
                -- the comma and the id stay below the size by 16 bytes
                have hput : Built (m.put 44) (b.print playFromSelSize (.lit ",")) :=
                  h.put rfl (by omega)
                have hlen : (b.print playFromSelSize (.lit ",")).o = b.o + 1 := rfl
                apply ih
                apply hput.print
                omega
      · rw [if_neg hn, if_neg hn]
        exact h

/-- It stops at offset 884, or does not go on from one beyond. -/
theorem o_playFromLoop_le {rest : List CqTrackItem} :
    ∀ {n : Nat} {b : SelBuf}, (playFromLoop rest n b).o ≤ max b.o 884 := by
  induction rest with
  | nil =>
      intro n b
      exact Nat.le_max_left _ _
  | cons item rest ih =>
      intro n b
      rw [playFromLoop]
      split
      · split
        · exact ih
        · next id hid =>
          split
          · exact ih
          · split
            · exact Nat.le_max_left _ _
            · next hguard =>
              rw [playFromSelSize] at hguard
              apply ih.trans
              show max (b.o + 1 + id.length) 884 ≤ _
              omega
      · exact Nat.le_max_left _ _

/-- From an offset within 16 bytes of the end, the loop writes nothing. -/
theorem playFromWrites_of_ge {rest : List CqTrackItem} {n : Nat} {m : SelMem} (h : 884 ≤ m.o) :
    playFromWrites rest n m = m := by
  induction rest with
  | nil => rfl
  | cons item rest ih =>
      rw [playFromWrites]
      split
      · split
        · exact ih
        · next id hid =>
          split
          · exact ih
          · rw [if_pos]
            rw [playFromSelSize]
            omega
      · rfl

/-! ## The clicked row -/

theorem length_selHead : selHead.length = 26 := by decide

theorem length_selTail : selTail.length = 9 := by decide

theorem o_selClicked (stack : Nat → UInt8) (id : CStr) : (selClicked stack id).o = 26 + id.length := by
  rw [selClicked, SelMem.o_print, SelMem.o_print, length_selHead, Nat.zero_add]

/-- The text with the id of the clicked row. -/
def headText (id : CStr) : SelBuf :=
  (SelBuf.print ⟨.empty, 0⟩ playFromSelSize selHead).print playFromSelSize id

theorem built_head (stack : Nat → UInt8) : Built (SelMem.print ⟨stack, 0, []⟩ selHead)
    (SelBuf.print ⟨.empty, 0⟩ playFromSelSize selHead) := by
  have hempty : Built ⟨stack, 0, []⟩ ⟨.empty, 0⟩ :=
    ⟨fun _ h => absurd h List.not_mem_nil, rfl, rfl, by decide, rfl⟩
  apply hempty.print
  rw [length_selHead]
  decide

theorem built_clicked (stack : Nat → UInt8) {id : CStr} (h : id.length ≤ 873) :
    Built (selClicked stack id) (headText id) := by
  apply (built_head stack).print
  show 0 + selHead.length + id.length < _
  rw [length_selHead, playFromSelSize]
  omega

theorem built_loop (stack : Nat → UInt8) {id : CStr} (h : id.length ≤ 873) (rest : List CqTrackItem) :
    Built (selLoop stack id rest) (playFromLoop rest 1 (headText id)) :=
  (built_clicked stack h).loop

/-- **The memory spells the text** of `playFromSel`, while the id leaves the offset below the size. -/
theorem text_eq_playFromSel (stack : Nat → UInt8) {id : CStr} (h : id.length ≤ 873)
    (rest : List CqTrackItem) :
    ((selLoop stack id rest).printAt selTail).text = playFromSel id rest := by
  have hbuilt := built_loop stack h rest
  have hshort : (playFromLoop rest 1 (headText id)).text.length <
      (playFromLoop rest 1 (headText id)).o + 1 := by
    rw [hbuilt.length]
    omega
  rw [hbuilt.text_printAt]
  show _ = (SelBuf.print (playFromLoop rest 1 (headText id)) playFromSelSize selTail).text
  rw [SelBuf.print, if_pos hbuilt.room, CStr.fit_eq_self hshort]

/-! ## The tail -/

/-- No part of the tail that is cut off ends as the whole of it does. -/
theorem getLast?_take_selTail {k : Nat} (hpos : 0 < k) (hlt : k < 9) :
    (selTail.bytes.take k).getLast? ≠ selTail.bytes.getLast? := by
  have hall : ∀ k < 9, 0 < k → (selTail.bytes.take k).getLast? ≠ selTail.bytes.getLast? := by decide
  exact hall k hlt hpos

theorem getLast?_of_suffix {l₁ l₂ : Bytes} (h : l₁ <:+ l₂) (hne : l₁ ≠ []) :
    l₂.getLast? = l₁.getLast? := by
  obtain ⟨front, rfl⟩ := h
  exact List.getLast?_append_of_ne_nil _ hne

/-- The tail is cut off behind offset 890. -/
theorem selTail_suffix_fit_iff {t : CStr} (h : t.length < playFromSelSize) :
    selTail.bytes <:+ ((t ++ selTail).fit playFromSelSize).bytes ↔
      t.length ≤ 890 ∨ t.length = 899 ∧ selTail.bytes <:+ t.bytes := by
  rw [playFromSelSize] at h ⊢
  have hbytes : ((t ++ selTail).fit 900).bytes = t.bytes ++ selTail.bytes.take (899 - t.length) := by
    show (t.bytes ++ selTail.bytes).take 899 = _
    rw [List.take_append, List.take_of_length_le (show t.length ≤ 899 by omega)]
    rfl
  have hlen : selTail.bytes.length = 9 := length_selTail
  rw [hbytes]
  rcases Nat.lt_or_ge 890 t.length with hlong | hshort
  · rcases Nat.lt_or_ge t.length 899 with hcut | hfull
    · constructor
      · intro hsuffix
        -- what is left of the tail would have to end as the tail does
        have hne : selTail.bytes.take (899 - t.length) ≠ [] := by
          rw [← List.length_pos_iff, List.length_take]
          omega
        have hlast := getLast?_of_suffix hsuffix (by decide)
        rw [List.getLast?_append_of_ne_nil _ hne] at hlast
        exact absurd hlast (getLast?_take_selTail (by omega) (by omega))
      · rintro (hle | ⟨heq, -⟩)
        · omega
        · omega
    · have heq : t.length = 899 := by omega
      rw [heq, Nat.sub_self, List.take_zero, List.append_nil]
      constructor
      · intro hsuffix
        exact Or.inr ⟨rfl, hsuffix⟩
      · rintro (hle | ⟨-, hsuffix⟩)
        · omega
        · exact hsuffix
  · rw [List.take_of_length_le (by omega)]
    exact ⟨fun _ => Or.inl hshort, fun _ => List.suffix_append _ _⟩

theorem staysInside_finished (m : SelMem) :
    StaysInside (m, true) ↔ Inside m ∧ selTail.bytes <:+ m.text.bytes := by
  simp only [StaysInside, true_imp_iff]

theorem staysInside_unfinished (m : SelMem) : StaysInside (m, false) ↔ Inside m := by
  simp [StaysInside]

/-- An id that ends behind `sel`: the tail is written there. -/
theorem not_inside_of_gt (stack : Nat → UInt8) {id : CStr} (h : 873 < id.length)
    (rest : List CqTrackItem) : ¬ Inside ((selLoop stack id rest).printAt selTail) := by
  have ho := o_selClicked stack id
  have hloop : selLoop stack id rest = selClicked stack id := playFromWrites_of_ge (by omega)
  rw [hloop]
  apply not_inside_printAt
  rw [ho, playFromSelSize]
  omega

theorem inside_of_le (stack : Nat → UInt8) {id : CStr} (h : id.length ≤ 873) (rest : List CqTrackItem) :
    Inside ((selLoop stack id rest).printAt selTail) := by
  have hbuilt := built_loop stack h rest
  have hoff : (selLoop stack id rest).o < playFromSelSize := by
    rw [hbuilt.offset]
    exact hbuilt.room
  exact hbuilt.inside.printAt hoff selTail

/-- An id that leaves room: the loop keeps the offset in front of the tail. -/
theorem suffix_of_room (stack : Nat → UInt8) {id : CStr} (h : id.length ≤ 864) (rest : List CqTrackItem) :
    selTail.bytes <:+ ((selLoop stack id rest).printAt selTail).text.bytes := by
  have hle : id.length ≤ 873 := by omega
  have hbuilt := built_loop stack hle rest
  have hloop : (playFromLoop rest 1 (headText id)).o ≤ max (headText id).o 884 := o_playFromLoop_le
  have hclicked : (headText id).o = 26 + id.length := by
    rw [← o_selClicked stack id, (built_clicked stack hle).offset]
  rw [hbuilt.text_printAt, selTail_suffix_fit_iff (by rw [hbuilt.length]; exact hbuilt.room), hbuilt.length]
  left
  omega

/-- An id that leaves none: the loop writes nothing, and the tail is cut off, unless the id ends with its text. -/
theorem suffix_iff_of_no_room (stack : Nat → UInt8) {id : CStr} (h : 864 < id.length)
    (hle : id.length ≤ 873) (rest : List CqTrackItem) :
    selTail.bytes <:+ ((selLoop stack id rest).printAt selTail).text.bytes ↔
      id.length = 873 ∧ selTail.bytes <:+ id.bytes := by
  have ho := o_selClicked stack id
  have hloop : selLoop stack id rest = selClicked stack id := playFromWrites_of_ge (by omega)
  have hclicked := built_clicked stack hle
  have htext : (headText id).text = selHead ++ id := by
    have hhead := (built_head stack).length
    rw [headText, selBuf_print hhead]
    · rfl
    · show 0 + selHead.length + id.length < _
      rw [length_selHead, playFromSelSize]
      omega
  have hlen : (headText id).text.length = 26 + id.length := by
    rw [htext, length_append, length_selHead]
  have hends : selTail.bytes <:+ selHead.bytes ++ id.bytes ↔ selTail.bytes <:+ id.bytes := by
    refine ⟨?_, fun h => h.trans (List.suffix_append _ _)⟩
    intro h
    apply List.suffix_of_suffix_length_le h (List.suffix_append _ _)
    show selTail.length ≤ id.length
    rw [length_selTail]
    omega
  have hcut := selTail_suffix_fit_iff (t := (headText id).text) (by
    rw [hclicked.length]
    exact hclicked.room)
  rw [← hclicked.text_printAt, ← hloop, hlen, htext, CStr.bytes_append, hends] at hcut
  rw [hcut]
  constructor
  · rintro (hroom | ⟨heq, htail⟩)
    · omega
    · exact ⟨by omega, htail⟩
  · rintro ⟨heq, htail⟩
    exact Or.inr ⟨by omega, htail⟩

/-- A finished selector is all right exactly if the id of the clicked row leaves room. -/
theorem finished_iff (stack : Nat → UInt8) (id : CStr) (rest : List CqTrackItem) :
    StaysInside ((selLoop stack id rest).printAt selTail, true) ↔ LeavesRoom id := by
  rw [staysInside_finished, LeavesRoom]
  rcases Nat.lt_or_ge 873 id.length with hbeyond | hle
  · apply iff_of_false
    · exact fun h => not_inside_of_gt stack hbeyond rest h.1
    · rintro (hshort | ⟨heq, -⟩)
      · omega
      · omega
  · rw [and_iff_right (inside_of_le stack hle rest)]
    rcases Nat.lt_or_ge 864 id.length with hlong | hshort
    · rw [suffix_iff_of_no_room stack hlong hle rest, or_iff_right (Nat.not_le.2 hlong)]
    · exact iff_of_true (suffix_of_room stack hshort rest) (Or.inl hshort)

/-- A selector that is not finished has at most its head. -/
theorem staysInside_early (stack : Nat → UInt8) : StaysInside (⟨stack, 0, []⟩, false) ∧
    StaysInside (SelMem.print ⟨stack, 0, []⟩ selHead, false) := by
  rw [staysInside_unfinished, staysInside_unfinished]
  exact ⟨fun _ h => absurd h List.not_mem_nil, (built_head stack).inside⟩

/-- **`PlayFrom` stays inside its buffer** exactly if the id of the clicked row leaves room for the tail of the
selector. The ids of the continuation never matter. -/
theorem stays_inside_iff (stack : Nat → UInt8) (s : Globals) (items : CqTrackList) (row : Int)
    (cont : Option CqTrackList) :
    StaysInside (playFromBuild stack s items row cont) ↔
      ∀ id, clickedId s items row = some id → LeavesRoom id := by
  obtain ⟨hempty, hhead⟩ := staysInside_early stack
  have hnone : ∀ {built : SelMem × Bool} {id? : Option CStr}, StaysInside built → id? = none →
      (StaysInside built ↔ ∀ id, id? = some id → LeavesRoom id) := by
    intro built id? hinside hid
    rw [hid]
    exact ⟨fun _ id h => (Option.some_ne_none id h.symm).elim, fun _ => hinside⟩
  rw [playFromBuild]
  by_cases hrow : row < 0
  · rw [if_pos hrow]
    exact hnone hempty (if_pos (Or.inl hrow))
  · rw [if_neg hrow]
    cases hitem : items.items[row.toNat]? with
    | none =>
        apply hnone hempty
        rw [clickedId, hitem]
        split <;> rfl
    | some item =>
        dsimp only
        by_cases hold : s.probe.gNativePlay = .notFound
        · rw [if_pos hold]
          exact hnone hempty (if_pos (Or.inr (Or.inl hold)))
        · rw [if_neg hold]
          by_cases hbusy : s.probe.gCmd.isSome
          · rw [if_pos hbusy]
            exact hnone hempty (if_pos (Or.inr (Or.inr hbusy)))
          · have hclicked : clickedId s items row =
                (afterLastColon item.uri).filter fun id => id.bytes ≠ [] := by
              rw [clickedId, if_neg (not_or.2 ⟨hrow, not_or.2 ⟨hold, hbusy⟩⟩), hitem]
              rfl
            rw [if_neg hbusy, hclicked]
            cases afterLastColon item.uri with
            | none => exact hnone hhead rfl
            | some id =>
                dsimp only
                by_cases hid : id.bytes = []
                · rw [if_pos hid]
                  apply hnone hhead
                  rw [Option.filter_some, if_neg (by simp [hid])]
                · rw [if_neg hid, Option.filter_some, if_pos (by simp [hid]), finished_iff]
                  exact ⟨fun h id' h' => Option.some.inj h' ▸ h, fun h => h id rfl⟩

/-! ## A long id -/

/-- A row whose id has 880 characters. -/
def longIdReply : Bytes := ascii "item.0.uri\tspotify:track:" ++ List.replicate 880 97 ++ ascii "\n"

/-- **A long id is written past the end**: the offset is 906, `sizeof(sel) - o` has wrapped, and the tail is
stored behind the buffer. -/
theorem long_id_overruns :
    ¬ ∀ (stack : Nat → UInt8) (host : CStr) (port : Nat) (autoStart qtOk : Bool) (data : Bytes)
      (row : Int) (cont : Option CqTrackList),
      StaysInside (playFromBuild stack (launch host port autoStart qtOk)
        (cqTrackListFromResponse data) row cont) := by
  intro h
  obtain ⟨hinside, -⟩ := h (fun _ => 0) .empty 70 false false longIdReply 0 none
  -- the pairs of the reply evaluate, the index loops of the parser hardly
  rw [cqTrackListFromResponse, cqFieldsParse_eq_putPairs] at hinside
  have hlast := hinside ⟨906, selTail.bytes ++ [0]⟩ (by decide +kernel)
  exact absurd hlast.1 (by decide)

end Casquinha.App
