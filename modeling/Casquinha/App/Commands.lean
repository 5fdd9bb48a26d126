import Casquinha.App.State

/-!
# Commands (`os9/casquinha.c`)

Selectors, the same-action guard, and what the gestures start. Commands ride `gCmd` and their reply is
a snapshot; fires ride `gFire` and their reply is dropped. A text that is printed into a buffer is cut
to what the buffer holds.
-/

set_option autoImplicit false

namespace Casquinha.App

open Lib Wire

/-! ## Selectors -/

/-- The hex digits of `EscInto`. -/
def hexDigit (n : UInt8) : UInt8 := if n < 10 then 48 + n else 55 + n

/-- The bytes `EscInto` leaves as they are. -/
def escSafe (keepColon : Bool) (c : UInt8) : Bool :=
  (65 ≤ c && c ≤ 90) || (97 ≤ c && c ≤ 122) || (48 ≤ c && c ≤ 57) || c == 45 || c == 95 ||
    c == 46 || c == 126 || (keepColon && c == 58)

/-- What `EscInto` writes for a byte. -/
def escByte (keepColon : Bool) (c : UInt8) : Bytes :=
  if escSafe keepColon c then [c] else [37, hexDigit (c >>> 4), hexDigit (c &&& 15)]

/-- `for (; *s && o + 3 < max; s++)`. -/
def escLoop (max : Nat) (keepColon : Bool) : Nat → Bytes → Bytes
  | _, [] => []
  | o, c :: s =>
      if o + 3 < max then
        escByte keepColon c ++ escLoop max keepColon (o + (escByte keepColon c).length) s
      else []

/-- `EscInto`. -/
def escInto (s : CStr) (max : Nat) (keepColon : Bool) : CStr :=
  cstr (escLoop max keepColon 0 s.bytes)

/-- The text after the last colon: `strrchr(u, ':') + 1`. -/
def afterLastColon (u : CStr) : Option CStr :=
  if (58 : UInt8) ∈ u.bytes then
    some (cstr (u.bytes.reverse.takeWhile (· ≠ 58)).reverse)
  else none

/-- A text of `size` bytes under construction with `snprintf(sel + o, size - o, ...)`. -/
structure SelBuf where
  text : CStr
  o : Nat

/-- `o += snprintf(sel + o, sizeof(sel) - o, "%s", t)`. An offset beyond the size, for which `sizeof(sel) - o` wraps
around, is not represented: the text then stays as it is. -/
def SelBuf.print (b : SelBuf) (size : Nat) (t : CStr) : SelBuf :=
  { text := if b.o < size then (b.text.fit (b.o + 1) ++ t).fit size else b.text
    o := b.o + t.length }

/-- The size of `sel` in `PlayFrom`. -/
def playFromSelSize : Nat := 900

/-- `for (i = start; i < rest->count && n < 24; i++)`. -/
def playFromLoop : List CqTrackItem → Nat → SelBuf → SelBuf
  | [], _, b => b
  | item :: rest, n, b =>
      -- the clicked id counts
      if n < 24 then
        match afterLastColon item.uri with
        -- a row without an id is passed over
        | none => playFromLoop rest n b
        | some id =>
            if id.bytes = [] then playFromLoop rest n b
            -- room for the comma, the id and the tail of the selector
            else if playFromSelSize ≤ b.o + id.length + 16 then b
            else
              playFromLoop rest (n + 1)
                ((b.print playFromSelSize (.lit ",")).print playFromSelSize id)
      else b

/-- The selector of `PlayFrom` for the clicked id and the rows that follow. -/
def playFromSel (id : CStr) (rest : List CqTrackItem) : CStr :=
  let head := SelBuf.print ⟨.empty, 0⟩ playFromSelSize (.lit "/spot/api/1/play/from?ids=")
  let b := playFromLoop rest 1 (head.print playFromSelSize id)
  (b.print playFromSelSize (.lit "&offset=0")).text

/-! ## Starting -/

/-- `CQ_ACTION_GUARD_TICKS`. -/
def cqActionGuardTicks : Int := 40

/-- `CQ_DEBOUNCE_TICKS`. -/
def cqDebounceTicks : BitVec 32 := 18

/-- `CQ_HOLD_TICKS`. -/
def cqHoldTicks : BitVec 32 := 180

/-- The test of `ActionRepeat`. -/
def isRepeat (env : Env) (s : Globals) (sel : CStr) : Bool :=
  s.gLastAction.bytes ≠ [] && sel = s.gLastAction &&
    (env.tick - s.gLastActionTick).toInt < cqActionGuardTicks

/-- `ActionRepeat`: whether the action is swallowed; if not, it is noted. -/
def actionRepeat (env : Env) (s : Globals) (sel : CStr) : Bool × Globals :=
  if isRepeat env s sel then (true, s)
  else
    (false,
      { s with
        gLastAction := sel.fit 240
        gLastActionTick := env.tick })

/-- `StartCommand`: dropped while a command is in flight. -/
def startCommand (env : Env) (s : Globals) (sel : CStr) : Globals :=
  match s.probe.gCmd with
  | some _ => s
  | none =>
      { s with
        probe := { s.probe with gCmd := cqTxNew env s sel }
        nextTx := s.nextTx + 1 }

/-- `StartFire`. -/
def startFire (env : Env) (s : Globals) (sel : CStr) : Globals :=
  match actionRepeat env s sel with
  | (true, s) => s
  | (false, s) =>
      -- the action is noted although the fire may be dropped
      match s.gFire with
      | some _ => s
      | none =>
          { s with
            gFire := cqTxNew env s sel
            nextTx := s.nextTx + 1 }

/-- `PlayItem`. -/
def playItem (env : Env) (s : Globals) (items : CqTrackList) (row : Nat) : Globals :=
  match items.items[row]? with
  | none => s
  | some item =>
      startFire env s ((CStr.lit "/spot/play?uri=" ++ escInto item.uri 128 true).fit 160)

/-- The rows that follow the clicked one: `rest` and `start` of `PlayFrom`. -/
def continuation (items : CqTrackList) (row : Nat) (cont : Option CqTrackList) : List CqTrackItem :=
  match cont with
  | some rest => rest.items
  | none => items.items.drop (row + 1)

/-- The end of `PlayFrom`: store the uri, then start the command unless it is a repeat. -/
def storeAndStart (env : Env) (s : Globals) (uri sel : CStr) : Globals :=
  let s :=
    { s with
      probe :=
        { s.probe with
          gFallbackUri := uri.fit 128
          storedBy := none } }
  -- a swallowed repeat has stored the uri all the same
  match actionRepeat env s sel with
  | (true, s) => s
  | (false, s) =>
      let s := startCommand env s sel
      { s with probe := { s.probe with storedBy := s.probe.gCmd.map Tx.id } }

/-- `PlayFrom`. -/
def playFrom (env : Env) (s : Globals) (items : CqTrackList) (row : Nat)
    (cont : Option CqTrackList) : Globals :=
  match items.items[row]? with
  | none => s
  | some item =>
      if s.probe.gNativePlay = .notFound then playItem env s items row
      -- a command is in flight: the click is dropped
      else if s.probe.gCmd.isSome then s
      else
        match afterLastColon item.uri with
        | none => playItem env s items row
        | some id =>
            if id.bytes = [] then playItem env s items row
            else storeAndStart env s item.uri (playFromSel id (continuation items row cont))

/-- `PlayContextAlbum`. -/
def playContextAlbum (env : Env) (s : Globals) (albumId : CStr) : Globals :=
  if albumId.bytes = [] then s
  else
    let uri := (CStr.lit "spotify:album:" ++ albumId).fit 80
    let sel := (CStr.lit "/spot/api/1/play/context?uri=" ++ escInto uri 160 true).fit 224
    match actionRepeat env s sel with
    | (true, s) => s
    | (false, s) => startCommand env (setIntent env s .play) sel

/-! ## Next -/

/-- The row after the first row whose id is the current track; the head when there is none. -/
def queueNextScan (trackId : CStr) (count : Nat) : List CqTrackItem → Nat → Option Nat
  | [], _ => some 0
  | item :: rest, i =>
      if afterLastColon item.uri = some trackId then
        if i + 1 < count then some (i + 1) else none
      else queueNextScan trackId count rest (i + 1)

/-- `QueueNextRow`; `none` is `-1`. -/
def queueNextRow (s : Globals) : Option Nat :=
  if s.gQueueItems.items.length = 0 then none
  else
    match s.shown.gSnap.trackId with
    | none => some 0
    | some trackId => queueNextScan trackId s.gQueueItems.items.length s.gQueueItems.items 0

/-- A tap that waits in the debouncer. -/
def debounceTap (env : Env) (s : Globals) (sel : CStr) : Globals :=
  { s with
    gDeb := cqDebounceSet s.gDeb (some sel)
    gCmdFire := env.tick + cqDebounceTicks }

/-- The queue row that `NextCommand` plays, when nothing is playing and the queue has one. -/
def nextRow (s : Globals) : Option Nat :=
  if s.shown.gSnap.state ≠ .playing then queueNextRow s else none

/-- `NextCommand`. -/
def nextCommand (env : Env) (s : Globals) : Globals :=
  let s := setIntent env s .skip
  match nextRow s with
  | some row => playFrom env s s.gQueueItems row none
  | none => debounceTap env s (.lit "/spot/api/1/next")

end Casquinha.App
