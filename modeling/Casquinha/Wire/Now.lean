import Casquinha.Wire.Codec

/-!
# The `/now` snapshot (`src/cq_now.c`)

`cqNowFromFields` builds a snapshot from a field set. Missing keys are tolerated: an absent or
unknown `state` reads as stopped, an absent number as `0`, an absent `volume` as the sentinel `-1`.
Copies of the texts succeed.
-/

set_option autoImplicit false

namespace Casquinha.Wire

open Lib

/-- `cq_play_state`. -/
inductive CqPlayState where
  | stopped
  | playing
  | paused
deriving DecidableEq

/-- `cq_dev_state`. -/
inductive CqDevState where
  | unknown
  | active
  | idle
deriving DecidableEq

/-- `cq_now`; `none` is the NULL of an absent text. -/
structure CqNow where
  state : CqPlayState
  track : Option CStr
  artist : Option CStr
  album : Option CStr
  albumId : Option CStr
  trackId : Option CStr
  positionMs : Int
  durationMs : Int
  ts : Int
  volume : Int
  queueLen : Int
  apiVersion : Int
  device : CqDevState
deriving DecidableEq

/-- The zeroed snapshot: `memset(&gSnap, 0, sizeof(gSnap))`. -/
def CqNow.zero : CqNow where
  state := .stopped
  track := none
  artist := none
  album := none
  albumId := none
  trackId := none
  positionMs := 0
  durationMs := 0
  ts := 0
  volume := 0
  queueLen := 0
  apiVersion := 0
  device := .unknown

/-- `state_from`: NULL and every unknown word read as stopped. -/
def stateFrom (s : Option CStr) : CqPlayState :=
  if s = some (.lit "playing") then .playing
  else if s = some (.lit "paused") then .paused
  else .stopped

/-- `device_from`. -/
def deviceFrom (s : Option CStr) : CqDevState :=
  if s = some (.lit "active") then .active
  else if s = some (.lit "idle") then .idle
  else .unknown

/-- `(int)cq_parse_ll(s)`: the low 32 bits. -/
def parseInt (s : Option CStr) : Int := (cqParseLl s).bmod (2 ^ 32)

/-- `cq_now_from_fields`. -/
def cqNowFromFields (f : CqFields) : CqNow where
  state := stateFrom (cqFieldsGet f (.lit "state"))
  device := deviceFrom (cqFieldsGet f (.lit "device"))
  track := cqFieldsGet f (.lit "track")
  artist := cqFieldsGet f (.lit "artist")
  album := cqFieldsGet f (.lit "album")
  albumId := cqFieldsGet f (.lit "album_id")
  trackId := cqFieldsGet f (.lit "track_id")
  positionMs := cqParseLl (cqFieldsGet f (.lit "position_ms"))
  durationMs := cqParseLl (cqFieldsGet f (.lit "duration_ms"))
  ts := cqParseLl (cqFieldsGet f (.lit "ts"))
  queueLen := parseInt (cqFieldsGet f (.lit "queue_len"))
  apiVersion := parseInt (cqFieldsGet f (.lit "api"))
  volume :=
    match cqFieldsGet f (.lit "volume") with
    | some v => parseInt (some v)
    | none => -1

/-- `cq_now_from_response`. -/
def cqNowFromResponse (data : Bytes) : CqNow := cqNowFromFields (cqFieldsParse cqFieldsInit data)

/-- `cq_now_has_track`. -/
def cqNowHasTrack (n : CqNow) : Bool := n.track.any fun track => track.bytes ≠ []

/-- `cq_now_interpolated_position_ms`; the sums are made in 64-bit registers. -/
def cqNowInterpolatedPositionMs (n : CqNow) (nowEpochMs : Int) : Int :=
  if n.state ≠ .playing ∨ n.ts ≤ 0 then n.positionMs
  else
    let est := (n.positionMs + (nowEpochMs - n.ts).bmod (2 ^ 64)).bmod (2 ^ 64)
    let est := if est < 0 then 0 else est
    if 0 < n.durationMs ∧ n.durationMs < est then n.durationMs else est

end Casquinha.Wire
