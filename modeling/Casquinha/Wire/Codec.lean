import Casquinha.Lib.CString

/-!
# The field codec (`src/cq_codec.c`)

A `/now`-shaped document is a sequence of `key<TAB>value` lines. `cqFieldsParse` is the index loop
of the source over the raw buffer: find the end of the line, drop one trailing CR, find the first
TAB, store the pair. `fieldsPut` replaces the value in place when the key is already stored.
Allocations succeed; the growth of the item array (`cap`) is not modelled.

Stored keys and values are C strings, so a NUL in the buffer truncates them (`dupRange`).
`cqParseLl` reads a signed 64-bit number; its arithmetic wraps modulo `2^64`.
-/

set_option autoImplicit false

namespace Casquinha.Wire

open Lib

/-- Line feed. -/
def LF : UInt8 := 10

/-- Carriage return. -/
def CR : UInt8 := 13

/-- Horizontal tab. -/
def TAB : UInt8 := 9

/-- One stored line (`cq_field`). -/
structure CqField where
  key : CStr
  value : CStr
deriving DecidableEq

/-- A field set (`cq_fields`). -/
structure CqFields where
  items : List CqField
deriving DecidableEq

/-- `cq_fields_init`. -/
def cqFieldsInit : CqFields := ⟨[]⟩

/-- The bytes `p[start .. start + n)`. -/
def slice (p : Bytes) (start n : Nat) : Bytes := (p.drop start).take n

/-- `dup_range`: a fresh C string; an embedded NUL truncates the C view. -/
def dupRange (p : Bytes) : CStr := cstr p

/-- The stored key is exactly `k`: `strlen(ek) == klen && memcmp(ek, k, klen) == 0`. -/
def keyIs (k : Bytes) (e : CqField) : Bool :=
  e.key.length == k.length && e.key.bytes.take k.length == k

/-- `fields_put`: last value wins, in place. -/
def fieldsPut (f : CqFields) (k v : Bytes) : CqFields :=
  match f.items.findIdx? (keyIs k) with
  | some i => ⟨f.items.modify i fun e => { e with value := dupRange v }⟩
  | none => ⟨f.items ++ [⟨dupRange k, dupRange v⟩]⟩

/-- `while (end < len && data[end] != '\n') end++`. -/
def lineEnd (data : Bytes) : Nat → Nat → Nat
  | 0, e => e
  | fuel + 1, e =>
      if e < data.length ∧ data[e]? ≠ some LF then lineEnd data fuel (e + 1) else e

/-- First TAB among `data[start + i]`, `i < lineLen`. -/
def findTab (data : Bytes) (start lineLen : Nat) : Nat → Nat → Option Nat
  | 0, _ => none
  | fuel + 1, i =>
      if i < lineLen then
        if data[start + i]? = some TAB then some i else findTab data start lineLen fuel (i + 1)
      else none

/-- The body of the parse loop for the line `[start, e)`. -/
def fieldsLine (f : CqFields) (data : Bytes) (start e : Nat) : CqFields :=
  let rawLen := e - start
  let lineLen :=
    if 0 < rawLen ∧ data[start + rawLen - 1]? = some CR then rawLen - 1 else rawLen
  match findTab data start lineLen lineLen 0 with
  | some tab =>
      if 0 < tab then
        fieldsPut f (slice data start tab) (slice data (start + tab + 1) (lineLen - tab - 1))
      else f
  | none => f

/-- `while (start <= len)` of `cq_fields_parse`; every round but the last moves `start` forward. -/
def fieldsLoop (data : Bytes) : Nat → Nat → CqFields → CqFields
  | 0, _, f => f
  | fuel + 1, start, f =>
      if start ≤ data.length then
        let e := lineEnd data data.length start
        let f' := fieldsLine f data start e
        if data.length ≤ e then f' else fieldsLoop data fuel (e + 1) f'
      else f

/-- `cq_fields_parse`. -/
def cqFieldsParse (f : CqFields) (data : Bytes) : CqFields :=
  if data.length = 0 then f else fieldsLoop data (data.length + 1) 0 f

/-- `cq_fields_get`. -/
def cqFieldsGet (f : CqFields) (key : CStr) : Option CStr :=
  (f.items.find? fun e => e.key = key).map CqField.value

/-- `cq_data_is_jpeg`. -/
def cqDataIsJpeg (data : Bytes) : Bool :=
  2 ≤ data.length && data[0]? == some 0xFF && data[1]? == some 0xD8

/-! ## Signed 64-bit numbers -/

/-- The whitespace `cq_parse_ll` skips. -/
def isSpaceByte (c : UInt8) : Bool :=
  c == 32 || c == 9 || c == 10 || c == 13 || c == 11 || c == 12

/-- `while (*s >= '0' && *s <= '9')`, with the accumulator in a 64-bit register. -/
def parseDigits (v : Int) : Bytes → Int
  | [] => v
  | c :: s =>
      if IsDigitByte c then parseDigits ((v * 10 + ((c.toNat : Int) - 48)).bmod (2 ^ 64)) s else v

/-- `cq_parse_ll`. -/
def cqParseLl : Option CStr → Int
  | none => 0
  | some s =>
      match s.bytes.dropWhile isSpaceByte with
      | [] => 0
      | c :: rest =>
          if c = 43 then parseDigits 0 rest
          else if c = 45 then (-(parseDigits 0 rest)).bmod (2 ^ 64)
          else parseDigits 0 (c :: rest)

end Casquinha.Wire
