import Casquinha.Lib.CString

/-!
# Numeric hosts (`parse_dotted_quad`, `resolve_host`)

A host that is written as four numbers needs no name resolution. The parser multiplies and adds the digits of
each number in an `unsigned long`, of 32 bits on the target, and tests the result once, behind the last digit.
What it accepts is four digit runs whose values are at most 255 modulo 2^32 (`parseDottedQuad_eq_some_iff`):
the quads, and the texts in which a longer run has wrapped around to such a value (`Wraps`).
-/

set_option autoImplicit false

namespace Casquinha.Transport

open Lib

/-! ## The parser -/

/-- `while (*p >= '0' && *p <= '9')`: the value, the number of digits and the text behind them. -/
def scanDigits (v : BitVec 32) (digits : Nat) : Bytes → BitVec 32 × Nat × Bytes
  | [] => (v, digits, [])
  | c :: p =>
      if IsDigitByte c then scanDigits (v * 10 + BitVec.ofNat 32 (c.toNat - 48)) (digits + 1) p
      else (v, digits, c :: p)

/-- `if (*p != '.') return 0; p++;` -/
def skipDot : Bytes → Option Bytes
  | [] => none
  | c :: p => if c = 46 then some p else none

/-- `for (i = 0; i < 4; i++)`: the parts from `i` on and the text behind them. The first argument is
`4 - i`. -/
def scanParts : Nat → Bytes → Option (List (BitVec 32) × Bytes)
  | 0, p => some ([], p)
  | left + 1, p =>
      let run := scanDigits 0 0 p
      if run.2.1 = 0 ∨ 255 < run.1.toNat then none
      -- a dot behind all but the last part
      else if left = 0 then some ([run.1], run.2.2)
      else
        (skipDot run.2.2).bind fun p =>
          (scanParts left p).map fun more => (run.1 :: more.1, more.2)

/-- The address that the parts make. -/
def quadAddress (parts : List (BitVec 32)) : BitVec 32 :=
  parts.getD 0 0 <<< 24 ||| parts.getD 1 0 <<< 16 ||| parts.getD 2 0 <<< 8 ||| parts.getD 3 0

/-- `parse_dotted_quad`. -/
def parseDottedQuad (s : CStr) : Option (BitVec 32) :=
  match scanParts 4 s.bytes with
  | none => none
  | some (parts, p) => if p = [] then some (quadAddress parts) else none

/-- The answer of the name resolution, in which the address 0 is none. `lookup` is the resolver of Open
Transport: the first address it finds, if it can be opened and reports no error. -/
def resolveName (lookup : CStr → Option (BitVec 32)) (host : CStr) : Option (BitVec 32) :=
  match lookup host with
  | none => none
  | some addr => if addr = 0 then none else some addr

/-- `resolve_host`. -/
def resolveHost (lookup : CStr → Option (BitVec 32)) (host : CStr) : Option (BitVec 32) :=
  match parseDottedQuad host with
  | some ip => some ip
  | none => resolveName lookup host

/-! ## Dotted numbers -/

/-- A decimal number: digits, at least one. -/
def DigitRun (r : Bytes) : Prop := r ≠ [] ∧ ∀ c ∈ r, IsDigitByte c

instance (r : Bytes) : Decidable (DigitRun r) :=
  @instDecidableAnd _ _ _ (List.decidableBAll _ r)

/-- Four decimal numbers with single dots between them, and nothing else. -/
structure Dotted (s : CStr) (a b c d : Bytes) : Prop where
  runs : ∀ r ∈ [a, b, c, d], DigitRun r
  text : s.bytes = (ascii ".").intercalate [a, b, c, d]

/-- A dotted quad and its address. -/
def Quad (s : CStr) (out : BitVec 32) : Prop :=
  ∃ a b c d, Dotted s a b c d ∧ (∀ r ∈ [a, b, c, d], decValue 0 r ≤ 255) ∧
    out.toNat = decValue 0 a * 2 ^ 24 + decValue 0 b * 2 ^ 16 + decValue 0 c * 2 ^ 8 + decValue 0 d

/-- Four decimal numbers with dots, all of them at most 255 modulo 2^32 and one of them greater. -/
def Wraps (s : CStr) : Prop :=
  ∃ a b c d, Dotted s a b c d ∧ (∀ r ∈ [a, b, c, d], decValue 0 r % 2 ^ 32 ≤ 255) ∧
    ∃ r ∈ [a, b, c, d], 255 < decValue 0 r

/-- The parser takes the quads for what they are, and leaves every other text to the name resolution. -/
def ParsesQuads (s : CStr) : Prop :=
  (∀ out, parseDottedQuad s = some out ↔ Quad s out) ∧
    ((¬ ∃ out, Quad s out) → ∀ lookup, resolveHost lookup s = resolveName lookup s)

/-! ## One part -/

/-- The value of a digit run modulo 2^32. -/
def partValue (r : Bytes) : BitVec 32 := BitVec.ofNat 32 (decValue 0 r)

@[simp] theorem toNat_partValue (r : Bytes) : (partValue r).toNat = decValue 0 r % 2 ^ 32 :=
  BitVec.toNat_ofNat _ _

/-- The loop over the digits reads them all, modulo 2^32. -/
theorem scanDigits_append {r rest : Bytes} (hr : ∀ c ∈ r, IsDigitByte c)
    (hrest : ∀ c ∈ rest.head?, ¬ IsDigitByte c) :
    ∀ n k : Nat, scanDigits (BitVec.ofNat 32 n) k (r ++ rest) =
      (BitVec.ofNat 32 (decValue n r), k + r.length, rest) := by
  induction r with
  | nil =>
      intro n k
      cases rest with
      | nil => rfl
      | cons c rest => rw [List.nil_append, scanDigits, if_neg (hrest c rfl)]; rfl
  | cons c r ih =>
      intro n k
      have hc := hr c List.mem_cons_self
      have hvalue : BitVec.ofNat 32 n * 10 + BitVec.ofNat 32 (c.toNat - 48) =
          BitVec.ofNat 32 (n * 10 + (c.toNat - 48)) := by
        rw [BitVec.ofNat_add, BitVec.ofNat_mul]
        rfl
      rw [List.cons_append, scanDigits, if_pos hc, hvalue,
        ih (fun d hd => hr d (List.mem_cons_of_mem c hd))]
      rw [List.length_cons, Nat.add_right_comm, Nat.add_assoc]
      rfl

/-- Every text is a digit run, empty perhaps, in front of something else. -/
theorem exists_digits (p : Bytes) : ∃ r rest, p = r ++ rest ∧ (∀ c ∈ r, IsDigitByte c) ∧
    ∀ c ∈ rest.head?, ¬ IsDigitByte c := by
  refine ⟨p.takeWhile fun c => decide (IsDigitByte c), p.dropWhile fun c => decide (IsDigitByte c),
    List.takeWhile_append_dropWhile.symm, ?_, ?_⟩
  · intro c hc
    simpa using List.mem_takeWhile_imp hc
  intro c hc
  have hhead := List.head?_dropWhile_not (fun c => decide (IsDigitByte c)) p
  rw [Option.mem_def.1 hc] at hhead
  exact of_decide_eq_false hhead

theorem skipDot_eq_some_iff {p q : Bytes} : skipDot p = some q ↔ p = 46 :: q := by
  cases p with
  | nil => simp [skipDot]
  | cons c p =>
      rw [skipDot]
      split
      · next hc => simp [hc]
      · next hc => simp [hc]

/-- A part that the parser takes: a number that is at most 255 modulo 2^32. -/
def PartOk (r : Bytes) : Prop := DigitRun r ∧ decValue 0 r % 2 ^ 32 ≤ 255

/-- One turn of the loop over the parts, at a digit run. -/
theorem scanParts_append {r rest : Bytes} (hr : ∀ c ∈ r, IsDigitByte c)
    (hrest : ∀ c ∈ rest.head?, ¬ IsDigitByte c) (left : Nat) :
    scanParts (left + 1) (r ++ rest) =
      if r = [] ∨ 255 < decValue 0 r % 2 ^ 32 then none
      else if left = 0 then some ([partValue r], rest)
      else
        (skipDot rest).bind fun p =>
          (scanParts left p).map fun more => (partValue r :: more.1, more.2) := by
  have hrun : scanDigits 0 0 (r ++ rest) = (partValue r, 0 + r.length, rest) :=
    scanDigits_append hr hrest 0 0
  rw [scanParts]
  simp only [hrun, Nat.zero_add, List.length_eq_zero_iff, toNat_partValue]

/-- A part that is no number, or too large, ends the parse. -/
theorem partOk_of_scanParts {r rest : Bytes} (hr : ∀ c ∈ r, IsDigitByte c)
    (hrest : ∀ c ∈ rest.head?, ¬ IsDigitByte c) {left : Nat} {out : List (BitVec 32) × Bytes}
    (h : scanParts (left + 1) (r ++ rest) = some out) : PartOk r := by
  rw [scanParts_append hr hrest] at h
  split at h
  · cases h
  · next hpass =>
    rw [not_or, Nat.not_lt] at hpass
    exact ⟨⟨hpass.1, hr⟩, hpass.2⟩

/-- Behind a part that is taken the loop ends, or a dot goes before the next part. -/
theorem scanParts_of_partOk {r rest : Bytes} (hok : PartOk r) (hrest : ∀ c ∈ rest.head?, ¬ IsDigitByte c)
    (left : Nat) :
    scanParts (left + 1) (r ++ rest) =
      if left = 0 then some ([partValue r], rest)
      else
        (skipDot rest).bind fun p =>
          (scanParts left p).map fun more => (partValue r :: more.1, more.2) := by
  have hpass : ¬ (r = [] ∨ 255 < decValue 0 r % 2 ^ 32) := by
    rw [not_or, Nat.not_lt]
    exact ⟨hok.1.1, hok.2⟩
  rw [scanParts_append hok.1.2 hrest, if_neg hpass]

theorem intercalate_dot_append (r : Bytes) {runs : List Bytes} (hne : runs ≠ []) (rest : Bytes) :
    (ascii ".").intercalate (r :: runs) ++ rest = r ++ 46 :: ((ascii ".").intercalate runs ++ rest) := by
  have hdot : ascii "." = [46] := by decide
  rw [List.intercalate_cons_of_ne_nil hne, List.append_assoc, List.append_assoc, hdot]
  rfl

/-- The loop over the parts accepts so many numbers with dots between them, up to a byte that is no digit. -/
theorem scanParts_intercalate {rest : Bytes} (hrest : ∀ c ∈ rest.head?, ¬ IsDigitByte c)
    {runs : List Bytes} (hne : runs ≠ []) (hok : ∀ r ∈ runs, PartOk r) :
    scanParts runs.length ((ascii ".").intercalate runs ++ rest) = some (runs.map partValue, rest) := by
  induction runs with
  | nil => exact absurd rfl hne
  | cons r runs ih =>
      have hr := hok r List.mem_cons_self
      by_cases hlast : runs = []
      · subst hlast
        rw [List.intercalate_singleton]
        exact scanParts_of_partOk hr hrest 0
      · have hmore := ih hlast fun r' hr' => hok r' (List.mem_cons_of_mem r hr')
        have hdot : ∀ c ∈ (46 :: ((ascii ".").intercalate runs ++ rest)).head?, ¬ IsDigitByte c := by
          rintro c ⟨⟩
          decide
        rw [intercalate_dot_append r hlast, List.length_cons, scanParts_of_partOk hr hdot,
          if_neg (mt List.length_eq_zero_iff.1 hlast), skipDot_eq_some_iff.2 rfl, Option.bind_some, hmore]
        rfl

/-- It accepts nothing else. -/
theorem exists_runs_of_scanParts {left : Nat} {p : Bytes} {parts : List (BitVec 32)} {rest : Bytes}
    (h : scanParts (left + 1) p = some (parts, rest)) :
    ∃ runs : List Bytes, runs.length = left + 1 ∧ (∀ r ∈ runs, PartOk r) ∧
      p = (ascii ".").intercalate runs ++ rest ∧ parts = runs.map partValue := by
  induction left generalizing p parts rest with
  | zero =>
      obtain ⟨r, rest', rfl, hr, hrest⟩ := exists_digits p
      have hok := partOk_of_scanParts hr hrest h
      rw [scanParts_of_partOk hok hrest, if_pos rfl] at h
      cases h
      refine ⟨[r], rfl, ?_, ?_, rfl⟩
      · intro r' hr'
        cases List.mem_singleton.1 hr'
        exact hok
      · rw [List.intercalate_singleton]
  | succ left ih =>
      obtain ⟨r, rest', rfl, hr, hrest⟩ := exists_digits p
      have hok := partOk_of_scanParts hr hrest h
      rw [scanParts_of_partOk hok hrest, if_neg (Nat.succ_ne_zero left)] at h
      -- a dot, and the parts behind it
      obtain ⟨q, hq, hmap⟩ := Option.bind_eq_some_iff.1 h
      obtain ⟨⟨more, rest''⟩, hmore, hcons⟩ := Option.map_eq_some_iff.1 hmap
      cases hcons
      obtain ⟨runs, hlen, hall, rfl, rfl⟩ := ih hmore
      have hne : runs ≠ [] := List.ne_nil_of_length_eq_add_one hlen
      refine ⟨r :: runs, by rw [List.length_cons, hlen], ?_, ?_, rfl⟩
      · intro r' hr'
        rcases List.mem_cons.1 hr' with rfl | hr'
        · exact hok
        · exact hall r' hr'
      · rw [skipDot_eq_some_iff.1 hq, intercalate_dot_append r hne]

/-! ## The address -/

/-- Four parts of a byte each, put side by side. -/
theorem toNat_quadAddress {a b c d : BitVec 32} (ha : a.toNat ≤ 255) (hb : b.toNat ≤ 255)
    (hc : c.toNat ≤ 255) (hd : d.toNat ≤ 255) :
    (quadAddress [a, b, c, d]).toNat = a.toNat * 2 ^ 24 + b.toNat * 2 ^ 16 + c.toNat * 2 ^ 8 + d.toNat := by
  have hshift : ∀ {x : BitVec 32} (k : Nat), x.toNat ≤ 255 → k ≤ 24 → (x <<< k).toNat = x.toNat <<< k := by
    intro x k hx hk
    have hpow : 2 ^ k ≤ 2 ^ 24 := Nat.pow_le_pow_right (by decide) hk
    have hlt : x.toNat <<< k < 2 ^ 32 := by
      rw [Nat.shiftLeft_eq]
      calc x.toNat * 2 ^ k ≤ 255 * 2 ^ 24 := Nat.mul_le_mul hx hpow
        _ < 2 ^ 32 := by decide
    rw [BitVec.toNat_shiftLeft, Nat.mod_eq_of_lt hlt]
  have hcd : c.toNat <<< 8 + d.toNat < 2 ^ 16 := by
    rw [Nat.shiftLeft_eq]
    omega
  have hbcd : b.toNat <<< 16 + (c.toNat <<< 8 + d.toNat) < 2 ^ 24 := by
    rw [Nat.shiftLeft_eq]
    omega
  show (a <<< 24 ||| b <<< 16 ||| c <<< 8 ||| d).toNat = _
  rw [BitVec.or_assoc, BitVec.or_assoc]
  simp only [BitVec.toNat_or, hshift 24 ha (by decide), hshift 16 hb (by decide),
    hshift 8 hc (by decide)]
  rw [← Nat.shiftLeft_add_eq_or_of_lt (show d.toNat < 2 ^ 8 by omega),
    ← Nat.shiftLeft_add_eq_or_of_lt hcd, ← Nat.shiftLeft_add_eq_or_of_lt hbcd]
  simp only [Nat.shiftLeft_eq]
  omega

/-- **The accepted language**: four numbers with dots between them, each at most 255 modulo 2^32. -/
theorem parseDottedQuad_eq_some_iff {s : CStr} {out : BitVec 32} :
    parseDottedQuad s = some out ↔
      ∃ a b c d, Dotted s a b c d ∧ (∀ r ∈ [a, b, c, d], decValue 0 r % 2 ^ 32 ≤ 255) ∧
        out = quadAddress [partValue a, partValue b, partValue c, partValue d] := by
  constructor
  · intro h
    rw [parseDottedQuad] at h
    split at h
    · cases h
    · next parts p hscan =>
      split at h
      · next hp =>
        subst hp
        cases h
        obtain ⟨runs, hlen, hok, htext, rfl⟩ := exists_runs_of_scanParts hscan
        obtain ⟨a, b, c, d, rfl⟩ : ∃ a b c d, runs = [a, b, c, d] := by
          match runs, hlen with
          | [a, b, c, d], _ => exact ⟨a, b, c, d, rfl⟩
        rw [List.append_nil] at htext
        exact ⟨a, b, c, d, ⟨fun r hr => (hok r hr).1, htext⟩, fun r hr => (hok r hr).2, rfl⟩
      · cases h
  · rintro ⟨a, b, c, d, ⟨hruns, htext⟩, hsmall, rfl⟩
    have hend : ∀ c ∈ ([] : Bytes).head?, ¬ IsDigitByte c := by
      rintro c ⟨⟩
    have hscan : scanParts 4 s.bytes = some ([a, b, c, d].map partValue, []) := by
      have hread := scanParts_intercalate hend (List.cons_ne_nil a [b, c, d])
        fun r hr => ⟨hruns r hr, hsmall r hr⟩
      rwa [List.append_nil, ← htext] at hread
    rw [parseDottedQuad, hscan]
    rfl

/-- A text is written as dotted numbers in one way. -/
theorem Dotted.unique {s : CStr} {a b c d a' b' c' d' : Bytes} (h : Dotted s a b c d)
    (h' : Dotted s a' b' c' d') : [a, b, c, d] = [a', b', c', d'] := by
  have hdot : ascii "." = [46] := by decide
  have hfree : ∀ {runs : List Bytes}, (∀ r ∈ runs, DigitRun r) → ∀ r ∈ runs, (46 : UInt8) ∉ r := by
    intro runs hruns r hr hmem
    exact absurd ((hruns r hr).2 46 hmem) (by decide)
  have htext := h.text.symm.trans h'.text
  rw [hdot] at htext
  rw [← List.splitOn_intercalate 46 (hfree h.runs) (List.cons_ne_nil _ _), htext,
    List.splitOn_intercalate 46 (hfree h'.runs) (List.cons_ne_nil _ _)]

/-! ## Quads -/

/-- The address of four numbers that have not wrapped. -/
theorem toNat_quadAddress_parts {a b c d : Bytes} (h : ∀ r ∈ [a, b, c, d], decValue 0 r ≤ 255) :
    (quadAddress [partValue a, partValue b, partValue c, partValue d]).toNat =
      decValue 0 a * 2 ^ 24 + decValue 0 b * 2 ^ 16 + decValue 0 c * 2 ^ 8 + decValue 0 d := by
  have hpart : ∀ r ∈ [a, b, c, d], (partValue r).toNat = decValue 0 r := by
    intro r hr
    have hle := h r hr
    rw [toNat_partValue, Nat.mod_eq_of_lt (by omega)]
  have hle : ∀ r ∈ [a, b, c, d], (partValue r).toNat ≤ 255 := by
    intro r hr
    rw [hpart r hr]
    exact h r hr
  simp only [List.forall_mem_cons] at hpart hle
  obtain ⟨ha, hb, hc, hd, -⟩ := hpart
  rw [toNat_quadAddress hle.1 hle.2.1 hle.2.2.1 hle.2.2.2.1, ha, hb, hc, hd]

/-- A quad is accepted, with its address. -/
theorem Quad.parse {s : CStr} {out : BitVec 32} (h : Quad s out) : parseDottedQuad s = some out := by
  obtain ⟨a, b, c, d, hdotted, hsmall, hout⟩ := h
  apply parseDottedQuad_eq_some_iff.2
  refine ⟨a, b, c, d, hdotted, fun r hr => (Nat.mod_le _ _).trans (hsmall r hr), ?_⟩
  apply BitVec.eq_of_toNat_eq
  rw [hout, toNat_quadAddress_parts hsmall]

/-- What is accepted is a quad, or it wraps. -/
theorem quad_or_wraps {s : CStr} {out : BitVec 32} (h : parseDottedQuad s = some out) :
    Quad s out ∨ Wraps s := by
  obtain ⟨a, b, c, d, hdotted, hmod, rfl⟩ := parseDottedQuad_eq_some_iff.1 h
  by_cases hsmall : ∀ r ∈ [a, b, c, d], decValue 0 r ≤ 255
  · exact Or.inl ⟨a, b, c, d, hdotted, hsmall, toNat_quadAddress_parts hsmall⟩
  · right
    refine ⟨a, b, c, d, hdotted, hmod, ?_⟩
    by_contra hnone
    exact hsmall fun r hr => Nat.le_of_not_lt fun hlt => hnone ⟨r, hr, hlt⟩

/-- A text that wraps is accepted. -/
theorem Wraps.parse {s : CStr} (h : Wraps s) : ∃ out, parseDottedQuad s = some out := by
  obtain ⟨a, b, c, d, hdotted, hmod, -⟩ := h
  exact ⟨_, parseDottedQuad_eq_some_iff.2 ⟨a, b, c, d, hdotted, hmod, rfl⟩⟩

/-- It is no quad. -/
theorem Wraps.not_quad {s : CStr} (h : Wraps s) (out : BitVec 32) : ¬ Quad s out := by
  rintro ⟨a, b, c, d, hdotted, hsmall, -⟩
  obtain ⟨a', b', c', d', hdotted', -, r, hr, hlarge⟩ := h
  rw [hdotted'.unique hdotted] at hr
  exact Nat.not_lt.2 (hsmall r hr) hlarge

/-- Where nothing wraps the parser is exact. -/
theorem parsesQuads_of_not_wraps {s : CStr} (h : ¬ Wraps s) : ParsesQuads s := by
  have hquad : ∀ out, parseDottedQuad s = some out → Quad s out :=
    fun out hparse => (quad_or_wraps hparse).resolve_right h
  refine ⟨fun out => ⟨hquad out, Quad.parse⟩, ?_⟩
  intro hnone lookup
  cases hparse : parseDottedQuad s with
  | some out => exact absurd ⟨out, hquad out hparse⟩ hnone
  | none => rw [resolveHost, hparse]

theorem Wraps.not_parsesQuads {s : CStr} (h : Wraps s) : ¬ ParsesQuads s := by
  rintro ⟨hexact, -⟩
  obtain ⟨out, hparse⟩ := h.parse
  exact h.not_quad out ((hexact out).1 hparse)

/-- **When the parser is exact**: on every text but those in which a number wraps around to at most 255. -/
theorem parses_quads_iff (s : CStr) : ParsesQuads s ↔ ¬ Wraps s :=
  ⟨fun h hwraps => hwraps.not_parsesQuads h, parsesQuads_of_not_wraps⟩

/-- 2^32 in front of a quad of the local network. -/
def wrappedHost : CStr := .lit "4294967296.168.1.2"

theorem wraps_wrappedHost : Wraps wrappedHost := by
  refine ⟨ascii "4294967296", ascii "168", ascii "1", ascii "2", ⟨by decide, by decide⟩, by decide, ?_⟩
  exact ⟨ascii "4294967296", List.mem_cons_self, by decide⟩

/-- **A number wraps**: the host is taken for 0.168.1.2. -/
theorem wrappedHost_accepted : parseDottedQuad wrappedHost = some 0x00A80102 ∧ ¬ ParsesQuads wrappedHost :=
  ⟨by decide, wraps_wrappedHost.not_parsesQuads⟩

end Casquinha.Transport
