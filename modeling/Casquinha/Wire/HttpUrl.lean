import Casquinha.Wire.Codec
import Casquinha.Wire.Pls

/-!
# The URL of the stream (`ParseHttpUrl`)

The URL that the playlist offers is taken apart by a second parser, on the way into `StartStream`. The two
agree on everything behind the scheme. The playlist accepts the scheme in any case, the parser in lower
case only, so of the streams a playlist offers exactly those with a lower-case scheme are opened
(`plsTarget_iff`).
-/

set_option autoImplicit false

namespace Casquinha.Wire

open Lib

/-! ## The parser -/

/-- `atoi`, as far as an `int` holds the value. -/
def atoi (s : Bytes) : Int :=
  match s.dropWhile isSpaceByte with
  | [] => 0
  | c :: rest =>
      if c = 45 then -(decValue 0 (rest.takeWhile fun d => decide (IsDigitByte d)) : Int)
      else if c = 43 then decValue 0 (rest.takeWhile fun d => decide (IsDigitByte d))
      else decValue 0 ((c :: rest).takeWhile fun d => decide (IsDigitByte d))

/-- `ParseHttpUrl`: the host, the port and the path. -/
def parseHttpUrl (url : CStr) (hcap pcap : Nat) : Option (CStr × Int × CStr) :=
  if (ascii "http://").isPrefixOf url.bytes then
    let p := url.bytes.drop 7
    -- `strchr(p, '/')`
    if (47 : UInt8) ∈ p then
      let slash := p.idxOf 47
      let colon := p.idxOf 58
      -- `colon && colon < slash`
      let hasPort := (58 : UInt8) ∈ p ∧ colon < slash
      let port := if hasPort then atoi (p.drop (colon + 1)) else 80
      let hn := if hasPort then colon else slash
      let pn := (p.drop slash).length
      if hn = 0 ∨ hcap ≤ hn ∨ pcap ≤ pn then none
      else if port ≤ 0 ∨ 65536 ≤ port then none
      else some (cstr (p.take hn), port, cstr (p.drop slash))
    else none
  else none

/-- The stream that `StartStream` opens for the text of a playlist: `host[64]`, `path[160]`. -/
def plsTarget (longMax : Nat) (body : CStr) : Option (CStr × Int × CStr) :=
  (cqPlsFirstUrl longMax body).bind fun url => parseHttpUrl (cstr url) 64 160

/-! ## URLs -/

/-- A host: not empty, within `host[64]`, and ended by a colon or a slash. -/
structure HostText (host : CStr) : Prop where
  nonempty : host.bytes ≠ []
  short : host.length ≤ 63
  noColon : (58 : UInt8) ∉ host.bytes
  noSlash : (47 : UInt8) ∉ host.bytes

/-- No port, which stands for 80, or a colon and the digits of a port. -/
inductive PortText : Bytes → Int → Prop
  | absent : PortText [] 80
  | digits {digits : Bytes} (nonempty : digits ≠ []) (all : ∀ c ∈ digits, IsDigitByte c)
      (pos : 1 ≤ decValue 0 digits) (le : decValue 0 digits ≤ 65535) :
      PortText (58 :: digits) (decValue 0 digits)

/-- A path within `path[160]`. -/
structure PathText (path : CStr) : Prop where
  slash : ∃ rest, path.bytes = 47 :: rest
  short : path.length ≤ 159

theorem isSpaceByte_of_digit {c : UInt8} (h : IsDigitByte c) : isSpaceByte c = false := by
  have low : 48 ≤ c.toNat := h.1
  have ne : ∀ d : UInt8, d.toNat < 48 → c ≠ d := by
    rintro d hd rfl
    omega
  simp [isSpaceByte, ne 32 (by decide), ne 9 (by decide), ne 10 (by decide), ne 13 (by decide),
    ne 11 (by decide), ne 12 (by decide)]

/-- Digits are read up to the first byte that is none. -/
theorem atoi_digits {digits : Bytes} (hne : digits ≠ []) (hdigits : ∀ c ∈ digits, IsDigitByte c)
    {rest : Bytes} (hrest : ∀ c, rest.head? = some c → ¬ IsDigitByte c) :
    atoi (digits ++ rest) = decValue 0 digits := by
  have read : (digits ++ rest).takeWhile (fun c => decide (IsDigitByte c)) = digits := by
    rw [List.takeWhile_append_of_pos (by simpa using hdigits)]
    cases rest with
    | nil => rw [List.takeWhile_nil, List.append_nil]
    | cons c rest => rw [List.takeWhile_cons_of_neg (by simpa using hrest c rfl), List.append_nil]
  obtain ⟨c, more, rfl⟩ := List.exists_cons_of_ne_nil hne
  have hc := hdigits c List.mem_cons_self
  have low : 48 ≤ c.toNat := hc.1
  have noMinus : c ≠ 45 := by
    rintro rfl
    exact absurd low (by decide)
  have noPlus : c ≠ 43 := by
    rintro rfl
    exact absurd low (by decide)
  rw [List.cons_append] at read ⊢
  rw [atoi, List.dropWhile_cons_of_neg (by simp [isSpaceByte_of_digit hc])]
  simp only [if_neg noMinus, if_neg noPlus, read]

/-- The first place of a byte behind a text without it. -/
theorem idxOf_behind {c : UInt8} {s : Bytes} (h : c ∉ s) (rest : Bytes) :
    (s ++ c :: rest).idxOf c = s.length := by
  rw [List.idxOf_append_of_notMem h, List.idxOf_cons_self, Nat.add_zero]

section Pieces

variable {url host path : CStr}

theorem isPrefixOf_of_scheme {p : Bytes} (hurl : url.bytes = ascii "http://" ++ p) :
    (ascii "http://").isPrefixOf url.bytes = true := by
  rw [List.isPrefixOf_iff_prefix, hurl]
  exact List.prefix_append _ _

theorem drop_of_scheme {p : Bytes} (hurl : url.bytes = ascii "http://" ++ p) :
    url.bytes.drop 7 = p := by
  have seven : (ascii "http://").length = 7 := by decide
  rw [hurl, ← seven, List.drop_left]

/-- The host and the path fit. -/
theorem fits_of_texts (hhost : HostText host) (hpath : PathText path) :
    ¬ (host.bytes.length = 0 ∨ 64 ≤ host.bytes.length ∨ 160 ≤ path.bytes.length) := by
  have hostPos : host.bytes.length ≠ 0 := by
    intro h
    exact hhost.nonempty (List.eq_nil_of_length_eq_zero h)
  have hostShort : host.bytes.length ≤ 63 := hhost.short
  have pathShort : path.bytes.length ≤ 159 := hpath.short
  omega

/-- Without a port. -/
theorem parseHttpUrl_of_host (hurl : url.bytes = ascii "http://" ++ (host.bytes ++ path.bytes))
    (hhost : HostText host) (hpath : PathText path) :
    parseHttpUrl url 64 160 = some (host, 80, path) := by
  obtain ⟨rest, hrest⟩ := hpath.slash
  have slashThere : (47 : UInt8) ∈ host.bytes ++ path.bytes := by simp [hrest]
  have slashAt : (host.bytes ++ path.bytes).idxOf 47 = host.bytes.length := by
    rw [hrest]
    exact idxOf_behind hhost.noSlash rest
  have noPort : ¬ ((58 : UInt8) ∈ host.bytes ++ path.bytes ∧
      (host.bytes ++ path.bytes).idxOf 58 < host.bytes.length) := by
    rintro ⟨-, hlt⟩
    rw [List.idxOf_append_of_notMem hhost.noColon] at hlt
    omega
  have inRange : ¬ ((80 : Int) ≤ 0 ∨ (65536 : Int) ≤ 80) := by omega
  rw [parseHttpUrl, if_pos (isPrefixOf_of_scheme hurl)]
  simp only [drop_of_scheme hurl, if_pos slashThere, slashAt, if_neg noPort, List.drop_left,
    if_neg (fits_of_texts hhost hpath), if_neg inRange, List.take_left, cstr_bytes]

/-- With a port. -/
theorem parseHttpUrl_of_port {digits : Bytes}
    (hurl : url.bytes = ascii "http://" ++ (host.bytes ++ 58 :: (digits ++ path.bytes)))
    (hhost : HostText host) (hpath : PathText path) (nonempty : digits ≠ [])
    (all : ∀ c ∈ digits, IsDigitByte c) (pos : 1 ≤ decValue 0 digits)
    (le : decValue 0 digits ≤ 65535) :
    parseHttpUrl url 64 160 = some (host, (decValue 0 digits : Int), path) := by
  obtain ⟨rest, hrest⟩ := hpath.slash
  have slashThere : (47 : UInt8) ∈ host.bytes ++ 58 :: (digits ++ path.bytes) := by simp [hrest]
  have shape : host.bytes ++ 58 :: (digits ++ path.bytes) =
      host.bytes ++ 58 :: digits ++ path.bytes := by
    rw [List.append_assoc, List.cons_append]
  have noSlash : (47 : UInt8) ∉ host.bytes ++ 58 :: digits := by
    intro h
    rcases List.mem_append.1 h with h | h
    · exact hhost.noSlash h
    · rcases List.mem_cons.1 h with h | h
      · cases h
      · exact absurd (all 47 h) (by decide)
  have slashAt : (host.bytes ++ 58 :: (digits ++ path.bytes)).idxOf 47 =
      (host.bytes ++ 58 :: digits).length := by
    rw [shape, hrest]
    exact idxOf_behind noSlash rest
  have pathAt : (host.bytes ++ 58 :: (digits ++ path.bytes)).drop
      (host.bytes ++ 58 :: digits).length = path.bytes := by
    rw [shape, List.drop_left]
  have colonAt := idxOf_behind hhost.noColon (digits ++ path.bytes)
  have hasPort : (58 : UInt8) ∈ host.bytes ++ 58 :: (digits ++ path.bytes) ∧
      host.bytes.length < (host.bytes ++ 58 :: digits).length := by
    refine ⟨by simp, ?_⟩
    rw [List.length_append, List.length_cons]
    omega
  have number : atoi ((host.bytes ++ 58 :: (digits ++ path.bytes)).drop (host.bytes.length + 1)) =
      decValue 0 digits := by
    have split : host.bytes ++ 58 :: (digits ++ path.bytes) =
        host.bytes ++ [58] ++ (digits ++ path.bytes) := List.append_cons _ _ _
    have behindColon : host.bytes.length + 1 = (host.bytes ++ [58]).length := by simp
    rw [split, behindColon, List.drop_left, hrest]
    refine atoi_digits nonempty all fun c hc => ?_
    cases hc
    decide
  have inRange : ¬ ((decValue 0 digits : Int) ≤ 0 ∨ (65536 : Int) ≤ decValue 0 digits) := by omega
  rw [parseHttpUrl, if_pos (isPrefixOf_of_scheme hurl)]
  simp only [drop_of_scheme hurl, if_pos slashThere, slashAt, pathAt, colonAt, if_pos hasPort, number,
    if_neg (fits_of_texts hhost hpath), if_neg inRange, List.take_left, cstr_bytes]

/-- **The parser takes a URL apart** at its first slash and its colon in front of it. -/
theorem parseHttpUrl_of_lower {portText : Bytes} {port : Int}
    (hurl : url.bytes = ascii "http://" ++ host.bytes ++ portText ++ path.bytes)
    (hhost : HostText host) (hport : PortText portText port) (hpath : PathText path) :
    parseHttpUrl url 64 160 = some (host, port, path) := by
  cases hport with
  | absent =>
      apply parseHttpUrl_of_host _ hhost hpath
      rw [hurl, List.append_nil, List.append_assoc]
  | digits nonempty all pos le =>
      apply parseHttpUrl_of_port _ hhost hpath nonempty all pos le
      rw [hurl, List.append_assoc, List.append_assoc, List.cons_append]

end Pieces

/-! ## What is opened -/

theorem zero_notMem_of_lc {scheme : Bytes} (h : scheme.map lc = ascii "http://") :
    (0 : UInt8) ∉ scheme := by
  intro h0
  have : lc 0 ∈ ascii "http://" := h ▸ List.mem_map_of_mem h0
  exact absurd this (by decide)

theorem PortText.zero_notMem {portText : Bytes} {port : Int} (h : PortText portText port) :
    (0 : UInt8) ∉ portText := by
  cases h with
  | absent => simp
  | digits _ all _ _ =>
      intro h
      rcases List.mem_cons.1 h with h | h
      · cases h
      · exact absurd (all 0 h) (by decide)

/-- A scheme in another case is refused. -/
theorem parseHttpUrl_of_not_lower {url : CStr} {scheme rest : Bytes} {hcap pcap : Nat}
    (hurl : url.bytes = scheme ++ rest) (hscheme : scheme.map lc = ascii "http://")
    (hcase : scheme ≠ ascii "http://") : parseHttpUrl url hcap pcap = none := by
  have length_eq : scheme.length = (ascii "http://").length := by
    have := congrArg List.length hscheme
    rw [List.length_map] at this
    exact this
  have refused : ¬ (ascii "http://").isPrefixOf url.bytes = true := by
    rw [List.isPrefixOf_iff_prefix, hurl, List.prefix_iff_eq_take, ← length_eq, List.take_left]
    exact fun h => hcase h.symm
  rw [parseHttpUrl, if_neg refused]

/-- **The parser opens what the playlist offers if and only if the scheme is in lower case.** -/
theorem plsTarget_iff (longMax : Nat) (body : CStr) {scheme portText : Bytes} {host path : CStr}
    {port : Int}
    (hoffer : cqPlsFirstUrl longMax body =
      some (scheme ++ host.bytes ++ portText ++ path.bytes))
    (hscheme : scheme.map lc = ascii "http://") (hhost : HostText host)
    (hport : PortText portText port) (hpath : PathText path) :
    plsTarget longMax body = some (host, port, path) ↔ scheme = ascii "http://" := by
  have nulFree : (0 : UInt8) ∉ scheme ++ host.bytes ++ portText ++ path.bytes := by
    simp only [List.mem_append, not_or]
    exact ⟨⟨⟨zero_notMem_of_lc hscheme, host.nulFree⟩, hport.zero_notMem⟩, path.nulFree⟩
  have text := cstr_bytes_of_nulFree nulFree
  rw [plsTarget, hoffer, Option.bind_some]
  constructor
  · intro h
    by_contra hcase
    rw [List.append_assoc, List.append_assoc] at text
    rw [List.append_assoc, List.append_assoc, parseHttpUrl_of_not_lower text hscheme hcase] at h
    cases h
  · rintro rfl
    exact parseHttpUrl_of_lower text hhost hport hpath

theorem hostText_sample : HostText (.lit "192.0.2.30") :=
  ⟨by decide, by decide, by decide, by decide⟩

theorem portText_sample : PortText (ascii ":8000") 8000 :=
  @PortText.digits (ascii "8000") (by decide) (List.all_iff_forall_prop.1 (by decide)) (by decide)
    (by decide)

theorem pathText_sample : PathText (.lit "/spotify.mp3") :=
  ⟨⟨ascii "spotify.mp3", by decide⟩, by decide⟩

/-- A playlist with its URL in lower case. -/
theorem plsTarget_iff_sample :
    plsTarget 2147483647 (.lit "[playlist]\nFile1=http://192.0.2.30:8000/spotify.mp3\n") =
      some (.lit "192.0.2.30", 8000, .lit "/spotify.mp3") := by
  have offer : cqPlsFirstUrl 2147483647
      (.lit "[playlist]\nFile1=http://192.0.2.30:8000/spotify.mp3\n") =
        some (ascii "http://" ++ (CStr.lit "192.0.2.30").bytes ++ ascii ":8000" ++
          (CStr.lit "/spotify.mp3").bytes) := by
    rw [cqPlsFirstUrl_eq]
    decide +kernel
  exact (plsTarget_iff 2147483647 _ offer (by decide) hostText_sample portText_sample
    pathText_sample).2 rfl

/-- **A scheme in capitals.** The playlist offers the URL, and no stream is opened. -/
theorem upper_case_scheme_refused :
    cqPlsFirstUrl 2147483647 (.lit "File1=HTTP://192.0.2.30:8000/spotify.mp3\n") =
        some (ascii "HTTP://" ++ (CStr.lit "192.0.2.30").bytes ++ ascii ":8000" ++
          (CStr.lit "/spotify.mp3").bytes) ∧
      plsTarget 2147483647 (.lit "File1=HTTP://192.0.2.30:8000/spotify.mp3\n") = none := by
  have offer : cqPlsFirstUrl 2147483647 (.lit "File1=HTTP://192.0.2.30:8000/spotify.mp3\n") =
      some (ascii "HTTP://192.0.2.30:8000/spotify.mp3") := by
    rw [cqPlsFirstUrl_eq]
    decide +kernel
  refine ⟨offer.trans (by decide +kernel), ?_⟩
  rw [plsTarget, offer]
  decide +kernel

end Casquinha.Wire
