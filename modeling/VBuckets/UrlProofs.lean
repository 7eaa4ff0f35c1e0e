import VBuckets.RuneProofs
import Mathlib.Data.List.AList

/-! # Percent encoding, queries and URLs

    The parts of `net/url` the proxy relies on: `escape` and `unescape` in the
    encoding modes of a host, a path and a query component, `ParseQuery`,
    `Values.Encode`, `EscapedPath`, `URL.String` and `Parse`.  Validation of the host
    inside an authority is the one step taken as a parameter (`HostParser`). -/

namespace Url

open ByteString

/-! ## Escaping -/

/-- The encoding modes in use. -/
inductive Mode where
  | host | path | queryComponent | fragment
  deriving DecidableEq

def isAlnum (c : UInt8) : Bool := isLowerASCII c || isUpperASCII c || isDigitASCII c

/-- The punctuation a host may hold unescaped: `! $ & ' ( ) * + , ; = : [ ] < > "`. -/
def isHostPunct (c : UInt8) : Bool :=
  c == 33 || c == 36 || c == 38 || c == 39 || c == 40 || c == 41 || c == 42 || c == 43 ||
  c == 44 || c == 59 || c == 61 || c == 58 || c == 91 || c == 93 || c == 60 || c == 62 ||
  c == 34

/-- Which bytes a part of a URL does not hold as they are.  The answer depends on the part. -/
def shouldEscape (c : UInt8) (mode : Mode) : Bool :=
  if isAlnum c then false
  else if mode == .host && isHostPunct c then false
  -- the unreserved marks `- _ . ~`
  else if c == 45 || c == 95 || c == 46 || c == 126 then false
  -- the reserved characters `$ & + , / : ; = ? @`
  else if c == 36 || c == 38 || c == 43 || c == 44 || c == 47 || c == 58 || c == 59 ||
      c == 61 || c == 63 || c == 64 then
    match mode with
    | .path => c == 63
    | .queryComponent => true
    | .fragment => false
    | .host => true
  else if mode == .fragment && (c == 33 || c == 40 || c == 41 || c == 42) then false
  else true

/-- The digits of `%XX`. -/
def upperHex (n : UInt8) : UInt8 := if n < 10 then 48 + n else 55 + n

def isHex (c : UInt8) : Bool :=
  isDigitASCII c || (97 ≤ c && c ≤ 102) || (65 ≤ c && c ≤ 70)

def unhex (c : UInt8) : UInt8 :=
  if isDigitASCII c then c - 48
  else if 97 ≤ c && c ≤ 102 then c - 97 + 10
  else if 65 ≤ c && c ≤ 70 then c - 65 + 10
  else 0

def escapeByte (c : UInt8) : Bytes := [37, upperHex (c >>> 4), upperHex (c &&& 15)]

/-- Every other byte becomes `%XX`; in a query component a space becomes `+`. -/
def escape : Bytes → Mode → Bytes
  | [], _ => []
  | c :: s, mode =>
      if c == 32 && mode == .queryComponent then 43 :: escape s mode
      else if shouldEscape c mode then escapeByte c ++ escape s mode
      else c :: escape s mode

/-- Fails on a malformed `%` sequence and, in a host, on an escaped or misplaced ASCII byte.
    -/
def unescape : Bytes → Mode → Option Bytes
  | [], _ => some []
  | c :: s, mode =>
      if c == 37 then
        match s with
        | h :: l :: s =>
            if isHex h && isHex l &&
                !(mode == .host && unhex h < 8 && !(h == 50 && l == 53)) then
              (unescape s mode).map (((unhex h <<< 4) ||| unhex l) :: ·)
            else none
        | _ => none
      else if c == 43 && mode == .queryComponent then (unescape s mode).map (32 :: ·)
      else if mode == .host && c < 0x80 && shouldEscape c mode then none
      else (unescape s mode).map (c :: ·)

def queryEscape (s : Bytes) : Bytes := escape s .queryComponent

def queryUnescape (s : Bytes) : Option Bytes := unescape s .queryComponent

/-- `url.PathUnescape`; for decoding a path segment is read like a path. -/
def pathUnescape (s : Bytes) : Option Bytes := unescape s .path

/-! ## Queries -/

/-- The values of each parameter in their order.  The order of the parameters is not kept. -/
abbrev Values := AList (fun _ : Bytes => List Bytes)

/-- `v[key] = append(v[key], value)`. -/
def Values.add (v : Values) (key value : Bytes) : Values :=
  v.insert key ((v.lookup key).getD [] ++ [value])

/-- The first value, or the empty string. -/
def Values.get (v : Values) (key : Bytes) : Bytes :=
  (((v.lookup key).getD []).head?).getD []

/-- `v.Set`. -/
def Values.setOne (v : Values) (key value : Bytes) : Values := v.insert key [value]

/-- `parseQuery` over the pieces between `&`: a piece with a semicolon or a bad escape
    is skipped and recorded as an error. -/
def parsePieces : List Bytes → Values × Bool → Values × Bool
  | [], acc => acc
  | piece :: pieces, (v, ok) =>
      if piece.contains 59 then parsePieces pieces (v, false)
      else if piece = [] then parsePieces pieces (v, ok)
      else
        match queryUnescape (cut 61 piece).1 with
        | none => parsePieces pieces (v, false)
        | some key =>
            match queryUnescape (cut 61 piece).2.1 with
            | none => parsePieces pieces (v, false)
            | some value => parsePieces pieces (v.add key value, ok)

/-- The values read, and whether every piece was well formed.  A piece that is not well formed
    is left out and the others are still read. -/
def parseQuery (rawQuery : Bytes) : Values × Bool :=
  if rawQuery = [] then (∅, true) else parsePieces (split 38 rawQuery) (∅, true)

/-- Lexicographic order of byte strings. -/
def bytesLE : Bytes → Bytes → Bool
  | [], _ => true
  | _ :: _, [] => false
  | a :: s, b :: t => a < b || (a == b && bytesLE s t)

/-- The pairs of one key as `Values.Encode` writes them. -/
def encodePairs (key : Bytes) (values : List Bytes) : List Bytes :=
  values.map (fun value => queryEscape key ++ 61 :: queryEscape value)

/-- Keys in order, each pair escaped. -/
def Values.encode (v : Values) : Bytes :=
  join 38 ((v.keys.mergeSort bytesLE).flatMap
    (fun key => encodePairs key ((v.lookup key).getD [])))

/-! ## URLs -/

/-- `url.URL`; only the presence of user information matters here. -/
structure URL where
  scheme : Bytes := []
  opaquePart : Bytes := []
  hasUser : Bool := false
  host : Bytes := []
  path : Bytes := []
  rawPath : Bytes := []
  forceQuery : Bool := false
  rawQuery : Bytes := []
  fragment : Bytes := []

/-- Validation and decoding of the host inside an authority (`parseHost`), given the
    scheme.  Its one law: a host it accepted is read back from its own rendering. -/
structure HostParser where
  parseHost : (scheme host : Bytes) → Option Bytes
  reparse : ∀ {scheme raw host}, parseHost scheme raw = some host →
    parseHost scheme (escape host .host) = some host

/-- `getScheme`: a scheme, or none when the text starts otherwise; fails on a leading
    colon. -/
def getSchemeFrom (raw : Bytes) : Bytes → Bytes → Option (Bytes × Bytes)
  | _, [] => some ([], raw)
  | seen, c :: s =>
      if isLowerASCII c || isUpperASCII c then getSchemeFrom raw (seen ++ [c]) s
      else if isDigitASCII c || c == 43 || c == 45 || c == 46 then
        if seen = [] then some ([], raw) else getSchemeFrom raw (seen ++ [c]) s
      else if c == 58 then
        if seen = [] then none else some (seen, s)
      else some ([], raw)

def getScheme (raw : Bytes) : Option (Bytes × Bytes) := getSchemeFrom raw [] raw

/-- The text after the last occurrence of a byte, with the text before it. -/
def cutLast (sep : UInt8) (s : Bytes) : Option (Bytes × Bytes) :=
  match cut sep s.reverse with
  | (after, before, true) => some (before.reverse, after.reverse)
  | _ => none

/-- Empty, or a colon and digits. -/
def validOptionalPort (port : Bytes) : Bool :=
  match port with
  | [] => true
  | c :: digits => c == 58 && digits.all isDigitASCII

/-- `validUserinfo`. -/
def validUserinfo (s : Bytes) : Bool :=
  s.all (fun c => isAlnum c || c == 45 || c == 46 || c == 95 || c == 58 || c == 126 ||
    c == 33 || c == 36 || c == 38 || c == 39 || c == 40 || c == 41 || c == 42 || c == 43 ||
    c == 44 || c == 59 || c == 61 || c == 37 || c == 64)

/-- Whether there is user information, and the host. -/
def parseAuthority (hp : HostParser) (scheme authority : Bytes) : Option (Bool × Bytes) :=
  match cutLast 64 authority with
  | none => (hp.parseHost scheme authority).map (fun host => (false, host))
  | some (userinfo, rest) =>
      match hp.parseHost scheme rest with
      | none => none
      | some host => if validUserinfo userinfo then some (true, host) else none

/-- The decoded path, and the given spelling when it is not the default one. -/
def setPath (u : URL) (p : Bytes) : Option URL :=
  match unescape p .path with
  | none => none
  | some path =>
      some { u with path := path, rawPath := if escape path .path = p then [] else p }

/-- The unexported `parse`: a reference without its fragment, or with `viaRequest` a
    request target. -/
def parseNoFragment (hp : HostParser) (raw : Bytes) (viaRequest : Bool) : Option URL :=
  if raw.any (fun c => c < 0x20 || c == 0x7F) then none
  else if raw = [] && viaRequest then none
  else if raw = ascii "*" then some { path := ascii "*" }
  else
    match getScheme raw with
    | none => none
    | some (scheme, rest) =>
        let scheme := toLower scheme
        let force := hasSuffix rest (ascii "?") && rest.count 63 == 1
        let u : URL :=
          { scheme := scheme
            forceQuery := force
            rawQuery := if force then [] else (cut 63 rest).2.1 }
        let rest := (cut 63 rest).1
        if !hasPrefix rest (ascii "/") && scheme != [] then some { u with opaquePart := rest }
        else if !hasPrefix rest (ascii "/") && (viaRequest || (cut 47 rest).1.contains 58) then
          none
        else if (scheme != [] || !viaRequest && !hasPrefix rest (ascii "///")) &&
            hasPrefix rest (ascii "//") then
          let authority := (cut 47 (rest.drop 2)).1
          match parseAuthority hp scheme authority with
          | none => none
          | some (user, host) =>
              setPath { u with hasUser := user, host := host }
                ((rest.drop 2).drop authority.length)
        else setPath u rest

/-- The fragment is cut off at the first `#`, the rest is read without one. -/
def parse (hp : HostParser) (raw : Bytes) : Option URL :=
  match parseNoFragment hp (cut 35 raw).1 false with
  | none => none
  | some u =>
      if (cut 35 raw).2.1 = [] then some u
      else (unescape (cut 35 raw).2.1 .fragment).map (fun f => { u with fragment := f })

/-- `url.ParseRequestURI`. -/
def parseRequestURI (hp : HostParser) (raw : Bytes) : Option URL := parseNoFragment hp raw true

/-- Bytes `validEncoded` refuses in a path spelling. -/
def validEncodedPath (s : Bytes) : Bool :=
  s.all (fun c => c == 33 || c == 36 || c == 38 || c == 39 || c == 40 || c == 41 ||
    c == 42 || c == 43 || c == 44 || c == 59 || c == 61 || c == 58 || c == 64 ||
    c == 91 || c == 93 || c == 37 || !shouldEscape c .path)

/-- The spelling the URL was read with, if it is one of its path, and the default spelling
    otherwise. -/
def URL.escapedPath (u : URL) : Bytes :=
  if u.rawPath ≠ [] ∧ validEncodedPath u.rawPath = true ∧
      unescape u.rawPath .path = some u.path then u.rawPath
  else if u.path = ascii "*" then ascii "*"
  else escape u.path .path

/-- `RequestURI`. -/
def URL.requestURI (u : URL) : Bytes :=
  (if u.opaquePart = [] then
      if u.escapedPath = [] then ascii "/" else u.escapedPath
    else if hasPrefix u.opaquePart (ascii "//") then u.scheme ++ ascii ":" ++ u.opaquePart
    else u.opaquePart) ++
  (if u.forceQuery || u.rawQuery ≠ [] then 63 :: u.rawQuery else [])

/-- `URL.String` of a URL with a scheme and a host. -/
def URL.string (u : URL) : Bytes :=
  u.scheme ++ ascii "://" ++ escape u.host .host ++
    (if u.escapedPath ≠ [] ∧ u.escapedPath.head? ≠ some 47 then 47 :: u.escapedPath
      else u.escapedPath) ++
    (if u.forceQuery || u.rawQuery ≠ [] then 63 :: u.rawQuery else []) ++
    (if u.fragment ≠ [] then 35 :: escape u.fragment .fragment else [])

/-- `splitHostPort` of `net/url`: `Hostname` and `Port`. -/
def splitHostPort (hostPort : Bytes) : Bytes × Bytes :=
  let (host, port) :=
    match cutLast 58 hostPort with
    | some (host, port) =>
        if validOptionalPort (58 :: port) then (host, port) else (hostPort, [])
    | none => (hostPort, [])
  if hasPrefix host (ascii "[") && hasSuffix host (ascii "]") then
    ((host.drop 1).take (host.length - 2), port)
  else (host, port)

def URL.hostname (u : URL) : Bytes := (splitHostPort u.host).1

def URL.port (u : URL) : Bytes := (splitHostPort u.host).2

/-! ## The order of byte strings -/

theorem bytesLE_total (a b : Bytes) : (bytesLE a b || bytesLE b a) = true := by
  induction a generalizing b with
  | nil => cases b <;> rfl
  | cons c s ih =>
      cases b with
      | nil => rfl
      | cons d t =>
          have hrest := ih t
          simp only [bytesLE, Bool.or_eq_true, Bool.and_eq_true, decide_eq_true_eq,
            beq_iff_eq] at hrest ⊢
          by_cases heq : c = d
          · subst heq
            rcases hrest with h | h
            · exact Or.inl (Or.inr ⟨rfl, h⟩)
            · exact Or.inr (Or.inr ⟨rfl, h⟩)
          · rcases UInt8.lt_or_lt_of_ne heq with hlt | hgt
            · exact Or.inl (Or.inl hlt)
            · exact Or.inr (Or.inl hgt)

theorem bytesLE_trans (a b c : Bytes) (hab : bytesLE a b = true) (hbc : bytesLE b c = true) :
    bytesLE a c = true := by
  induction a generalizing b c with
  | nil => cases c <;> rfl
  | cons x s ih =>
      cases b with
      | nil => exact nomatch hab
      | cons y t =>
          cases c with
          | nil => exact nomatch hbc
          | cons z u =>
              simp only [bytesLE, Bool.or_eq_true, Bool.and_eq_true, decide_eq_true_eq,
                beq_iff_eq] at hab hbc ⊢
              rcases hab with hxy | ⟨rfl, hst⟩
              · rcases hbc with hyz | ⟨rfl, _⟩
                · exact Or.inl (UInt8.lt_trans hxy hyz)
                · exact Or.inl hxy
              · rcases hbc with hyz | ⟨rfl, htu⟩
                · exact Or.inl hyz
                · exact Or.inr ⟨rfl, ih t u hst htu⟩

theorem bytesLE_antisymm {a b : Bytes} (hab : bytesLE a b = true) (hba : bytesLE b a = true) :
    a = b := by
  induction a generalizing b with
  | nil =>
      cases b with
      | nil => rfl
      | cons d t => exact nomatch hba
  | cons c s ih =>
      cases b with
      | nil => exact nomatch hab
      | cons d t =>
          simp only [bytesLE, Bool.or_eq_true, Bool.and_eq_true, decide_eq_true_eq,
            beq_iff_eq] at hab hba
          rcases hab with hlt | ⟨rfl, hst⟩
          · rcases hba with hgt | ⟨rfl, _⟩
            · exact absurd (UInt8.lt_trans hlt hgt) (UInt8.lt_irrefl c)
            · exact absurd hlt (UInt8.lt_irrefl _)
          · rcases hba with hgt | ⟨_, hts⟩
            · exact absurd hgt (UInt8.lt_irrefl c)
            · rw [ih hst hts]

theorem bytesLT_trans {a b c : Bytes} (hab : bytesLE b a = false) (hbc : bytesLE c b = false) :
    bytesLE c a = false := by
  have htotal := bytesLE_total a b
  rw [hab, Bool.or_false] at htotal
  rw [Bool.eq_false_iff]
  intro hca
  exact nomatch hbc.symm.trans (bytesLE_trans c a b hca htotal)

end Url
