import VBuckets.RuneProofs
import Mathlib.Data.List.AList

/-! # Base domains and host names

    `normalizeBaseDomain` (`controlplane/watch.go`), the registry of base domains and
    the suffix probe of `LookupBaseHost` (`controlplane/lookup.go`).  The public-suffix
    list is a third-party table; the code only asks it whether a domain has an
    effective top-level domain plus one label, which is the parameter `hasETLDPlusOne`. -/

namespace Domain

open ByteString

/-! ## IP addresses -/

/-- The value of a string of decimal digits. -/
def decimal (s : Bytes) : Nat :=
  s.foldl (fun n c => 10 * n + (c.toNat - 48)) 0

/-- One field of a dotted address: one to three digits, no leading zero, at most 255. -/
def validOctet (s : Bytes) : Bool :=
  s ≠ [] && s.all isDigitASCII && (s.length == 1 || s.head? != some 48) &&
    s.length ≤ 3 && decimal s ≤ 255

/-- Four octets in decimal, without leading zeros. -/
def isIPv4 (s : Bytes) : Bool :=
  (split 46 s).length == 4 && (split 46 s).all validOctet

/-- A digit of a group, in either case. -/
def isHexDigit (c : UInt8) : Bool :=
  isDigitASCII c || (97 ≤ c && c ≤ 102) || (65 ≤ c && c ≤ 70)

/-- The group loop of `netip.parseIPv6`: `groups` 16-bit groups have been read, and
    `ellipsis` says whether the gap has been.  The fuel is the number of groups that
    still fit. -/
def ipv6Groups : Nat → Nat → Bool → Bytes → Bool
  | 0, _, ellipsis, s => s = [] && !ellipsis
  | fuel + 1, groups, ellipsis, s =>
      let digits := s.takeWhile isHexDigit
      let rest := s.dropWhile isHexDigit
      if digits = [] || 4 < digits.length then false
      else if rest.head? = some 46 then
        (ellipsis || groups == 6) && groups ≤ 6 && isIPv4 s &&
          (if groups + 2 < 8 then ellipsis else !ellipsis)
      else
        match rest with
        | [] => if groups + 1 < 8 then ellipsis else !ellipsis
        | c :: rest =>
            if c != 58 || rest = [] then false
            else if rest.head? = some 58 then
              if ellipsis then false
              else if rest = [58] then groups + 1 < 8
              else ipv6Groups fuel (groups + 1) true (rest.drop 1)
            else ipv6Groups fuel (groups + 1) ellipsis rest

/-- Groups of hexadecimal digits, perhaps with one gap. -/
def isIPv6 (s : Bytes) : Bool :=
  if hasPrefix s (ascii "::") then
    s.length == 2 || ipv6Groups 8 0 true (s.drop 2)
  else ipv6Groups 8 0 false s

/-- `net.ParseIP(s) != nil`: the first of `.`, `:` and `%` decides which parser is
    used.  An address with a zone is not accepted. -/
def parseIP (s : Bytes) : Bool :=
  match s.find? (fun c => c == 46 || c == 58 || c == 37) with
  | some c =>
      if c == 46 then isIPv4 s else if c == 58 then !s.contains 37 && isIPv6 s else false
  | none => false

/-! ## Labels and domains -/

/-- A character `normalizeBaseDomain` and `LookupBaseHost` accept in a label. -/
def isLabelByte (c : UInt8) : Bool := isLowerASCII c || isDigitASCII c || c == 45

/-- A DNS label as both functions check it: letters in lower case, digits and hyphens,
    no hyphen at either end, at most 63 bytes. -/
def validLabel (label : Bytes) : Bool :=
  label ≠ [] && label.length ≤ 63 && label.head? != some 45 &&
    label.getLast? != some 45 && label.all isLabelByte

/-- Why a domain is not accepted. -/
inductive DomainError where
  | invalid
  | publicSuffix
  deriving DecidableEq

/-- The normal form registered domains and request hosts are compared in: lower case,
    without surrounding space and without one trailing dot. -/
def canonicalHost (value : Bytes) : Bytes :=
  toLower (trimSuffix (trimSpace value) (ascii "."))

/-- A base domain is a host name with at least one label more than a public suffix.
    The list of those is a parameter. -/
def normalizeBaseDomain (hasETLDPlusOne : Bytes → Bool) (value : Bytes) :
    Except DomainError Bytes :=
  let domain := canonicalHost value
  if domain = [] || 253 < domain.length || contains domain (ascii ":") ||
      contains domain (ascii "*") || hasPrefix domain (ascii ".") ||
      hasSuffix domain (ascii ".") || contains domain (ascii "..") || parseIP domain then
    .error .invalid
  else if !(split 46 domain).all validLabel then .error .invalid
  else if !hasETLDPlusOne domain then .error .publicSuffix
  else .ok domain

/-! ## The registry -/

/-- `baseHosts`: each registered domain with the revision that registered it. -/
abbrev Registry := AList (fun _ : Bytes => Nat)

/-- The loop of `LookupBaseHost`: the whole name first, then without its first label,
    and so on.  The first registered suffix is therefore the longest. -/
def longestSuffix (registered : Bytes → Bool) : List Bytes → Option Bytes
  | [] => none
  | label :: labels =>
      if registered (join 46 (label :: labels)) then some (join 46 (label :: labels))
      else longestSuffix registered labels

/-- Why a host is not looked up. -/
inductive HostError where
  | unsynchronized
  | invalidArgument
  deriving DecidableEq

/-- `LookupBaseHost` once the client is known to be ready.  An address has no base
    domain; a name that is no host name is an error. -/
def lookupBaseHost (registered : Bytes → Bool) (hostname : Bytes) :
    Except HostError (Option Bytes) :=
  let host := canonicalHost hostname
  if parseIP host then .ok none
  else if host.length = 0 || 253 < host.length then .error .invalidArgument
  else if !(split 46 host).all validLabel then .error .invalidArgument
  else .ok (longestSuffix registered (split 46 host))

end Domain
