import VBuckets.RuneProofs
import Mathlib.Data.List.AList

/-! # HTTP headers

    `http.Header` with the canonical spelling its methods impose on names.  The
    iteration order of a map is the order of its entries.

    For field names that are tokens, which is what a server accepts from the wire, case
    folding, lowering and the canonical spelling all identify the same names. -/

namespace Http

open ByteString

/-! ## Names -/

/-- `validHeaderFieldByte`: letters, digits and ``! # $ % & ' * + - . ^ _ ` | ~``. -/
def isTokenByte (c : UInt8) : Bool :=
  isLowerASCII c || isUpperASCII c || isDigitASCII c || c == 33 || c == 35 || c == 36 ||
  c == 37 || c == 38 || c == 39 || c == 42 || c == 43 || c == 45 || c == 46 || c == 94 ||
  c == 95 || c == 96 || c == 124 || c == 126

/-- `httpguts.ValidHeaderFieldName`. -/
def isToken (name : Bytes) : Bool := name ≠ [] && name.all isTokenByte

/-- Upper case at the start and after a hyphen, lower case elsewhere. -/
def canonicalFrom : Bool → Bytes → Bytes
  | _, [] => []
  | upper, c :: s => (if upper then upperASCII c else lowerASCII c) :: canonicalFrom (c == 45) s

/-- `CanonicalHeaderKey`; a name with any other byte stays as it is. -/
def canonicalHeaderKey (name : Bytes) : Bytes :=
  if name.all isTokenByte then canonicalFrom true name else name

/-! ## Headers -/

/-- Values by canonical name.  No order of the names is modelled, and Go has none. -/
abbrev Header := AList (fun _ : Bytes => List Bytes)

namespace Header

/-- What the map holds under the canonical name.  A name in another spelling is not found. -/
def values (h : Header) (key : Bytes) : List Bytes :=
  (h.lookup (canonicalHeaderKey key)).getD []

/-- `Add`. -/
def add (h : Header) (key value : Bytes) : Header :=
  h.insert (canonicalHeaderKey key) (h.values key ++ [value])

/-- `Set`. -/
def setOne (h : Header) (key value : Bytes) : Header := h.insert (canonicalHeaderKey key) [value]

/-- `Del`. -/
def del (h : Header) (key : Bytes) : Header := h.erase (canonicalHeaderKey key)

/-- The values under a name as it is spelled. -/
def at_ (h : Header) (name : Bytes) : List Bytes := (h.lookup name).getD []

/-- Every name is a token in its canonical spelling, as a server delivers them. -/
def Canonical (h : Header) : Prop :=
  ∀ name ∈ h, isToken name = true ∧ canonicalHeaderKey name = name

end Header

/-! ## Names up to case -/

theorem lowerASCII_upperASCII (c : UInt8) : lowerASCII (upperASCII c) = lowerASCII c :=
  forall_byte (P := fun c => lowerASCII (upperASCII c) = lowerASCII c) (by decide +kernel) c

theorem upperASCII_lowerASCII (c : UInt8) : upperASCII (lowerASCII c) = upperASCII c :=
  forall_byte (P := fun c => upperASCII (lowerASCII c) = upperASCII c) (by decide +kernel) c

/-- Hyphens, after which a canonical name has a capital, are not letters. -/
theorem lowerASCII_eq_hyphen (c : UInt8) : (lowerASCII c == 45) = (c == 45) :=
  forall_byte (P := fun c => (lowerASCII c == 45) = (c == 45)) (by decide +kernel) c

theorem isTokenByte_lowerASCII (c : UInt8) : isTokenByte (lowerASCII c) = isTokenByte c :=
  forall_byte (P := fun c => isTokenByte (lowerASCII c) = isTokenByte c) (by decide +kernel) c

/-- Token bytes are ASCII, so lowering a name never meets a longer rune. -/
theorem ascii_of_isTokenByte (c : UInt8) (h : isTokenByte c = true) : c < 0x80 :=
  forall_byte (P := fun c => isTokenByte c = true → c < 0x80) (by decide +kernel) c h

theorem foldKey_cons {c : UInt8} (h : c < 0x80) (s : Bytes) :
    foldKey (c :: s) = lowerASCII c :: foldKey s := by
  rw [foldKey.eq_4]
  · rintro _ rfl _
    exact absurd h (by decide)
  · rintro _ rfl _
    exact absurd h (by decide)

section
variable {name : Bytes}

theorem isToken_all (h : isToken name = true) : name.all isTokenByte = true := by
  simp only [isToken, Bool.and_eq_true] at h
  exact h.2

/-- On token bytes `strings.ToLower` lowers byte by byte. -/
theorem toLower_of_all (h : name.all isTokenByte = true) :
    toLower name = name.map lowerASCII := by
  induction name with
  | nil => rfl
  | cons c s ih =>
      rw [List.all_cons, Bool.and_eq_true] at h
      rw [toLower_cons (ascii_of_isTokenByte c h.1), ih h.2]
      rfl

/-- So does folding: the two ways in which names are compared agree on tokens. -/
theorem foldKey_of_all (h : name.all isTokenByte = true) :
    foldKey name = name.map lowerASCII := by
  induction name with
  | nil => rfl
  | cons c s ih =>
      rw [List.all_cons, Bool.and_eq_true] at h
      rw [foldKey_cons (ascii_of_isTokenByte c h.1), ih h.2]
      rfl

/-- The canonical spelling depends on the lower-case one only. -/
theorem canonicalFrom_lower (upper : Bool) (s : Bytes) :
    canonicalFrom upper (s.map lowerASCII) = canonicalFrom upper s := by
  induction s generalizing upper with
  | nil => rfl
  | cons c s ih =>
      cases upper with
      | true => simp [canonicalFrom, ih, upperASCII_lowerASCII, lowerASCII_eq_hyphen]
      | false => simp [canonicalFrom, ih, lowerASCII_lowerASCII, lowerASCII_eq_hyphen]

/-- Canonicalization changes letter case only. -/
theorem lower_canonicalFrom (upper : Bool) (s : Bytes) :
    (canonicalFrom upper s).map lowerASCII = s.map lowerASCII := by
  induction s generalizing upper with
  | nil => rfl
  | cons c s ih =>
      cases upper with
      | true => simp [canonicalFrom, ih, lowerASCII_upperASCII]
      | false => simp [canonicalFrom, ih, lowerASCII_lowerASCII]

/-- Names that differ in letter case are tokens together. -/
theorem all_of_lower {a b : Bytes} (h : a.map lowerASCII = b.map lowerASCII)
    (ha : a.all isTokenByte = true) : b.all isTokenByte = true := by
  have hlow : ∀ s : Bytes, (s.map lowerASCII).all isTokenByte = s.all isTokenByte := by
    intro s
    rw [List.all_map]
    exact congrArg s.all (funext isTokenByte_lowerASCII)
  rw [← hlow, ← h, hlow, ha]

/-- Also where the name is no token and is left alone. -/
theorem lower_canonicalHeaderKey (name : Bytes) :
    (canonicalHeaderKey name).map lowerASCII = name.map lowerASCII := by
  rw [canonicalHeaderKey]
  split
  · exact lower_canonicalFrom true name
  · rfl

/-- Names of one lower-case spelling have one canonical spelling. -/
theorem canonicalHeaderKey_congr {a b : Bytes} (h : a.map lowerASCII = b.map lowerASCII)
    (ha : a.all isTokenByte = true) : canonicalHeaderKey a = canonicalHeaderKey b := by
  rw [canonicalHeaderKey, canonicalHeaderKey, if_pos ha, if_pos (all_of_lower h ha),
    ← canonicalFrom_lower true a, h, canonicalFrom_lower]

theorem canonicalHeaderKey_idem (name : Bytes) :
    canonicalHeaderKey (canonicalHeaderKey name) = canonicalHeaderKey name := by
  by_cases h : name.all isTokenByte = true
  · exact (canonicalHeaderKey_congr (lower_canonicalHeaderKey name).symm h).symm
  · have hname : canonicalHeaderKey name = name := if_neg h
    rw [hname, hname]

/-- A name and its canonical form are lowered to the same text, so they are signed
    alike. -/
theorem toLower_canonicalHeaderKey (name : Bytes) :
    toLower (canonicalHeaderKey name) = toLower name := by
  by_cases h : name.all isTokenByte = true
  · have hc : (canonicalHeaderKey name).all isTokenByte = true :=
      all_of_lower (lower_canonicalHeaderKey name).symm h
    rw [toLower_of_all hc, toLower_of_all h, lower_canonicalHeaderKey]
  · rw [canonicalHeaderKey, if_neg h]

theorem canonicalHeaderKey_toLower {name : Bytes} (h : name.all isTokenByte = true) :
    canonicalHeaderKey (toLower name) = canonicalHeaderKey name := by
  refine (canonicalHeaderKey_congr ?_ h).symm
  rw [toLower_of_all h, List.map_map]
  exact List.map_congr_left (fun c _ => (lowerASCII_lowerASCII c).symm)

/-- Case folding of two tokens compares their lower-case spellings. -/
theorem equalFold_iff {a b : Bytes} (ha : a.all isTokenByte = true)
    (hb : b.all isTokenByte = true) :
    equalFold a b = true ↔ a.map lowerASCII = b.map lowerASCII := by
  rw [equalFold, beq_iff_eq, foldKey_of_all ha, foldKey_of_all hb]

/-- The only canonical name that folds to a token is its canonical spelling. -/
theorem equalFold_canonical {a b : Bytes} (ha : isToken a = true)
    (hca : canonicalHeaderKey a = a) (hb : isToken b = true) :
    equalFold a b = true ↔ a = canonicalHeaderKey b := by
  rw [equalFold_iff (isToken_all ha) (isToken_all hb)]
  refine ⟨?_, ?_⟩
  · intro h
    rw [← canonicalHeaderKey_congr h (isToken_all ha), hca]
  · rintro rfl
    exact lower_canonicalHeaderKey b

end

/-! ## Lookups -/

namespace Header
variable {h : Header}

theorem at_add (h : Header) (key value name : Bytes) :
    (h.add key value).at_ name =
      if name = canonicalHeaderKey key then h.at_ name ++ [value] else h.at_ name := by
  by_cases hk : name = canonicalHeaderKey key
  · subst hk
    rw [if_pos rfl, at_, add, AList.lookup_insert]
    rfl
  · rw [if_neg hk, at_, add, AList.lookup_insert_ne hk]
    rfl

theorem at_setOne (h : Header) (key value name : Bytes) :
    (h.setOne key value).at_ name =
      if name = canonicalHeaderKey key then [value] else h.at_ name := by
  by_cases hk : name = canonicalHeaderKey key
  · subst hk
    rw [if_pos rfl, at_, setOne, AList.lookup_insert]
    rfl
  · rw [if_neg hk, at_, setOne, AList.lookup_insert_ne hk]
    rfl

theorem at_del (h : Header) (key name : Bytes) :
    (h.del key).at_ name = if name = canonicalHeaderKey key then [] else h.at_ name := by
  by_cases hk : name = canonicalHeaderKey key
  · subst hk
    rw [if_pos rfl, at_, del, AList.lookup_erase]
    rfl
  · rw [if_neg hk, at_, del, AList.lookup_erase_ne hk]
    rfl

/-- Adding several values under one name. -/
theorem at_foldl_add (values : List Bytes) (h : Header) (key name : Bytes) :
    (values.foldl (fun h value => h.add key value) h).at_ name =
      if name = canonicalHeaderKey key then h.at_ name ++ values else h.at_ name := by
  induction values generalizing h with
  | nil => simp
  | cons value values ih =>
      rw [List.foldl_cons, ih, at_add]
      by_cases hk : name = canonicalHeaderKey key
      · simp [hk]
      · simp [hk]

end Header

end Http
