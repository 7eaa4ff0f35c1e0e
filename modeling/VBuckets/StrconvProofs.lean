import VBuckets.CalendarProofs
import Mathlib.Data.Rat.Floor

/-! # Texts of booleans and numbers

    `strconv.ParseBool` and `strconv.ParseFloat` at 64 bits.  A finite `float64` is the
    rational it stands for; infinities and NaN, which every caller here refuses, are no
    result.

    A text of decimal digits with an optional sign always reads as a finite number. -/

namespace Strconv

open ByteString

/-! ## Booleans -/

def parseBool (s : Bytes) : Option Bool :=
  if [ascii "1", ascii "t", ascii "T", ascii "true", ascii "TRUE", ascii "True"].contains s then
    some true
  else if [ascii "0", ascii "f", ascii "F", ascii "false", ascii "FALSE", ascii "False"].contains s
  then some false
  else none

/-! ## Reading a number -/

/-- The value of a digit, decimal or hexadecimal. -/
def digitValue (hex : Bool) (c : UInt8) : Option Nat :=
  if isDigitASCII c then some (c.toNat - 48)
  else if hex && 97 ≤ lowerASCII c && lowerASCII c ≤ 102 then some ((lowerASCII c).toNat - 87)
  else none

/-- The digits read so far. -/
structure Mantissa where
  value : Nat := 0
  fraction : Nat := 0
  sawDot : Bool := false
  sawDigits : Bool := false
  deriving DecidableEq

def numberBase (hex : Bool) : Nat := if hex then 16 else 10

def Mantissa.push (m : Mantissa) (hex : Bool) (d : Nat) : Mantissa :=
  { m with
    value := numberBase hex * m.value + d
    fraction := if m.sawDot then m.fraction + 1 else m.fraction
    sawDigits := true }

/-- The loop over the digits; underscores are skipped, and a second dot ends it. -/
def scanMantissa (hex : Bool) : Mantissa → Bytes → Mantissa × Bytes
  | m, [] => (m, [])
  | m, c :: s =>
      if c = 95 then scanMantissa hex m s
      else if c = 46 then
        if m.sawDot then (m, c :: s) else scanMantissa hex { m with sawDot := true } s
      else
        match digitValue hex c with
        | some d => scanMantissa hex (m.push hex d) s
        | none => (m, c :: s)

/-- The digits of an exponent; a large one stops growing. -/
def scanExponent : Nat → Bytes → Nat × Bytes
  | e, [] => (e, [])
  | e, c :: s =>
      if c = 95 then scanExponent e s
      else if isDigitASCII c then
        scanExponent (if e < 10000 then e * 10 + (c.toNat - 48) else e) s
      else (e, c :: s)

/-- A sign and what follows it. -/
def cutSign : Bytes → Bool × Bytes
  | 43 :: s => (false, s)
  | 45 :: s => (true, s)
  | s => (false, s)

/-- The optional exponent, which must end the text. -/
def readExponent (hex : Bool) (s : Bytes) : Option Int :=
  match s with
  | [] => if hex then none else some 0
  | c :: s =>
      if lowerASCII c = (if hex then 112 else 101) then
        let (negative, s) := cutSign s
        if !(s.head?.any isDigitASCII) then none
        else
          match scanExponent 0 s with
          | (e, []) => some (if negative then -(e : Int) else e)
          | _ => none
      else none

/-- The states of `underscoreOK`. -/
inductive Saw where
  | start | digit | underscore | other
  deriving DecidableEq

def underscoresFrom (hex : Bool) : Saw → Bytes → Bool
  | saw, [] => saw ≠ .underscore
  | saw, c :: s =>
      if (digitValue hex c).isSome then underscoresFrom hex .digit s
      else if c = 95 then saw = .digit && underscoresFrom hex .underscore s
      else saw ≠ .underscore && underscoresFrom hex .other s

/-- Underscores stand between digits, or after the prefix of a base. -/
def underscoreOK (s : Bytes) : Bool :=
  match (cutSign s).2 with
  | 48 :: c :: rest =>
      if lowerASCII c = 98 ∨ lowerASCII c = 111 ∨ lowerASCII c = 120 then
        underscoresFrom (lowerASCII c = 120) .digit rest
      else underscoresFrom false .start (48 :: c :: rest)
  | rest => underscoresFrom false .start rest

/-- `value * base ^ exponent`. -/
def scaled (base value : Nat) (exponent : Int) : ℚ :=
  if 0 ≤ exponent then ((value * base ^ exponent.toNat : Nat) : ℚ)
  else mkRat value (base ^ (-exponent).toNat)

/-- Whether a number starts with `0x` and has more to it. -/
def hexNumber : Bytes → Bool
  | 48 :: c :: _ :: _ => lowerASCII c = 120
  | _ => false

/-- `readFloat` on a whole text: the number it denotes. -/
def readFloat (s : Bytes) : Option ℚ :=
  let (negative, body) := cutSign s
  let hex := hexNumber body
  let (m, rest) := scanMantissa hex {} (if hex then body.drop 2 else body)
  if !m.sawDigits then none
  else
    match readExponent hex rest with
    | none => none
    | some e =>
        if s.contains 95 && !underscoreOK s then none
        else
          let magnitude :=
            if hex then scaled 2 m.value (e - 4 * m.fraction)
            else scaled 10 m.value (e - m.fraction)
          some (if negative then -magnitude else magnitude)

/-! ## Rounding -/

def twoPow (k : Int) : ℚ := scaled 2 1 k

/-- The exponent of the largest power of two up to a positive number. -/
def floorLog2 (x : ℚ) : Int :=
  let k : Int := (Nat.log2 x.num.natAbs : Int) - Nat.log2 x.den
  if x < twoPow k then k - 1 else k

def roundHalfEven (x : ℚ) : Int :=
  let below := x.floor
  if x - below < 1 / 2 then below
  else if 1 / 2 < x - below then below + 1
  else if below % 2 = 0 then below
  else below + 1

/-- The nearest `float64`, the even one of two.  Subnormal numbers have a fixed unit,
    the others 53 significant bits. -/
def roundFloat64 (x : ℚ) : ℚ :=
  if x = 0 then 0
  else
    let magnitude := if x < 0 then -x else x
    let unit := twoPow (max (floorLog2 magnitude) (-1022) - 52)
    let rounded := roundHalfEven (magnitude / unit) * unit
    if x < 0 then -rounded else rounded

/-- Half a unit beyond the largest `float64`. -/
def overflow : Nat := (2 ^ 54 - 1) * 2 ^ 970

/-- `strconv.ParseFloat(s, 64)` where the result is finite. -/
def parseFloat (s : Bytes) : Option ℚ :=
  match readFloat s with
  | none => none
  | some x => if (overflow : ℚ) ≤ x ∨ x ≤ -(overflow : ℚ) then none else some (roundFloat64 x)

example : parseFloat (ascii "-1_0.5e1") = some (-105) := by decide +kernel

/-! ## Decimal integers -/

section
variable {digits : Bytes}

theorem digit_spec {c : UInt8} (h : isDigitASCII c = true) :
    c ≠ 95 ∧ c ≠ 46 ∧ digitValue false c = some (c.toNat - 48) := by
  refine ⟨?_, ?_, ?_⟩
  · rintro rfl
    exact nomatch h
  · rintro rfl
    exact nomatch h
  · rw [digitValue, if_pos h]

/-- Reading digits reads their number, to the end. -/
theorem scanMantissa_digits (h : digits.all isDigitASCII = true) (m : Mantissa)
    (hm : m.sawDot = false) :
    scanMantissa false m digits =
      ({ m with
        value := digits.foldl (fun n c => 10 * n + (c.toNat - 48)) m.value
        sawDigits := m.sawDigits || !digits.isEmpty }, []) := by
  induction digits generalizing m with
  | nil => simp [scanMantissa]
  | cons c s ih =>
      rw [List.all_cons, Bool.and_eq_true] at h
      obtain ⟨hline, hdot, hvalue⟩ := digit_spec h.1
      have hpush := ih h.2 (m.push false (c.toNat - 48)) hm
      rw [scanMantissa, if_neg hline, if_neg hdot, hvalue]
      simp only [hpush]
      simp [Mantissa.push, numberBase, hm]

theorem hexNumber_digits (h : digits.all isDigitASCII = true) : hexNumber digits = false := by
  rw [hexNumber.eq_def]
  split
  · next c d s =>
      simp only [List.all_cons, Bool.and_eq_true] at h
      have hc : ∀ c : UInt8, isDigitASCII c = true → decide (lowerASCII c = 120) = false := fun c =>
        forall_byte (P := fun c => isDigitASCII c = true → decide (lowerASCII c = 120) = false)
          (by decide +kernel) c
      exact hc c h.2.1
  · rfl

/-- A text with a sign, digits and no more. -/
theorem readFloat_digits {s : Bytes} {negative : Bool} (hs : cutSign s = (negative, digits))
    (hne : digits ≠ []) (h : digits.all isDigitASCII = true) (hline : (95 : UInt8) ∉ s) :
    readFloat s = some (if negative then -(Domain.decimal digits : ℚ)
      else (Domain.decimal digits : ℚ)) := by
  have hempty : digits.isEmpty = false := by
    cases digits with
    | nil => exact absurd rfl hne
    | cons => rfl
  have hcontains : s.contains 95 = false := by
    rw [List.contains_eq_mem, decide_eq_false_iff_not]
    exact hline
  have hscan := scanMantissa_digits h {} rfl
  rw [readFloat, hs]
  simp only [hexNumber_digits h, Bool.false_eq_true, if_false, hscan, hempty, Bool.not_false,
    Bool.or_true, Bool.not_true, readExponent, hcontains, Bool.false_and]
  simp only [scaled, Int.sub_zero, Int.natCast_zero, le_refl, if_true, Int.toNat_zero, pow_zero,
    Nat.mul_one]
  rfl

theorem lt_overflow {n : Nat} (h : n ≤ 2 ^ 63) : n < overflow := by
  have hpow : ∀ k, 63 ≤ k → 2 ^ 63 ≤ 2 ^ k := fun k hk => Nat.pow_le_pow_right (by decide) hk
  have hscale : ∀ k, 2 ^ k < (2 ^ 54 - 1) * 2 ^ k := by
    intro k
    have hpos := Nat.pow_pos (n := k) (show 0 < 2 by decide)
    omega
  exact Nat.lt_of_le_of_lt (Nat.le_trans h (hpow 970 (by decide))) (hscale 970)

theorem parseFloat_digits {s : Bytes} {negative : Bool} (hs : cutSign s = (negative, digits))
    (hne : digits ≠ []) (h : digits.all isDigitASCII = true) (hline : (95 : UInt8) ∉ s)
    (hbound : Domain.decimal digits ≤ 2 ^ 63) : (parseFloat s).isSome = true := by
  have hlt : Domain.decimal digits < overflow := lt_overflow hbound
  have hrat : (Domain.decimal digits : ℚ) < (overflow : ℚ) := Nat.cast_lt.mpr hlt
  have hpos : (0 : ℚ) ≤ (Domain.decimal digits : ℚ) := Nat.cast_nonneg _
  have hfinite : ¬ ((overflow : ℚ) ≤ (if negative then -(Domain.decimal digits : ℚ)
      else (Domain.decimal digits : ℚ)) ∨ (if negative then -(Domain.decimal digits : ℚ)
      else (Domain.decimal digits : ℚ)) ≤ -(overflow : ℚ)) := by
    rw [not_or, not_le, not_le]
    cases negative with
    | true =>
        simp only [if_true]
        constructor <;> linarith
    | false =>
        simp only [Bool.false_eq_true, if_false]
        constructor <;> linarith
  rw [parseFloat, readFloat_digits hs hne h hline]
  simp only [if_neg hfinite, Option.isSome_some]

end

end Strconv
