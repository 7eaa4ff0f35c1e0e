import VBuckets.TimeProofs
import Mathlib.Data.Option.Basic

/-! # Dates read back

    The two directions of the calendar are inverse on every day, a decimal text reads
    back as its number, and so the texts of an instant with a four-digit year read back
    as the instant cut to seconds. -/

namespace Time

open ByteString

/-! ## Decimal texts -/

theorem decimal_append (s : Bytes) (c : UInt8) :
    Domain.decimal (s ++ [c]) = 10 * Domain.decimal s + (c.toNat - 48) := by
  rw [Domain.decimal, List.foldl_append]
  rfl

theorem digit_byte (d : Nat) (h : d < 10) :
    (UInt8.ofNat (Nat.digitChar d).toNat).toNat = 48 + d ∧
      isDigitASCII (UInt8.ofNat (Nat.digitChar d).toNat) = true := by
  have hall : ∀ d < 10, (UInt8.ofNat (Nat.digitChar d).toNat).toNat = 48 + d ∧
      isDigitASCII (UInt8.ofNat (Nat.digitChar d).toNat) = true := by decide
  exact hall d h

/-- The digits of a number are those of its tenth part and its last one. -/
theorem digits_eq (n : Nat) :
    ascii (toString n) =
      (if n < 10 then [] else ascii (toString (n / 10))) ++
        [UInt8.ofNat (Nat.digitChar (n % 10)).toNat] := by
  simp only [ascii, Nat.toString_eq_repr, Nat.toList_repr]
  by_cases h : n < 10
  · rw [if_pos h, Nat.toDigits_of_lt_base h, Nat.mod_eq_of_lt h]
    rfl
  · rw [if_neg h, Nat.toDigits_of_base_le (by decide) (Nat.le_of_not_lt h), List.map_append]
    rfl

/-- The text of a number has digits only and reads back as the number. -/
theorem digits_spec (n : Nat) :
    Domain.decimal (ascii (toString n)) = n ∧ (ascii (toString n)).all isDigitASCII = true := by
  induction n using Nat.strongRecOn with
  | ind n ih =>
      obtain ⟨hvalue, hdigit⟩ := digit_byte (n % 10) (Nat.mod_lt _ (by decide))
      rw [digits_eq, decimal_append, hvalue, List.all_append]
      by_cases h : n < 10
      · rw [if_pos h]
        refine ⟨?_, ?_⟩
        · show 10 * 0 + (48 + n % 10 - 48) = n
          omega
        · simpa using hdigit
      · rw [if_neg h]
        obtain ⟨hten, hall⟩ := ih (n / 10) (by omega)
        rw [hten, hall]
        refine ⟨by omega, ?_⟩
        simpa using hdigit

/-- A number below a power of ten has no more digits than its exponent. -/
theorem digits_length {n k : Nat} (hk : 0 < k) (h : n < 10 ^ k) :
    (ascii (toString n)).length ≤ k := by
  rw [ascii, List.length_map, Nat.toString_eq_repr, Nat.toList_repr]
  exact (Nat.length_toDigits_le_iff (by decide) hk).mpr h

/-- Leading zeros do not count, so padded fields are read as the numbers they pad. -/
theorem decimal_zeros (m : Nat) (s : Bytes) :
    Domain.decimal (List.replicate m 48 ++ s) = Domain.decimal s := by
  induction m with
  | zero => rfl
  | succ m ih =>
      rw [← ih]
      rfl

/-- A padded number has its width, digits only, and reads back. -/
theorem padded_spec {width n : Nat} (hw : 0 < width) (h : n < 10 ^ width) :
    (padded width n).length = width ∧ (padded width n).all isDigitASCII = true ∧
      Domain.decimal (padded width n) = n := by
  obtain ⟨hvalue, hall⟩ := digits_spec n
  have hlen := digits_length hw h
  rw [padded]
  refine ⟨?_, ?_, ?_⟩
  · rw [List.length_append, List.length_replicate]
    omega
  · rw [List.all_append, hall, Bool.and_true, List.all_eq_true]
    intro c hc
    rw [List.eq_of_mem_replicate hc]
    rfl
  · rw [decimal_zeros, hvalue]

theorem getnum_padded {n : Nat} (h : n < 100) (s : Bytes) :
    getnum (padded 2 n ++ s) = some ((n : Int), s) := by
  obtain ⟨hlen, hall, hvalue⟩ := padded_spec (show 0 < 2 by decide) h
  obtain ⟨a, b, hab⟩ := List.length_eq_two.mp hlen
  rw [hab] at hall hvalue ⊢
  simp only [List.all_cons, List.all_nil, Bool.and_true] at hall
  show (if isDigitASCII a && isDigitASCII b then some (((Domain.decimal [a, b] : Nat) : Int), s)
    else none) = _
  rw [if_pos hall, hvalue]

/-- A padded field of two digits is read back, and the rest is left. -/
theorem getnumShort_padded {n : Nat} (h : n < 100) (s : Bytes) :
    getnumShort (padded 2 n ++ s) = some ((n : Int), s) := by
  have hfixed := getnum_padded h s
  obtain ⟨a, b, hab⟩ := List.length_eq_two.mp (padded_spec (show 0 < 2 by decide) h).1
  rw [hab] at hfixed ⊢
  have hdigits : (isDigitASCII a && isDigitASCII b) = true := by
    by_contra hno
    have hnone : getnum ([a, b] ++ s) = none := if_neg hno
    exact nomatch hnone.symm.trans hfixed
  rw [← hfixed]
  rw [Bool.and_eq_true] at hdigits
  show (if isDigitASCII a then if isDigitASCII b then some (((Domain.decimal [a, b] : Nat) : Int), s)
      else some (((Domain.decimal [a] : Nat) : Int), b :: s) else none) =
    if isDigitASCII a && isDigitASCII b then some (((Domain.decimal [a, b] : Nat) : Int), s) else none
  rw [hdigits.1, hdigits.2]
  rfl

/-! ## Years of an era -/

/-- The year of an era in March-based years: century, four-year cycle, year and day. -/
theorem yearOfEra_spec {dayOfEra : Int} (h0 : 0 ≤ dayOfEra) (h1 : dayOfEra < 146097) :
    ∃ c k j r : Int, (0 ≤ c ∧ c < 4) ∧ (0 ≤ k ∧ k < 25) ∧ (0 ≤ j ∧ j < 4) ∧
      (0 ≤ r ∧ r ≤ 365) ∧ dayOfEra = 36524 * c + 1461 * k + 365 * j + r ∧
      (r = 365 → j = 3 ∧ (k = 24 → c = 3)) ∧
      (dayOfEra - dayOfEra / 1460 + dayOfEra / 36524 - dayOfEra / 146096) / 365 =
        100 * c + 4 * k + j := by
  by_cases hlast : dayOfEra = 146096
  · subst hlast
    exact ⟨3, 24, 3, 365, by decide, by decide, by decide, by decide, by decide, by decide,
      by decide⟩
  · obtain ⟨c, hc⟩ : ∃ c, c = dayOfEra / 36524 := ⟨_, rfl⟩
    obtain ⟨k, hk⟩ : ∃ k, k = (dayOfEra - 36524 * c) / 1461 := ⟨_, rfl⟩
    obtain ⟨q, hq⟩ : ∃ q, q = dayOfEra - 36524 * c - 1461 * k := ⟨_, rfl⟩
    have hc4 : 0 ≤ c ∧ c < 4 := by omega
    have hk25 : 0 ≤ k ∧ k < 25 := by omega
    have hq1461 : 0 ≤ q ∧ q < 1461 := by omega
    have hg : dayOfEra / 146096 = 0 := by omega
    -- the last days of a cycle are one 1460-day period ahead
    obtain ⟨δ, hδ⟩ : ∃ δ, δ = dayOfEra / 1460 - 25 * c - k := ⟨_, rfl⟩
    have hδ1 : (δ = 0 ∧ q < 1460) ∨ (δ = 1 ∧ 1364 ≤ q) := by omega
    obtain ⟨j, hj⟩ : ∃ j, j = (q - δ) / 365 := ⟨_, rfl⟩
    refine ⟨c, k, j, q - 365 * j, hc4, hk25, ?_, ?_, by omega, ?_, ?_⟩
    · omega
    · omega
    · intro hr
      -- the last day of a century that is not the last of the era would start the next
      have hlong : q = 1460 := by omega
      refine ⟨by omega, fun hk24 => ?_⟩
      omega
    · rw [hg]
      omega

/-! ## The two directions of the calendar -/

/-- The date of a day in March-based terms: an era, a year of it, a month from March and
    a day of the year. -/
structure MarchDate (days : Int) where
  era : Int
  year : Int
  month : Int
  dayOfYear : Int
  year_bounds : 0 ≤ year ∧ year < 400
  month_bounds : 0 ≤ month ∧ month < 12
  month_eq : month = (5 * dayOfYear + 2) / 153
  dayOfYear_bounds : 0 ≤ dayOfYear ∧ dayOfYear ≤ 365
  days_eq : days = era * 146097 + (year * 365 + year / 4 - year / 100 + dayOfYear) - 719468
  leap : dayOfYear = 365 → (year + 1) % 4 = 0 ∧ ((year + 1) % 100 = 0 → (year + 1) % 400 = 0)
  civil_eq : civilFromDays days =
    (year + era * 400 + (if month < 10 then 0 else 1),
      if month < 10 then month + 3 else month - 9, dayOfYear - (153 * month + 2) / 5 + 1)

/-- Every day has a date in years that begin in March, where the leap day comes last. -/
theorem exists_marchDate (days : Int) : Nonempty (MarchDate days) := by
  obtain ⟨era, hera⟩ : ∃ era, era = (days + 719468).fdiv 146097 := ⟨_, rfl⟩
  obtain ⟨dayOfEra, hday⟩ : ∃ d, d = days + 719468 - era * 146097 := ⟨_, rfl⟩
  have hdiv : era = (days + 719468) / 146097 := by
    rw [hera, Int.fdiv_eq_ediv_of_nonneg _ (by decide)]
  have hbounds : 0 ≤ dayOfEra ∧ dayOfEra < 146097 := by omega
  -- the day of an era by centuries, groups of four years, years and days
  obtain ⟨c, k, j, r, hc, hk, hj, hr, hsum, hleap, hyear⟩ :=
    yearOfEra_spec hbounds.1 hbounds.2
  obtain ⟨year, hy⟩ : ∃ year, year = 100 * c + 4 * k + j := ⟨_, rfl⟩
  have hparts : year / 4 = 25 * c + k ∧ year / 100 = c := by
    clear hyear hleap hsum hday hbounds hdiv hera
    omega
  have hcivil : civilFromDays days =
      (year + era * 400 + (if (5 * r + 2) / 153 < 10 then 0 else 1),
        if (5 * r + 2) / 153 < 10 then (5 * r + 2) / 153 + 3 else (5 * r + 2) / 153 - 9,
        r - (153 * ((5 * r + 2) / 153) + 2) / 5 + 1) := by
    have hrest : dayOfEra - (365 * year + year / 4 - year / 100) = r := by
      rw [hparts.1, hparts.2]
      clear hyear hleap hera hday hdiv
      omega
    rw [civilFromDays]
    simp only [← hera, ← hday, hyear, ← hy, hrest]
    by_cases hm : (5 * r + 2) / 153 < 10
    · have hlate : ¬ ((5 * r + 2) / 153 + 3 ≤ 2) := by
        clear hyear
        omega
      simp only [if_pos hm, if_neg hlate]
    · have hearly : (5 * r + 2) / 153 - 9 ≤ 2 := by
        clear hyear
        omega
      simp only [if_neg hm, if_pos hearly]
  -- `omega` would try to use the long equations
  clear hyear hera hdiv
  refine ⟨era, year, (5 * r + 2) / 153, r, by omega, by omega, rfl, hr, ?_, ?_, hcivil⟩
  · rw [hparts.1, hparts.2]
    omega
  · intro hlast
    obtain ⟨hj3, hk24⟩ := hleap hlast
    refine ⟨by omega, fun hhundred => ?_⟩
    have hc' := hk24 (by omega)
    omega

/-- A date lies in the calendar and gives its day back. -/
theorem civil_spec {days year month day : Int} (h : civilFromDays days = (year, month, day)) :
    (1 ≤ month ∧ month ≤ 12) ∧ (1 ≤ day ∧ day ≤ daysIn month year) ∧
      daysFromCivil year month day = days := by
  obtain ⟨m⟩ := exists_marchDate days
  obtain ⟨era, y, month', r, hy, hm, hmonth, hr, hdays, hleap, hcivil⟩ := m
  rw [hcivil, Prod.mk.injEq, Prod.mk.injEq] at h
  obtain ⟨hyear, hmon, hday⟩ := h
  have hera : (y + era * 400).fdiv 400 = era := by
    rw [Int.fdiv_eq_ediv_of_nonneg _ (by decide)]
    omega
  -- January and February belong to the next year of the era
  by_cases hlate : month' < 10
  · rw [if_pos hlate] at hyear hmon
    have hnot : ¬ month ≤ 2 := by omega
    refine ⟨by omega, ⟨by omega, ?_⟩, ?_⟩
    · rw [daysIn, if_neg (by omega)]
      split
      · omega
      · omega
    · rw [daysFromCivil]
      simp only [if_neg hnot]
      rw [show year = y + era * 400 by omega, hera]
      omega
  · rw [if_neg hlate] at hyear hmon
    have hearly : month ≤ 2 := by omega
    refine ⟨by omega, ⟨by omega, ?_⟩, ?_⟩
    · rw [daysIn]
      by_cases hfeb : month = 2
      · -- the leap day is the last day of a March-based year
        rw [if_pos hfeb]
        by_cases hlast : r = 365
        · obtain ⟨hfour, hhundred⟩ := hleap hlast
          have hyes : isLeap year = true := by
            simp only [isLeap, Bool.and_eq_true, Bool.or_eq_true, beq_iff_eq, bne_iff_ne]
            refine ⟨by omega, ?_⟩
            by_cases hc : (y + 1) % 100 = 0
            · exact Or.inr (by have := hhundred hc; omega)
            · exact Or.inl (by omega)
          rw [hyes]
          simp only [if_true]
          omega
        · split
          · omega
          · omega
      · rw [if_neg hfeb, if_neg (by omega)]
        omega
    · rw [daysFromCivil]
      simp only [if_pos hearly]
      rw [show year - 1 = y + era * 400 by omega, hera]
      omega

/-! ## Texts of an instant -/

/-- The year of an instant in UTC. -/
def year (t : Instant) : Int := (civilFromDays ((unix t).fdiv 86400)).1

/-- An instant whose texts have four digits for the year. -/
def FourDigitYear (t : Instant) : Prop := 0 ≤ year t ∧ year t ≤ 9999

/-- The fields of an instant with a four-digit year. -/
structure Fields (t : Instant) where
  year : Nat
  month : Nat
  day : Nat
  hour : Nat
  minute : Nat
  second : Nat
  year_lt : year < 10000
  month_bounds : 1 ≤ month ∧ month ≤ 12
  day_bounds : 1 ≤ day ∧ (day : Int) ≤ daysIn month year
  hour_lt : hour < 24
  minute_lt : minute < 60
  second_lt : second < 60
  civil_eq : civilFromDays ((unix t).fdiv 86400) = ((year : Int), (month : Int), (day : Int))
  rest_eq : (unix t - (unix t).fdiv 86400 * 86400).toNat = (hour * 60 + minute) * 60 + second
  unix_eq : unix t = ((daysFromCivil year month day * 24 + hour) * 60 + minute) * 60 + second

/-- Every instant of a four-digit year has fields that are written with two and four
    digits. -/
theorem exists_fields {t : Instant} (h : FourDigitYear t) : Nonempty (Fields t) := by
  obtain ⟨⟨y, m, d⟩, hcivil⟩ : ∃ date, civilFromDays ((unix t).fdiv 86400) = date := ⟨_, rfl⟩
  have hyear : year t = y := congrArg Prod.fst hcivil
  rw [FourDigitYear, hyear] at h
  obtain ⟨hm, hd, hdays⟩ := civil_spec hcivil
  have hdiv : (unix t).fdiv 86400 = unix t / 86400 := Int.fdiv_eq_ediv_of_nonneg _ (by decide)
  obtain ⟨rest, hrest⟩ : ∃ rest, rest = (unix t - (unix t).fdiv 86400 * 86400).toNat := ⟨_, rfl⟩
  have hlt : rest < 86400 := by omega
  have hm' : ((m.toNat : Nat) : Int) = m := Int.toNat_of_nonneg (by omega)
  have hd' : ((d.toNat : Nat) : Int) = d := Int.toNat_of_nonneg (by omega)
  have hy' : ((y.toNat : Nat) : Int) = y := Int.toNat_of_nonneg h.1
  refine ⟨y.toNat, m.toNat, d.toNat, rest / 3600, rest / 60 % 60, rest % 60, by omega, by omega,
    ⟨by omega, ?_⟩, by omega, by omega, by omega, ?_, ?_, ?_⟩
  · rw [hm', hd', hy']
    exact hd.2
  · rw [hm', hd', hy', hcivil]
  · rw [← hrest]
    omega
  · rw [hm', hd', hy', hdays]
    omega

section
variable {t : Instant} (f : Fields t)

theorem formatDate_eq :
    formatDate t = padded 4 f.year ++ padded 2 f.month ++ padded 2 f.day := by
  rw [formatDate, f.civil_eq]
  have hyear : ¬ ((f.year : Int) < 0) := by omega
  simp only [if_neg hyear, List.nil_append, Int.natAbs_natCast, Int.toNat_natCast]

theorem clock_fields :
    ((f.hour * 60 + f.minute) * 60 + f.second) / 3600 = f.hour ∧
      ((f.hour * 60 + f.minute) * 60 + f.second) / 60 % 60 = f.minute ∧
      ((f.hour * 60 + f.minute) * 60 + f.second) % 60 = f.second := by
  have hm := f.minute_lt
  have hs := f.second_lt
  omega

theorem formatAmzDate_eq :
    formatAmzDate t = padded 4 f.year ++ (padded 2 f.month ++ (padded 2 f.day ++
      ([84] ++ (padded 2 f.hour ++ (padded 2 f.minute ++ (padded 2 f.second ++ [90])))))) := by
  obtain ⟨hhour, hminute, hsecond⟩ := clock_fields f
  rw [formatAmzDate, formatDate_eq f]
  simp only [f.rest_eq]
  rw [hhour, hminute, hsecond]
  simp only [List.append_assoc]

/-- The time of a condition value, field by field. -/
theorem formatRFC3339_eq :
    formatRFC3339 t = padded 4 f.year ++ ([45] ++ (padded 2 f.month ++ ([45] ++ (padded 2 f.day ++
      ([84] ++ (padded 2 f.hour ++ ([58] ++ (padded 2 f.minute ++ ([58] ++ (padded 2 f.second ++
        [90])))))))))) := by
  obtain ⟨hhour, hminute, hsecond⟩ := clock_fields f
  have hyear : ¬ ((f.year : Int) < 0) := by omega
  rw [formatRFC3339]
  simp only [f.civil_eq, f.rest_eq, if_neg hyear, List.nil_append, Int.natAbs_natCast,
    Int.toNat_natCast]
  rw [hhour, hminute, hsecond]
  simp only [List.append_assoc]

theorem take_year (s : Bytes) :
    (padded 4 f.year ++ s).take 4 = padded 4 f.year ∧ (padded 4 f.year ++ s).drop 4 = s ∧
      (decide (4 ≤ (padded 4 f.year ++ s).length) && (padded 4 f.year).all isDigitASCII) = true ∧
      Domain.decimal (padded 4 f.year) = f.year := by
  obtain ⟨hlen, hall, hvalue⟩ := padded_spec (show 0 < 4 by decide) f.year_lt
  refine ⟨List.take_left' hlen, List.drop_left' hlen, ?_, hvalue⟩
  rw [hall, Bool.and_true, decide_eq_true_eq, List.length_append, hlen]
  exact Nat.le_add_right _ _

theorem guard_bind {α : Type} {p : Prop} [Decidable p] (h : p) (k : Unit → Option α) :
    (guard p : Option Unit).bind k = k () := by
  rw [guard, if_pos h]
  rfl

/-- Every field but the year is below a hundred and is written with two digits. -/
theorem month_lt : f.month < 100 := by
  have hm := f.month_bounds
  omega

theorem day_lt : f.day < 100 := by
  have hd := f.day_bounds
  have hmax : daysIn f.month f.year ≤ 31 := by
    rw [daysIn]
    split
    · split <;> decide
    · split <;> decide
  omega

theorem date_guards :
    (decide (1 ≤ (f.month : Int)) && decide ((f.month : Int) ≤ 12)) = true ∧
      (decide (1 ≤ (f.day : Int)) && decide ((f.day : Int) ≤ daysIn f.month f.year)) = true := by
  have hm := f.month_bounds
  have hd := f.day_bounds
  simp only [Bool.and_eq_true, decide_eq_true_eq]
  exact ⟨by omega, by omega, hd.2⟩

theorem hour_lt : f.hour < 100 := by
  have hh := f.hour_lt
  omega

theorem minute_lt : f.minute < 100 := by
  have hm := f.minute_lt
  omega

theorem second_lt : f.second < 100 := by
  have hs := f.second_lt
  omega

theorem clock_guards :
    (f.hour : Int) < 24 ∧ (f.minute : Int) < 60 ∧ (f.second : Int) < 60 := by
  have hh := f.hour_lt
  have hm := f.minute_lt
  have hs := f.second_lt
  omega

end

/-- The date of a scope reads back. -/
theorem parseDate_formatDate {t : Instant} (h : FourDigitYear t) :
    (parseDate (formatDate t)).isSome = true := by
  obtain ⟨f⟩ := exists_fields h
  obtain ⟨htake, hdrop, hyear, hvalue⟩ := take_year f (padded 2 f.month ++ padded 2 f.day)
  obtain ⟨hmonth, hday⟩ := date_guards f
  have hlast := getnum_padded (day_lt f) []
  rw [List.append_nil] at hlast
  rw [formatDate_eq f, List.append_assoc, parseDate]
  simp only [Option.bind_eq_bind, htake, hdrop, hvalue, guard_bind hyear,
    getnum_padded (month_lt f), Option.bind_some, guard_bind hmonth, hlast,
    guard_bind trivial, guard_bind hday, Option.isSome_some]

/-- The time of a request reads back, cut to seconds. -/
theorem parseAmzDate_formatAmzDate {t : Instant} (h : FourDigitYear t) :
    parseAmzDate (formatAmzDate t) = some (unix t * nanosecondsPerSecond) := by
  obtain ⟨f⟩ := exists_fields h
  obtain ⟨htake, hdrop, hyear, hvalue⟩ := take_year f (padded 2 f.month ++ (padded 2 f.day ++
    ([84] ++ (padded 2 f.hour ++ (padded 2 f.minute ++ (padded 2 f.second ++ [90]))))))
  obtain ⟨hmonth, hday⟩ := date_guards f
  obtain ⟨hhour, hminute, hsecond⟩ := clock_guards f
  have hskip : ∀ c s, skip c ([c] ++ s) = some s := fun c s => if_pos rfl
  have hfraction : fraction [90] = (0, [90]) := rfl
  have hzed : skip 90 [90] = some [] := rfl
  rw [formatAmzDate_eq f, parseAmzDate]
  simp only [Option.bind_eq_bind, htake, hdrop, hvalue, guard_bind hyear,
    getnum_padded (month_lt f), Option.bind_some, guard_bind hmonth, getnum_padded (day_lt f),
    hskip, getnum_padded (hour_lt f), guard_bind hhour, getnum_padded (minute_lt f),
    guard_bind hminute, getnum_padded (second_lt f), guard_bind hsecond, hfraction, hzed,
    guard_bind trivial, guard_bind hday, Int.add_zero]
  rw [← f.unix_eq]

/-- **READ BACK**: a formatted time is read as the day and the second it was made
    from. -/
theorem readDateTime_eq {t : Instant} (f : Fields t) :
    readDateTime (formatRFC3339 t) = some (daysFromCivil f.year f.month f.day,
      ((f.hour : Int) * 60 + f.minute) * 60 + f.second, 0, [90]) := by
  obtain ⟨htake, hdrop, hyear, hvalue⟩ := take_year f ([45] ++ (padded 2 f.month ++ ([45] ++
    (padded 2 f.day ++ ([84] ++ (padded 2 f.hour ++ ([58] ++ (padded 2 f.minute ++ ([58] ++
      (padded 2 f.second ++ [90]))))))))))
  obtain ⟨hmonth, hday⟩ := date_guards f
  obtain ⟨hhour, hminute, hsecond⟩ := clock_guards f
  have hskip : ∀ c s, skip c ([c] ++ s) = some s := fun c s => if_pos rfl
  have hfraction : fraction [90] = (0, [90]) := rfl
  rw [formatRFC3339_eq f, readDateTime]
  simp only [Option.bind_eq_bind, htake, hdrop, hvalue, guard_bind hyear, Option.bind_some,
    hskip, getnum_padded (month_lt f), guard_bind hmonth, getnum_padded (day_lt f),
    getnumShort_padded (hour_lt f), guard_bind hhour, getnum_padded (minute_lt f),
    guard_bind hminute, getnum_padded (second_lt f), guard_bind hsecond, hfraction,
    guard_bind hday]

/-- The time in the context of a policy reads back, cut to seconds. -/
theorem parseRFC3339_formatRFC3339 {t : Instant} (h : FourDigitYear t) :
    parseRFC3339 (formatRFC3339 t) = some (unix t * nanosecondsPerSecond) := by
  obtain ⟨f⟩ := exists_fields h
  have hzone : readZone [90] = some (0, []) := rfl
  have hunix : daysFromCivil f.year f.month f.day * 86400 +
      (((f.hour : Int) * 60 + f.minute) * 60 + f.second) = unix t := by
    rw [f.unix_eq]
    generalize daysFromCivil f.year f.month f.day = days
    omega
  rw [parseRFC3339, readDateTime_eq f]
  simp only [Option.bind_eq_bind, Option.bind_some, hzone, guard_bind trivial, Int.add_zero,
    Int.sub_zero, hunix]

/-- The date of a scope is eight digits. -/
theorem formatDate_digits {t : Instant} (h : FourDigitYear t) :
    formatDate t ≠ [] ∧ (formatDate t).all isDigitASCII = true := by
  obtain ⟨f⟩ := exists_fields h
  obtain ⟨hlen, hyear, _⟩ := padded_spec (show 0 < 4 by decide) f.year_lt
  obtain ⟨_, hmonth, _⟩ := padded_spec (show 0 < 2 by decide) (month_lt f)
  obtain ⟨_, hday, _⟩ := padded_spec (show 0 < 2 by decide) (day_lt f)
  rw [formatDate_eq f]
  constructor
  · intro hnil
    rw [List.append_assoc] at hnil
    rw [(List.append_eq_nil_iff.mp hnil).1] at hlen
    exact nomatch hlen
  · rw [List.all_append, List.all_append, hyear, hmonth, hday]
    rfl

/-- Cutting to seconds changes neither the second nor the date. -/
theorem unix_seconds (t : Instant) : unix (unix t * nanosecondsPerSecond) = unix t := by
  show (unix t * 1000000000).fdiv 1000000000 = unix t
  exact Int.mul_fdiv_cancel _ (by decide)

/-- The date is the same if fractions of a second are dropped first. -/
theorem formatDate_seconds (t : Instant) :
    formatDate (unix t * nanosecondsPerSecond) = formatDate t := by
  rw [formatDate, formatDate, unix_seconds]

end Time
