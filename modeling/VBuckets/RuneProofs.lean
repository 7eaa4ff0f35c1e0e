import VBuckets.ByteStringProofs

/-! # Runes and lower case

    A text is read as its runes, and a byte that starts no valid encoding as U+FFFD, as
    `utf8.DecodeRune` documents; `utf8.AppendRune` writes a rune back.  The two are inverse
    on scalar values (`runes_encode`).

    `strings.ToLower` maps every rune of a text by a Unicode table.  The table stands here
    as ranges of letters with the offset of their lower case, so that names with letters
    outside ASCII are compared as the code compares them.  What the proofs about texts need
    of it is checked once over the ranges: an ASCII byte is lowered by itself
    (`toLower_cons`), nothing vanishes (`toLower_ne_nil`), and lowering twice is lowering
    once (`toLower_toLower`). -/

namespace ByteString

/-- A code point, or U+FFFD for what is none. -/
abbrev Rune := Nat

/-! ## Decoding -/

/-- The first rune of a text that is not empty, read by the length `runeLen` finds.  A
    byte that begins no valid sequence is U+FFFD. -/
def runeAt (s : Bytes) : Rune :=
  match runeLen s, s with
  | 1, a :: _ => a.toNat
  | 2, a :: b :: _ => (a.toNat - 0xC0) * 64 + (b.toNat - 0x80)
  | 3, a :: b :: c :: _ => (a.toNat - 0xE0) * 4096 + (b.toNat - 0x80) * 64 + (c.toNat - 0x80)
  | 4, a :: b :: c :: d :: _ =>
      (a.toNat - 0xF0) * 262144 + (b.toNat - 0x80) * 4096 + (c.toNat - 0x80) * 64 +
        (d.toNat - 0x80)
  | _, _ => 0xFFFD

/-- The runes of a text, at most `fuel` of them. -/
def runesFrom : Nat → Bytes → List Rune
  | 0, _ => []
  | _, [] => []
  | fuel + 1, b :: s => runeAt (b :: s) :: runesFrom fuel (s.drop (runeLen (b :: s) - 1))

/-- The runes a `range` loop over a string sees. -/
def runes (s : Bytes) : List Rune := runesFrom s.length s

/-- The shapes of an encoding: one byte below 0x80, two to four bytes of which all but the
    first continue, or none.  The second byte is bounded so that no rune has two encodings,
    none is a surrogate and none is above U+10FFFF. -/
inductive Encoding : Bytes → Nat → Prop where
  | one {a : UInt8} {s : Bytes} (ha : a.toNat < 0x80) : Encoding (a :: s) 1
  | two {a b : UInt8} {s : Bytes} (ha : 0xC2 ≤ a.toNat ∧ a.toNat ≤ 0xDF)
      (hb : 0x80 ≤ b.toNat ∧ b.toNat ≤ 0xBF) : Encoding (a :: b :: s) 2
  | three {a b c : UInt8} {s : Bytes} (ha : 0xE0 ≤ a.toNat ∧ a.toNat ≤ 0xEF)
      (hb : 0x80 ≤ b.toNat ∧ b.toNat ≤ 0xBF) (hc : 0x80 ≤ c.toNat ∧ c.toNat ≤ 0xBF)
      (hlow : a.toNat = 0xE0 → 0xA0 ≤ b.toNat) (hhigh : a.toNat = 0xED → b.toNat ≤ 0x9F) :
      Encoding (a :: b :: c :: s) 3
  | four {a b c d : UInt8} {s : Bytes} (ha : 0xF0 ≤ a.toNat ∧ a.toNat ≤ 0xF4)
      (hb : 0x80 ≤ b.toNat ∧ b.toNat ≤ 0xBF) (hc : 0x80 ≤ c.toNat ∧ c.toNat ≤ 0xBF)
      (hd : 0x80 ≤ d.toNat ∧ d.toNat ≤ 0xBF) (hlow : a.toNat = 0xF0 → 0x90 ≤ b.toNat)
      (hhigh : a.toNat = 0xF4 → b.toNat ≤ 0x8F) : Encoding (a :: b :: c :: d :: s) 4
  | invalid {a : UInt8} {s : Bytes} (ha : 0x80 ≤ a.toNat) : Encoding (a :: s) 0

/-- Whatever bytes there are, the first rune is one of five encodings: one to four
    bytes, or a single one that begins none. -/
theorem encoding_runeLen (a : UInt8) (s : Bytes) : Encoding (a :: s) (runeLen (a :: s)) := by
  rw [runeLen.eq_def]
  simp only
  split
  · next ha => exact .one (UInt8.lt_iff_toNat_lt.mp ha)
  · next ha =>
      have hhigh : 0x80 ≤ a.toNat := by
        rw [UInt8.lt_iff_toNat_lt] at ha
        exact Nat.le_of_not_lt ha
      split
      · next b s =>
          split
          · next h =>
              simp only [Bool.and_eq_true, decide_eq_true_eq, isCont, UInt8.le_iff_toNat_le,
                UInt8.reduceToNat] at h
              exact .two h.1 h.2
          · split
            · next c s =>
                split
                · next h =>
                    simp only [Bool.and_eq_true, Bool.or_eq_true, decide_eq_true_eq,
                      beq_iff_eq, isCont, UInt8.le_iff_toNat_le, ← UInt8.toNat_inj,
                      UInt8.reduceToNat] at h
                    -- the bounds on the second byte leave out overlong forms and surrogates
                    refine .three ?_ ?_ ?_ ?_ ?_ <;> omega
                · split
                  · next d s =>
                      split
                      · next h =>
                          simp only [Bool.and_eq_true, Bool.or_eq_true, decide_eq_true_eq,
                            beq_iff_eq, isCont, UInt8.le_iff_toNat_le, ← UInt8.toNat_inj,
                            UInt8.reduceToNat] at h
                          refine .four ?_ ?_ ?_ ?_ ?_ ?_ <;> omega
                      · exact .invalid hhigh
                  · exact .invalid hhigh
            · exact .invalid hhigh
      · exact .invalid hhigh

/-- A valid shape is the one that is read. -/
theorem Encoding.runeLen_eq {s : Bytes} {n : Nat} (h : Encoding s n) (hn : n ≠ 0) :
    runeLen s = n := by
  rw [runeLen.eq_def]
  cases h with
  | one ha => simp only [UInt8.lt_iff_toNat_lt, UInt8.reduceToNat, if_pos ha]
  | two ha hb =>
      have h1 : ¬ (_ : UInt8).toNat < 0x80 := Nat.not_lt.mpr (Nat.le_trans (by decide) ha.1)
      simp only [UInt8.lt_iff_toNat_lt, UInt8.le_iff_toNat_le, UInt8.reduceToNat, isCont, h1,
        ha.1, ha.2, hb.1, hb.2, decide_true, Bool.and_self, if_true, if_false]
  | three ha hb hc hlow hhigh =>
      have h1 : ¬ (_ : UInt8).toNat < 0x80 := Nat.not_lt.mpr (Nat.le_trans (by decide) ha.1)
      have h2 : ¬ (_ : UInt8).toNat ≤ 0xDF := Nat.not_le.mpr (Nat.lt_of_lt_of_le (by decide) ha.1)
      simp only [UInt8.lt_iff_toNat_lt, UInt8.le_iff_toNat_le, UInt8.reduceToNat, isCont, h1, h2,
        decide_false, Bool.and_false, Bool.false_and, if_false, Bool.false_eq_true]
      rw [if_pos]
      simp only [Bool.and_eq_true, Bool.or_eq_true, decide_eq_true_eq, beq_iff_eq,
        ← UInt8.toNat_inj, UInt8.reduceToNat]
      omega
  | four ha hb hc hd hlow hhigh =>
      have h1 : ¬ (_ : UInt8).toNat < 0x80 := Nat.not_lt.mpr (Nat.le_trans (by decide) ha.1)
      have h2 : ¬ (_ : UInt8).toNat ≤ 0xDF := Nat.not_le.mpr (Nat.lt_of_lt_of_le (by decide) ha.1)
      simp only [UInt8.lt_iff_toNat_lt, UInt8.le_iff_toNat_le, UInt8.reduceToNat, isCont, h1, h2,
        decide_false, Bool.and_false, Bool.false_and, if_false, Bool.false_eq_true]
      rw [if_neg, if_pos]
      · simp only [Bool.and_eq_true, Bool.or_eq_true, decide_eq_true_eq, beq_iff_eq,
          ← UInt8.toNat_inj, UInt8.reduceToNat]
        omega
      · simp only [Bool.and_eq_true, Bool.or_eq_true, decide_eq_true_eq, beq_iff_eq,
          ← UInt8.toNat_inj, UInt8.reduceToNat]
        omega
  | invalid ha => exact absurd rfl hn

/-- A code point that is no surrogate. -/
def Scalar (r : Nat) : Prop := r < 0xD800 ∨ (0xDFFF < r ∧ r ≤ 0x10FFFF)

instance (r : Nat) : Decidable (Scalar r) := inferInstanceAs (Decidable (_ ∨ _))

/-- What is decoded is a scalar value.  Surrogates and values beyond the last plane
    are not in any encoding. -/
theorem scalar_runeAt (a : UInt8) (s : Bytes) : Scalar (runeAt (a :: s)) := by
  have henc := encoding_runeLen a s
  unfold runeAt
  generalize runeLen (a :: s) = n at henc ⊢
  cases henc with
  | one ha =>
      show Scalar a.toNat
      unfold Scalar
      omega
  | two ha hb =>
      show Scalar ((a.toNat - 0xC0) * 64 + _)
      unfold Scalar
      omega
  | three ha hb hc hlow hhigh =>
      show Scalar ((a.toNat - 0xE0) * 4096 + _ + _)
      unfold Scalar
      omega
  | four ha hb hc hd hlow hhigh =>
      show Scalar ((a.toNat - 0xF0) * 262144 + _ + _ + _)
      unfold Scalar
      omega
  | invalid ha =>
      show Scalar 0xFFFD
      decide

/-- Fuel of the length of the text suffices. -/
theorem runesFrom_eq {fuel : Nat} {s : Bytes} (h : s.length ≤ fuel) : runesFrom fuel s = runes s := by
  induction fuel using Nat.strongRecOn generalizing s with
  | ind fuel ih =>
      cases fuel with
      | zero =>
          rw [List.length_eq_zero_iff.mp (Nat.le_zero.mp h)]
          rfl
      | succ fuel =>
          cases s with
          | nil => rfl
          | cons a s =>
              have hs : s.length ≤ fuel := Nat.le_of_succ_le_succ h
              have hdrop : (s.drop (runeLen (a :: s) - 1)).length ≤ s.length := by
                rw [List.length_drop]
                exact Nat.sub_le _ _
              rw [runes, List.length_cons, runesFrom, runesFrom,
                ih fuel (Nat.lt_succ_self _) (Nat.le_trans hdrop hs),
                ih s.length (Nat.lt_succ_of_le hs) hdrop]

theorem runes_cons (a : UInt8) (s : Bytes) :
    runes (a :: s) = runeAt (a :: s) :: runes (s.drop (runeLen (a :: s) - 1)) := by
  have hdrop : (s.drop (runeLen (a :: s) - 1)).length ≤ s.length := by
    rw [List.length_drop]
    exact Nat.sub_le _ _
  rw [runes, List.length_cons, runesFrom, runesFrom_eq hdrop]

/-- A decoded text consists of scalar values. -/
theorem scalar_of_mem_runes {s : Bytes} {r : Rune} (h : r ∈ runes s) : Scalar r := by
  induction hn : s.length using Nat.strongRecOn generalizing s with
  | ind n ih =>
      cases s with
      | nil => exact nomatch h
      | cons a s =>
          rw [runes_cons] at h
          rcases List.mem_cons.mp h with rfl | h
          · exact scalar_runeAt a s
          · refine ih _ ?_ h rfl
            rw [List.length_drop, ← hn, List.length_cons]
            omega

/-! ## Encoding -/

/-- `utf8.AppendRune` to an empty text: what is no scalar value is written as U+FFFD. -/
def appendRune (r : Nat) : Bytes :=
  if r < 0x80 then [UInt8.ofNat r]
  else if r < 0x800 then [UInt8.ofNat (0xC0 + r / 64), UInt8.ofNat (0x80 + r % 64)]
  else if (0xD800 ≤ r ∧ r ≤ 0xDFFF) ∨ 0x10FFFF < r then [0xEF, 0xBF, 0xBD]
  else if r < 0x10000 then
    [UInt8.ofNat (0xE0 + r / 4096), UInt8.ofNat (0x80 + r / 64 % 64), UInt8.ofNat (0x80 + r % 64)]
  else
    [UInt8.ofNat (0xF0 + r / 262144), UInt8.ofNat (0x80 + r / 4096 % 64),
      UInt8.ofNat (0x80 + r / 64 % 64), UInt8.ofNat (0x80 + r % 64)]

theorem appendRune_ne_nil (r : Nat) : appendRune r ≠ [] := by
  rw [appendRune]
  repeat' split
  all_goals exact List.cons_ne_nil _ _

/-- What is written is read back, whatever follows. -/
theorem appendRune_spec {r : Nat} (hr : Scalar r) (t : Bytes) :
    runeLen (appendRune r ++ t) = (appendRune r).length ∧ runeAt (appendRune r ++ t) = r := by
  -- the shape fixes the length, and the length fixes the formula
  have hread : ∀ {s : Bytes} {n : Nat}, Encoding s n → n ≠ 0 → runeLen s = n :=
    fun h hn => h.runeLen_eq hn
  have hbyte : ∀ {n : Nat}, n < 256 → (UInt8.ofNat n).toNat = n := fun h =>
    UInt8.toNat_ofNat_of_lt h
  unfold Scalar at hr
  rw [appendRune]
  split
  · next h1 =>
      have ha := hbyte (n := r) (by omega)
      have hlen := hread (Encoding.one (s := t) (by rw [ha]; exact h1)) (by decide)
      refine ⟨hlen, ?_⟩
      show runeAt (UInt8.ofNat r :: t) = r
      unfold runeAt
      rw [hlen]
      exact ha
  split
  · next h1 h2 =>
      have ha := hbyte (n := 0xC0 + r / 64) (by omega)
      have hb := hbyte (n := 0x80 + r % 64) (by omega)
      have hlen := hread (Encoding.two (s := t) (by rw [ha]; omega) (by rw [hb]; omega)) (by decide)
      refine ⟨hlen, ?_⟩
      show runeAt (UInt8.ofNat _ :: UInt8.ofNat _ :: t) = r
      unfold runeAt
      rw [hlen]
      show (UInt8.toNat _ - 0xC0) * 64 + (UInt8.toNat _ - 0x80) = r
      rw [ha, hb]
      omega
  split
  · next h3 => omega
  split
  · next h1 h2 h3 h4 =>
      have ha := hbyte (n := 0xE0 + r / 4096) (by omega)
      have hb := hbyte (n := 0x80 + r / 64 % 64) (by omega)
      have hc := hbyte (n := 0x80 + r % 64) (by omega)
      have hlen := hread (Encoding.three (s := t) (by rw [ha]; omega) (by rw [hb]; omega)
        (by rw [hc]; omega) (by rw [ha, hb]; omega) (by rw [ha, hb]; omega)) (by decide)
      refine ⟨hlen, ?_⟩
      show runeAt (UInt8.ofNat _ :: UInt8.ofNat _ :: UInt8.ofNat _ :: t) = r
      unfold runeAt
      rw [hlen]
      show (UInt8.toNat _ - 0xE0) * 4096 + (UInt8.toNat _ - 0x80) * 64 + (UInt8.toNat _ - 0x80) = r
      rw [ha, hb, hc]
      omega
  · next h1 h2 h3 h4 =>
      have ha := hbyte (n := 0xF0 + r / 262144) (by omega)
      have hb := hbyte (n := 0x80 + r / 4096 % 64) (by omega)
      have hc := hbyte (n := 0x80 + r / 64 % 64) (by omega)
      have hd := hbyte (n := 0x80 + r % 64) (by omega)
      have hlen := hread (Encoding.four (s := t) (by rw [ha]; omega) (by rw [hb]; omega)
        (by rw [hc]; omega) (by rw [hd]; omega) (by rw [ha, hb]; omega)
        (by rw [ha, hb]; omega)) (by decide)
      refine ⟨hlen, ?_⟩
      show runeAt (UInt8.ofNat _ :: UInt8.ofNat _ :: UInt8.ofNat _ :: UInt8.ofNat _ :: t) = r
      unfold runeAt
      rw [hlen]
      show (UInt8.toNat _ - 0xF0) * 262144 + (UInt8.toNat _ - 0x80) * 4096 +
        (UInt8.toNat _ - 0x80) * 64 + (UInt8.toNat _ - 0x80) = r
      rw [ha, hb, hc, hd]
      omega

/-- **READING WHAT WAS WRITTEN** gives the runes back. -/
theorem runes_encode {rs : List Rune} (h : ∀ r ∈ rs, Scalar r) :
    runes (rs.flatMap appendRune) = rs := by
  induction rs with
  | nil => rfl
  | cons r rs ih =>
      obtain ⟨hr, hrs⟩ := List.forall_mem_cons.mp h
      obtain ⟨hlen, hat⟩ := appendRune_spec hr (rs.flatMap appendRune)
      obtain ⟨a, s, has⟩ := List.exists_cons_of_ne_nil (appendRune_ne_nil r)
      rw [List.flatMap_cons]
      rw [has] at hlen hat ⊢
      rw [List.cons_append] at hlen hat ⊢
      rw [runes_cons, hat, hlen, List.length_cons, Nat.add_sub_cancel, List.drop_left, ih hrs]

/-! ## Lower case -/

/-- Letters at a stride, from the first to the last, and the offset of their lower case. -/
structure LowerRange where
  lo : Nat
  hi : Nat
  stride : Nat
  offset : Int

/-- The runes of a range that it lowers: every one, or every second. -/
def LowerRange.covers (g : LowerRange) (r : Nat) : Bool :=
  g.lo ≤ r && r ≤ g.hi && (r - g.lo) % g.stride == 0

/-- What they are lowered to. -/
def LowerRange.lower (g : LowerRange) (r : Nat) : Nat := (r + g.offset).toNat

/-- The letters outside ASCII that have a lower case (Unicode 15, `unicode.CaseRanges`). -/
def lowerRanges : List LowerRange :=
  [⟨0x00C0, 0x00D6, 1, 32⟩, ⟨0x00D8, 0x00DE, 1, 32⟩, ⟨0x0100, 0x012E, 2, 1⟩,
    ⟨0x0130, 0x0130, 1, -199⟩, ⟨0x0132, 0x0136, 2, 1⟩, ⟨0x0139, 0x0147, 2, 1⟩,
    ⟨0x014A, 0x0176, 2, 1⟩, ⟨0x0178, 0x0178, 1, -121⟩, ⟨0x0179, 0x017D, 2, 1⟩,
    ⟨0x0181, 0x0181, 1, 210⟩, ⟨0x0182, 0x0184, 2, 1⟩, ⟨0x0186, 0x0186, 1, 206⟩,
    ⟨0x0187, 0x0187, 1, 1⟩, ⟨0x0189, 0x018A, 1, 205⟩, ⟨0x018B, 0x018B, 1, 1⟩,
    ⟨0x018E, 0x018E, 1, 79⟩, ⟨0x018F, 0x018F, 1, 202⟩, ⟨0x0190, 0x0190, 1, 203⟩,
    ⟨0x0191, 0x0191, 1, 1⟩, ⟨0x0193, 0x0193, 1, 205⟩, ⟨0x0194, 0x0194, 1, 207⟩,
    ⟨0x0196, 0x0196, 1, 211⟩, ⟨0x0197, 0x0197, 1, 209⟩, ⟨0x0198, 0x0198, 1, 1⟩,
    ⟨0x019C, 0x019C, 1, 211⟩, ⟨0x019D, 0x019D, 1, 213⟩, ⟨0x019F, 0x019F, 1, 214⟩,
    ⟨0x01A0, 0x01A4, 2, 1⟩, ⟨0x01A6, 0x01A6, 1, 218⟩, ⟨0x01A7, 0x01A7, 1, 1⟩,
    ⟨0x01A9, 0x01A9, 1, 218⟩, ⟨0x01AC, 0x01AC, 1, 1⟩, ⟨0x01AE, 0x01AE, 1, 218⟩,
    ⟨0x01AF, 0x01AF, 1, 1⟩, ⟨0x01B1, 0x01B2, 1, 217⟩, ⟨0x01B3, 0x01B5, 2, 1⟩,
    ⟨0x01B7, 0x01B7, 1, 219⟩, ⟨0x01B8, 0x01B8, 1, 1⟩, ⟨0x01BC, 0x01BC, 1, 1⟩,
    ⟨0x01C4, 0x01C4, 1, 2⟩, ⟨0x01C5, 0x01C5, 1, 1⟩, ⟨0x01C7, 0x01C7, 1, 2⟩,
    ⟨0x01C8, 0x01C8, 1, 1⟩, ⟨0x01CA, 0x01CA, 1, 2⟩, ⟨0x01CB, 0x01DB, 2, 1⟩,
    ⟨0x01DE, 0x01EE, 2, 1⟩, ⟨0x01F1, 0x01F1, 1, 2⟩, ⟨0x01F2, 0x01F4, 2, 1⟩,
    ⟨0x01F6, 0x01F6, 1, -97⟩, ⟨0x01F7, 0x01F7, 1, -56⟩, ⟨0x01F8, 0x021E, 2, 1⟩,
    ⟨0x0220, 0x0220, 1, -130⟩, ⟨0x0222, 0x0232, 2, 1⟩, ⟨0x023A, 0x023A, 1, 10795⟩,
    ⟨0x023B, 0x023B, 1, 1⟩, ⟨0x023D, 0x023D, 1, -163⟩, ⟨0x023E, 0x023E, 1, 10792⟩,
    ⟨0x0241, 0x0241, 1, 1⟩, ⟨0x0243, 0x0243, 1, -195⟩, ⟨0x0244, 0x0244, 1, 69⟩,
    ⟨0x0245, 0x0245, 1, 71⟩, ⟨0x0246, 0x024E, 2, 1⟩, ⟨0x0370, 0x0372, 2, 1⟩,
    ⟨0x0376, 0x0376, 1, 1⟩, ⟨0x037F, 0x037F, 1, 116⟩, ⟨0x0386, 0x0386, 1, 38⟩,
    ⟨0x0388, 0x038A, 1, 37⟩, ⟨0x038C, 0x038C, 1, 64⟩, ⟨0x038E, 0x038F, 1, 63⟩,
    ⟨0x0391, 0x03A1, 1, 32⟩, ⟨0x03A3, 0x03AB, 1, 32⟩, ⟨0x03CF, 0x03CF, 1, 8⟩,
    ⟨0x03D8, 0x03EE, 2, 1⟩, ⟨0x03F4, 0x03F4, 1, -60⟩, ⟨0x03F7, 0x03F7, 1, 1⟩,
    ⟨0x03F9, 0x03F9, 1, -7⟩, ⟨0x03FA, 0x03FA, 1, 1⟩, ⟨0x03FD, 0x03FF, 1, -130⟩,
    ⟨0x0400, 0x040F, 1, 80⟩, ⟨0x0410, 0x042F, 1, 32⟩, ⟨0x0460, 0x0480, 2, 1⟩,
    ⟨0x048A, 0x04BE, 2, 1⟩, ⟨0x04C0, 0x04C0, 1, 15⟩, ⟨0x04C1, 0x04CD, 2, 1⟩,
    ⟨0x04D0, 0x052E, 2, 1⟩, ⟨0x0531, 0x0556, 1, 48⟩, ⟨0x10A0, 0x10C5, 1, 7264⟩,
    ⟨0x10C7, 0x10C7, 1, 7264⟩, ⟨0x10CD, 0x10CD, 1, 7264⟩, ⟨0x13A0, 0x13EF, 1, 38864⟩,
    ⟨0x13F0, 0x13F5, 1, 8⟩, ⟨0x1C90, 0x1CBA, 1, -3008⟩, ⟨0x1CBD, 0x1CBF, 1, -3008⟩,
    ⟨0x1E00, 0x1E94, 2, 1⟩, ⟨0x1E9E, 0x1E9E, 1, -7615⟩, ⟨0x1EA0, 0x1EFE, 2, 1⟩,
    ⟨0x1F08, 0x1F0F, 1, -8⟩, ⟨0x1F18, 0x1F1D, 1, -8⟩, ⟨0x1F28, 0x1F2F, 1, -8⟩,
    ⟨0x1F38, 0x1F3F, 1, -8⟩, ⟨0x1F48, 0x1F4D, 1, -8⟩, ⟨0x1F59, 0x1F5F, 2, -8⟩,
    ⟨0x1F68, 0x1F6F, 1, -8⟩, ⟨0x1F88, 0x1F8F, 1, -8⟩, ⟨0x1F98, 0x1F9F, 1, -8⟩,
    ⟨0x1FA8, 0x1FAF, 1, -8⟩, ⟨0x1FB8, 0x1FB9, 1, -8⟩, ⟨0x1FBA, 0x1FBB, 1, -74⟩,
    ⟨0x1FBC, 0x1FBC, 1, -9⟩, ⟨0x1FC8, 0x1FCB, 1, -86⟩, ⟨0x1FCC, 0x1FCC, 1, -9⟩,
    ⟨0x1FD8, 0x1FD9, 1, -8⟩, ⟨0x1FDA, 0x1FDB, 1, -100⟩, ⟨0x1FE8, 0x1FE9, 1, -8⟩,
    ⟨0x1FEA, 0x1FEB, 1, -112⟩, ⟨0x1FEC, 0x1FEC, 1, -7⟩, ⟨0x1FF8, 0x1FF9, 1, -128⟩,
    ⟨0x1FFA, 0x1FFB, 1, -126⟩, ⟨0x1FFC, 0x1FFC, 1, -9⟩, ⟨0x2126, 0x2126, 1, -7517⟩,
    ⟨0x212A, 0x212A, 1, -8383⟩, ⟨0x212B, 0x212B, 1, -8262⟩, ⟨0x2132, 0x2132, 1, 28⟩,
    ⟨0x2160, 0x216F, 1, 16⟩, ⟨0x2183, 0x2183, 1, 1⟩, ⟨0x24B6, 0x24CF, 1, 26⟩,
    ⟨0x2C00, 0x2C2F, 1, 48⟩, ⟨0x2C60, 0x2C60, 1, 1⟩, ⟨0x2C62, 0x2C62, 1, -10743⟩,
    ⟨0x2C63, 0x2C63, 1, -3814⟩, ⟨0x2C64, 0x2C64, 1, -10727⟩, ⟨0x2C67, 0x2C6B, 2, 1⟩,
    ⟨0x2C6D, 0x2C6D, 1, -10780⟩, ⟨0x2C6E, 0x2C6E, 1, -10749⟩, ⟨0x2C6F, 0x2C6F, 1, -10783⟩,
    ⟨0x2C70, 0x2C70, 1, -10782⟩, ⟨0x2C72, 0x2C72, 1, 1⟩, ⟨0x2C75, 0x2C75, 1, 1⟩,
    ⟨0x2C7E, 0x2C7F, 1, -10815⟩, ⟨0x2C80, 0x2CE2, 2, 1⟩, ⟨0x2CEB, 0x2CED, 2, 1⟩,
    ⟨0x2CF2, 0x2CF2, 1, 1⟩, ⟨0xA640, 0xA66C, 2, 1⟩, ⟨0xA680, 0xA69A, 2, 1⟩,
    ⟨0xA722, 0xA72E, 2, 1⟩, ⟨0xA732, 0xA76E, 2, 1⟩, ⟨0xA779, 0xA77B, 2, 1⟩,
    ⟨0xA77D, 0xA77D, 1, -35332⟩, ⟨0xA77E, 0xA786, 2, 1⟩, ⟨0xA78B, 0xA78B, 1, 1⟩,
    ⟨0xA78D, 0xA78D, 1, -42280⟩, ⟨0xA790, 0xA792, 2, 1⟩, ⟨0xA796, 0xA7A8, 2, 1⟩,
    ⟨0xA7AA, 0xA7AA, 1, -42308⟩, ⟨0xA7AB, 0xA7AB, 1, -42319⟩, ⟨0xA7AC, 0xA7AC, 1, -42315⟩,
    ⟨0xA7AD, 0xA7AD, 1, -42305⟩, ⟨0xA7AE, 0xA7AE, 1, -42308⟩, ⟨0xA7B0, 0xA7B0, 1, -42258⟩,
    ⟨0xA7B1, 0xA7B1, 1, -42282⟩, ⟨0xA7B2, 0xA7B2, 1, -42261⟩, ⟨0xA7B3, 0xA7B3, 1, 928⟩,
    ⟨0xA7B4, 0xA7C2, 2, 1⟩, ⟨0xA7C4, 0xA7C4, 1, -48⟩, ⟨0xA7C5, 0xA7C5, 1, -42307⟩,
    ⟨0xA7C6, 0xA7C6, 1, -35384⟩, ⟨0xA7C7, 0xA7C9, 2, 1⟩, ⟨0xA7D0, 0xA7D0, 1, 1⟩,
    ⟨0xA7D6, 0xA7D8, 2, 1⟩, ⟨0xA7F5, 0xA7F5, 1, 1⟩, ⟨0xFF21, 0xFF3A, 1, 32⟩,
    ⟨0x10400, 0x10427, 1, 40⟩, ⟨0x104B0, 0x104D3, 1, 40⟩, ⟨0x10570, 0x1057A, 1, 39⟩,
    ⟨0x1057C, 0x1058A, 1, 39⟩, ⟨0x1058C, 0x10592, 1, 39⟩, ⟨0x10594, 0x10595, 1, 39⟩,
    ⟨0x10C80, 0x10CB2, 1, 64⟩, ⟨0x118A0, 0x118BF, 1, 32⟩, ⟨0x16E40, 0x16E5F, 1, 32⟩,
    ⟨0x1E900, 0x1E921, 1, 34⟩]
/-- `unicode.ToLower`. -/
def lowerRune (r : Nat) : Nat :=
  if r < 0x80 then if 65 ≤ r ∧ r ≤ 90 then r + 32 else r
  else
    match lowerRanges.find? (fun g => g.covers r) with
    | none => r
    | some g => g.lower r

/-- `strings.Map` for a mapping that drops no rune.  Bytes that are no text come back
    as U+FFFD, so this can change a string without a letter in it. -/
def mapRunes (mapping : Rune → Rune) (s : Bytes) : Bytes :=
  ((runes s).map mapping).flatMap appendRune

/-- `strings.ToLower`, with its path for texts in ASCII. -/
def toLower (s : Bytes) : Bytes :=
  if s.all (fun b => b < 0x80) then s.map lowerASCII else mapRunes lowerRune s

/-- The lower case of a range meets no letter of another one: it lies before or after it, or
    takes the places between its letters. -/
def LowerRange.apart (g g' : LowerRange) : Bool :=
  g'.hi < g.lower g.lo || g.lower g.hi < g'.lo ||
    ((g.stride == 2 || g.lo == g.hi) && g'.stride == 2 && (g.lower g.lo + g'.lo) % 2 == 1)

/-- The lower case of a range consists of scalar values, each its own lower case. -/
def LowerRange.settled (g : LowerRange) : Bool :=
  0 ≤ g.lo + g.offset &&
    (g.lower g.hi < 0xD800 || (0xDFFF < g.lower g.lo && g.lower g.hi ≤ 0x10FFFF)) &&
    (0x80 ≤ g.lower g.lo || (90 < g.lower g.lo && g.lower g.hi < 0x80)) &&
    lowerRanges.all g.apart

/-- The check of the table, range against range: no range gives a rune that another
    one lowers. -/
theorem lowerRanges_settled : ∀ g ∈ lowerRanges, g.settled = true := by
  decide +kernel

section
variable {g g' : LowerRange} {r : Nat}

/-- The lower case of a letter lies between that of the first and of the last, at the
    stride. -/
theorem LowerRange.lower_of_covers (h : g.covers r = true) (hlow : 0 ≤ g.lo + g.offset) :
    g.lower g.lo ≤ g.lower r ∧ g.lower r ≤ g.lower g.hi ∧
      (g.stride = 2 ∨ g.lo = g.hi → (g.lower r + g.lower g.lo) % 2 = 0) := by
  simp only [LowerRange.covers, Bool.and_eq_true, decide_eq_true_eq, beq_iff_eq] at h
  obtain ⟨⟨hlo, hhi⟩, hmod⟩ := h
  simp only [LowerRange.lower]
  refine ⟨by omega, by omega, ?_⟩
  rintro (hstride | hsingle)
  · rw [hstride] at hmod
    omega
  · omega

/-- Ranges that lie apart, or that alternate, do not lower each other's results. -/
theorem LowerRange.not_covers_of_apart (h : g.covers r = true) (hlow : 0 ≤ g.lo + g.offset)
    (happart : g.apart g' = true) : ¬ g'.covers (g.lower r) = true := by
  obtain ⟨hfrom, hto, heven⟩ := LowerRange.lower_of_covers h hlow
  simp only [LowerRange.apart, Bool.or_eq_true, Bool.and_eq_true, decide_eq_true_eq,
    beq_iff_eq] at happart
  intro hcovers
  simp only [LowerRange.covers, Bool.and_eq_true, decide_eq_true_eq, beq_iff_eq] at hcovers
  obtain ⟨⟨hlo, hhi⟩, hmod⟩ := hcovers
  rcases happart with (hbefore | hafter) | ⟨⟨hstride, hstride'⟩, hodd⟩
  · omega
  · omega
  · have heven := heven hstride
    rw [hstride'] at hmod
    omega

end

/-- The lower case of a scalar value is one, and its own lower case. -/
theorem lowerRune_spec {r : Nat} (hr : Scalar r) :
    Scalar (lowerRune r) ∧ lowerRune (lowerRune r) = lowerRune r := by
  by_cases hascii : r < 0x80
  · have htable : ∀ r < 0x80, Scalar (lowerRune r) ∧ lowerRune (lowerRune r) = lowerRune r := by
      decide +kernel
    exact htable r hascii
  have hlower : lowerRune r =
      ((lowerRanges.find? (fun g => g.covers r)).map (fun g => g.lower r)).getD r := by
    rw [lowerRune, if_neg hascii]
    cases lowerRanges.find? (fun g => g.covers r) <;> rfl
  cases hfind : lowerRanges.find? (fun g => g.covers r) with
  | none =>
      rw [hfind] at hlower
      have hsame : lowerRune r = r := hlower
      rw [hsame]
      exact ⟨hr, hsame⟩
  | some g =>
      rw [hfind] at hlower
      have hat : lowerRune r = g.lower r := hlower
      have hcovers : g.covers r = true := List.find?_some (p := fun g : LowerRange => g.covers r) hfind
      have hsettled := lowerRanges_settled g (List.mem_of_find?_eq_some hfind)
      simp only [LowerRange.settled, Bool.and_eq_true, Bool.or_eq_true, decide_eq_true_eq]
        at hsettled
      obtain ⟨⟨⟨hlow, hscalar⟩, hplane⟩, happart⟩ := hsettled
      obtain ⟨hfrom, hto, -⟩ := LowerRange.lower_of_covers hcovers hlow
      rw [hat]
      refine ⟨by unfold Scalar; omega, ?_⟩
      -- no range covers it, and among ASCII it is no capital
      have hnone : lowerRanges.find? (fun g' => g'.covers (g.lower r)) = none := by
        refine List.find?_eq_none.mpr (fun g' hg' => ?_)
        exact LowerRange.not_covers_of_apart hcovers hlow (List.all_eq_true.mp happart g' hg')
      rw [lowerRune]
      split
      · exact if_neg (by omega)
      · rw [hnone]

/-- An ASCII byte is a rune, and its lower case is one byte. -/
theorem appendRune_lowerRune (b : UInt8) (h : b < 0x80) :
    appendRune (lowerRune b.toNat) = [lowerASCII b] :=
  forall_byte (P := fun b => b < 0x80 → appendRune (lowerRune b.toNat) = [lowerASCII b])
    (by decide +kernel) b h

theorem runes_ascii {b : UInt8} (h : b < 0x80) (s : Bytes) :
    runes (b :: s) = b.toNat :: runes s := by
  have hlen : runeLen (b :: s) = 1 := (Encoding.one (UInt8.lt_iff_toNat_lt.mp h)).runeLen_eq (by decide)
  have hat : runeAt (b :: s) = b.toNat := by
    unfold runeAt
    rw [hlen]
    rfl
  rw [runes_cons, hlen, hat]
  rfl

/-- The path for ASCII gives what the mapping of runes gives. -/
theorem toLower_eq (s : Bytes) : toLower s = mapRunes lowerRune s := by
  rw [toLower]
  split
  · next hascii =>
      induction s with
      | nil => rfl
      | cons b s ih =>
          rw [List.all_cons, Bool.and_eq_true, decide_eq_true_eq] at hascii
          rw [List.map_cons, ih hascii.2, mapRunes, mapRunes, runes_ascii hascii.1]
          show _ = appendRune (lowerRune b.toNat) ++ _
          rw [appendRune_lowerRune b hascii.1]
          rfl
  · rfl

/-- So it is lowered on its own, whatever follows. -/
theorem toLower_cons {c : UInt8} (h : c < 0x80) (s : Bytes) :
    toLower (c :: s) = lowerASCII c :: toLower s := by
  rw [toLower_eq, toLower_eq, mapRunes, mapRunes, runes_ascii h]
  show appendRune (lowerRune c.toNat) ++ _ = _
  rw [appendRune_lowerRune c h]
  rfl

theorem toLower_ne_nil {s : Bytes} (h : s ≠ []) : toLower s ≠ [] := by
  obtain ⟨a, s, rfl⟩ := List.exists_cons_of_ne_nil h
  rw [toLower_eq, mapRunes, runes_cons, List.map_cons, List.flatMap_cons]
  exact List.append_ne_nil_of_left_ne_nil (appendRune_ne_nil _) _

/-- **LOWERING TWICE** is lowering once: the table lowers no rune that it gives. -/
theorem toLower_toLower (s : Bytes) : toLower (toLower s) = toLower s := by
  have hscalar : ∀ r ∈ (runes s).map lowerRune, Scalar r := by
    intro r hr
    obtain ⟨r, hmem, rfl⟩ := List.mem_map.mp hr
    exact (lowerRune_spec (scalar_of_mem_runes hmem)).1
  have hagain : ((runes s).map lowerRune).map lowerRune = (runes s).map lowerRune := by
    rw [List.map_map]
    refine List.map_congr_left (fun r hr => ?_)
    exact (lowerRune_spec (scalar_of_mem_runes hr)).2
  rw [toLower_eq, toLower_eq, mapRunes, mapRunes, runes_encode hscalar, hagain]

-- the Kelvin sign lowers to `k`, `Ö` to `ö`, and a byte that begins no rune becomes `U+FFFD`
example : toLower [0xE2, 0x84, 0xAA, 0xC3, 0x96, 0xFF] = [107, 0xC3, 0xB6, 0xEF, 0xBF, 0xBD] := by
  decide +kernel

end ByteString
