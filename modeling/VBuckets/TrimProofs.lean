import VBuckets.ByteStringProofs

/-! # Trimming

    `strings.TrimSpace` drops runes of white space from both ends.  The two tests of
    `dropSpace` see at most three bytes, so what a trimmed text is can be said of its
    first three bytes (`FrontClean`), for the back of a text by reversing it.  The rest
    of the development uses trimming through that.  `strings.Trim` of one byte is the
    same with one test. -/

namespace ByteString

variable {two : UInt8 → UInt8 → Bool} {three : UInt8 → UInt8 → UInt8 → Bool} {s t : Bytes}

/-- What is left after dropping blanks is an end of the text. -/
theorem dropSpace_suffix (two : UInt8 → UInt8 → Bool) (three : UInt8 → UInt8 → UInt8 → Bool)
    (s : Bytes) : dropSpace two three s <:+ s := by
  fun_induction dropSpace two three s with
  | case1 => exact List.suffix_refl []
  | case2 a s _ ih => exact ih.trans (List.suffix_cons a s)
  | case3 a _ => exact List.suffix_refl [a]
  | case4 a _ b s _ ih => exact (ih.trans (List.suffix_cons b s)).trans (List.suffix_cons a _)
  | case5 a _ b _ => exact List.suffix_refl [a, b]
  | case6 a _ b _ c s _ ih =>
      exact ((ih.trans (List.suffix_cons c s)).trans (List.suffix_cons b _)).trans
        (List.suffix_cons a _)
  | case7 a _ b _ c s _ => exact List.suffix_refl (a :: b :: c :: s)

theorem mem_trimSpace {b : UInt8} {s : Bytes} (h : b ∈ trimSpace s) : b ∈ s := by
  rw [trimSpace, List.mem_reverse] at h
  have hback := List.mem_reverse.mp ((dropSpace_suffix _ _ _).subset h)
  exact (dropSpace_suffix _ _ s).subset hback

/-- No rune of white space stands at the front. -/
structure FrontClean (two : UInt8 → UInt8 → Bool) (three : UInt8 → UInt8 → UInt8 → Bool)
    (s : Bytes) : Prop where
  one : ∀ a, [a] <+: s → isASCIISpace a = false
  two : ∀ a b, [a, b] <+: s → two a b = false
  three : ∀ a b c, [a, b, c] <+: s → three a b c = false

theorem FrontClean.cut (h : FrontClean two three s) (hts : t <+: s) :
    FrontClean two three t :=
  ⟨fun a hp => h.one a (hp.trans hts), fun a b hp => h.two a b (hp.trans hts),
    fun a b c hp => h.three a b c (hp.trans hts)⟩

/-- A text that begins with no blank is left alone, in UTF-8 too. -/
theorem dropSpace_of_frontClean (h : FrontClean two three s) : dropSpace two three s = s := by
  match s with
  | [] => rfl
  | [a] => simp [dropSpace, h.one a (List.prefix_refl _)]
  | [a, b] =>
      have ha := h.one a ⟨[b], rfl⟩
      simp [dropSpace, ha, h.two a b (List.prefix_refl _)]
  | a :: b :: c :: s =>
      have ha := h.one a ⟨b :: c :: s, rfl⟩
      have hab := h.two a b ⟨c :: s, rfl⟩
      simp [dropSpace, ha, hab, h.three a b c ⟨s, rfl⟩]

/-- What is left is clean, by induction over the dropped runes. -/
theorem frontClean_dropSpace (two : UInt8 → UInt8 → Bool)
    (three : UInt8 → UInt8 → UInt8 → Bool) (s : Bytes) :
    FrontClean two three (dropSpace two three s) := by
  fun_induction dropSpace two three s with
  | case1 =>
      refine ⟨fun a h => ?_, fun a b h => ?_, fun a b c h => ?_⟩ <;>
        exact nomatch List.prefix_nil.mp h
  | case2 a s _ ih => exact ih
  | case3 a ha =>
      refine ⟨?_, ?_, ?_⟩
      · rintro a' ⟨t, ht⟩
        cases ht
        exact Bool.eq_false_iff.mpr ha
      · rintro a' b ⟨t, ht⟩
        exact nomatch ht
      · rintro a' b c ⟨t, ht⟩
        exact nomatch ht
  | case4 a _ b s _ ih => exact ih
  | case5 a ha b hab =>
      refine ⟨?_, ?_, ?_⟩
      · rintro a' ⟨t, ht⟩
        cases ht
        exact Bool.eq_false_iff.mpr ha
      · rintro a' b' ⟨t, ht⟩
        cases ht
        exact Bool.eq_false_iff.mpr hab
      · rintro a' b' c ⟨t, ht⟩
        exact nomatch ht
  | case6 a _ b _ c s _ ih => exact ih
  | case7 a ha b hab c s habc =>
      refine ⟨?_, ?_, ?_⟩
      · rintro a' ⟨t, ht⟩
        cases ht
        exact Bool.eq_false_iff.mpr ha
      · rintro a' b' ⟨t, ht⟩
        cases ht
        exact Bool.eq_false_iff.mpr hab
      · rintro a' b' c' ⟨t, ht⟩
        cases ht
        exact Bool.eq_false_iff.mpr habc

/-- And only such a text is. -/
theorem dropSpace_eq_self_iff : dropSpace two three s = s ↔ FrontClean two three s := by
  constructor
  · intro h
    rw [← h]
    exact frontClean_dropSpace two three s
  · exact dropSpace_of_frontClean

/-- Nothing stands at either end of a trimmed text. -/
theorem trimSpace_eq_self_iff : trimSpace s = s ↔ FrontClean isSpace2 isSpace3 s ∧
    FrontClean (fun a b => isSpace2 b a) (fun a b c => isSpace3 c b a) s.reverse := by
  constructor
  · intro h
    rw [trimSpace] at h
    have hback := dropSpace_suffix (fun a b => isSpace2 b a) (fun a b c => isSpace3 c b a)
      (dropSpace isSpace2 isSpace3 s).reverse
    -- neither side can have dropped anything
    have hfront : dropSpace isSpace2 isSpace3 s = s := by
      refine (dropSpace_suffix isSpace2 isSpace3 s).eq_of_length_le ?_
      have hlength := hback.length_le
      rw [← List.length_reverse, h, List.length_reverse] at hlength
      exact hlength
    rw [hfront] at h
    refine ⟨dropSpace_eq_self_iff.mp hfront, dropSpace_eq_self_iff.mp ?_⟩
    rw [← List.reverse_reverse (dropSpace _ _ _), h]
  · rintro ⟨hfront, hback⟩
    rw [trimSpace, dropSpace_of_frontClean hfront, dropSpace_of_frontClean hback,
      List.reverse_reverse]

theorem trimSpace_trimSpace (s : Bytes) : trimSpace (trimSpace s) = trimSpace s := by
  rw [trimSpace_eq_self_iff]
  refine ⟨?_, ?_⟩
  · refine (frontClean_dropSpace isSpace2 isSpace3 s).cut ?_
    rw [trimSpace, ← List.reverse_suffix, List.reverse_reverse]
    exact dropSpace_suffix _ _ _
  · rw [trimSpace, List.reverse_reverse]
    exact frontClean_dropSpace _ _ _

/-! ## Graphic bytes -/

/-- A byte that is part of no rune of white space, whichever way the tests read. -/
structure Graphic (two : UInt8 → UInt8 → Bool) (three : UInt8 → UInt8 → UInt8 → Bool)
    (c : UInt8) : Prop where
  one : isASCIISpace c = false
  two : ∀ x, two c x = false ∧ two x c = false
  three : ∀ x y, three c x y = false ∧ three x c y = false ∧ three x y c = false

/-- Behind a graphic byte anything may stand. -/
theorem FrontClean.append_graphic (h : FrontClean two three s) {c : UInt8}
    (hc : Graphic two three c) (t : Bytes) : FrontClean two three (s ++ c :: t) := by
  refine ⟨?_, ?_, ?_⟩
  · rintro a ⟨r, hr⟩
    -- where the graphic byte stands among the first one, two or three
    match s with
    | [] =>
        cases hr
        exact hc.one
    | x :: s =>
        cases hr
        exact h.one a ⟨s, rfl⟩
  · rintro a b ⟨r, hr⟩
    match s with
    | [] =>
        cases hr
        exact (hc.two b).1
    | [x] =>
        cases hr
        exact (hc.two a).2
    | x :: y :: s =>
        cases hr
        exact h.two a b ⟨s, rfl⟩
  · rintro a b d ⟨r, hr⟩
    match s with
    | [] =>
        cases hr
        exact (hc.three b d).1
    | [x] =>
        cases hr
        exact (hc.three a d).2.1
    | [x, y] =>
        cases hr
        exact (hc.three a b).2.2
    | x :: y :: z :: s =>
        cases hr
        exact h.three a b d ⟨s, rfl⟩

/-- An ASCII byte that is no space. -/
theorem graphic_of_lt {c : UInt8} (hlt : c < 0x80) (hone : isASCIISpace c = false) :
    Graphic isSpace2 isSpace3 c ∧
      Graphic (fun a b => isSpace2 b a) (fun a b c => isSpace3 c b a) c := by
  have hne : ∀ k : UInt8, 0x80 ≤ k → (c == k) = false := by
    intro k hk
    rw [beq_eq_false_iff_ne]
    rintro rfl
    exact absurd hlt (UInt8.not_lt.mpr hk)
  have hle : decide ((0x80 : UInt8) ≤ c) = false := decide_eq_false (UInt8.not_le.mpr hlt)
  have htwo : ∀ x, isSpace2 c x = false ∧ isSpace2 x c = false := by
    intro x
    simp [isSpace2, hne 0xC2 (by decide), hne 0x85 (by decide), hne 0xA0 (by decide)]
  have hthree : ∀ x y, isSpace3 c x y = false ∧ isSpace3 x c y = false ∧
      isSpace3 x y c = false := by
    intro x y
    simp [isSpace3, hle, hne 0xE1 (by decide), hne 0xE2 (by decide), hne 0xE3 (by decide),
      hne 0x9A (by decide), hne 0x80 (by decide), hne 0x81 (by decide), hne 0x9F (by decide),
      hne 0xA8 (by decide), hne 0xA9 (by decide), hne 0xAF (by decide)]
  refine ⟨⟨hone, htwo, hthree⟩, ⟨hone, fun x => (htwo x).symm, fun x y => ?_⟩⟩
  exact ⟨(hthree y x).2.2, (hthree y x).2.1, (hthree y x).1⟩

/-- A graphic byte may be put behind a trimmed text. -/
theorem trimSpace_append_graphic {c : UInt8} (h : trimSpace s = s) (hlt : c < 0x80)
    (hone : isASCIISpace c = false) : trimSpace (s ++ [c]) = s ++ [c] := by
  obtain ⟨hfront, -⟩ := trimSpace_eq_self_iff.mp h
  obtain ⟨hleft, hright⟩ := graphic_of_lt hlt hone
  refine trimSpace_eq_self_iff.mpr ⟨hfront.append_graphic hleft [], ?_⟩
  rw [List.reverse_append]
  exact FrontClean.append_graphic (dropSpace_eq_self_iff.mp rfl) (s := []) hright s.reverse

/-- A text with graphic ends may be put before a trimmed text. -/
theorem trimSpace_graphic_append {c : UInt8} {head : Bytes} {d : UInt8} (h : trimSpace s = s)
    (hlt : c < 0x80) (hone : isASCIISpace c = false) (hlt' : d < 0x80)
    (hone' : isASCIISpace d = false) :
    trimSpace (c :: head ++ d :: s) = c :: head ++ d :: s := by
  obtain ⟨-, hback⟩ := trimSpace_eq_self_iff.mp h
  refine trimSpace_eq_self_iff.mpr ⟨?_, ?_⟩
  · exact FrontClean.append_graphic (dropSpace_eq_self_iff.mp rfl) (s := [])
      (graphic_of_lt hlt hone).1 (head ++ d :: s)
  · rw [List.reverse_append, List.reverse_cons, List.append_assoc]
    exact hback.append_graphic (graphic_of_lt hlt' hone').2 (c :: head).reverse

/-! ## One byte -/

section
variable {b : UInt8}

theorem head?_dropWhile_beq (b : UInt8) (s : Bytes) : (s.dropWhile (· == b)).head? ≠ some b := by
  intro h
  have hhead := List.head?_dropWhile_not (· == b) s
  rw [h] at hhead
  have hself : (b == b) = false := hhead
  rw [beq_self_eq_true] at hself
  exact nomatch hself

theorem dropWhile_beq_eq_self (h : s.head? ≠ some b) : s.dropWhile (· == b) = s := by
  cases s with
  | nil => rfl
  | cons c s =>
      refine List.dropWhile_cons_of_neg (fun hc => h ?_)
      rw [eq_of_beq hc]
      rfl

/-- What `trimByte` leaves has the byte at neither end. -/
theorem trimByte_ends (b : UInt8) (s : Bytes) :
    (trimByte b s).head? ≠ some b ∧ (trimByte b s).getLast? ≠ some b := by
  constructor
  · intro h
    -- the head of what is left is the head of what the front gave
    have hsuffix := List.dropWhile_suffix (l := (s.dropWhile (· == b)).reverse) (· == b)
    have hprefix_ := List.reverse_prefix.mpr hsuffix
    rw [List.reverse_reverse] at hprefix_
    obtain ⟨t, ht⟩ := hprefix_
    refine head?_dropWhile_beq b s ?_
    rw [← ht, List.head?_append]
    have hhead : ((s.dropWhile (· == b)).reverse.dropWhile (· == b)).reverse.head? = some b := h
    rw [hhead]
    rfl
  · rw [trimByte, List.getLast?_reverse]
    exact head?_dropWhile_beq b _

theorem trimByte_trimByte (b : UInt8) (s : Bytes) : trimByte b (trimByte b s) = trimByte b s := by
  obtain ⟨hhead, hlast⟩ := trimByte_ends b s
  generalize trimByte b s = t at hhead hlast ⊢
  rw [trimByte, dropWhile_beq_eq_self hhead, dropWhile_beq_eq_self, List.reverse_reverse]
  rw [List.head?_reverse]
  exact hlast

end

end ByteString
