import VBuckets.CanonicalProofs
import Mathlib.Logic.Function.Iterate

/-! # The normal form of a header value

    `canonicalHeaderValue` replaces pairs of spaces until there are none.  A round
    leaves half of every run, so the loop ends, and it ends in the text that a single
    pass over the runs gives (`canonicalHeaderValue_eq`).

    Two facts make that a normal form.

    * **`equalUpToRuns_iff`** — two texts squeeze to the same text exactly when they
      differ in nothing but the lengths of their runs of spaces.
    * **`trimSpace_squeezeSpaces`** — squeezing a trimmed text leaves nothing to trim:
      bytes that make up a wide space are never spaces themselves. -/

namespace S3

open ByteString

/-! ## Texts up to the lengths of their runs -/

/-- The same text up to the lengths of the runs of spaces in it. -/
inductive EqualUpToRuns : Bytes → Bytes → Prop
  | nil : EqualUpToRuns [] []
  | byte {b : UInt8} {s t : Bytes} (hb : b ≠ 32) (h : EqualUpToRuns s t) :
      EqualUpToRuns (b :: s) (b :: t)
  | run {s t : Bytes} (m n : Nat) (hs : s.head? ≠ some 32) (ht : t.head? ≠ some 32)
      (h : EqualUpToRuns s t) :
      EqualUpToRuns (List.replicate (m + 1) 32 ++ s) (List.replicate (n + 1) 32 ++ t)

theorem squeezeSpaces_run (n : Nat) {s : Bytes} (hs : s.head? ≠ some 32) :
    squeezeSpaces (List.replicate (n + 1) 32 ++ s) = 32 :: squeezeSpaces s := by
  induction n with
  | zero =>
      show squeezeSpaces (32 :: s) = _
      rw [squeezeSpaces, if_neg (fun h => hs h.2)]
  | succ n ih =>
      show squeezeSpaces (32 :: (List.replicate (n + 1) 32 ++ s)) = _
      rw [squeezeSpaces, if_pos ⟨rfl, rfl⟩, ih]

/-- A text that begins with a space begins with a run of them. -/
theorem exists_run_of_space (s : Bytes) : ∃ n rest, 32 :: s = List.replicate (n + 1) 32 ++ rest ∧
    rest.head? ≠ some 32 ∧ rest.length ≤ s.length := by
  induction s with
  | nil => exact ⟨0, [], rfl, nofun, Nat.le_refl _⟩
  | cons b s ih =>
      by_cases hb : b = 32
      · subst hb
        obtain ⟨n, rest, hrun, hrest, hlength⟩ := ih
        refine ⟨n + 1, rest, ?_, hrest, Nat.le_succ_of_le hlength⟩
        rw [List.replicate_succ, List.cons_append, ← hrun]
      · refine ⟨0, b :: s, rfl, ?_, Nat.le_refl _⟩
        rw [List.head?_cons]
        exact fun h => hb (Option.some.inj h)

/-- Values that differ in the lengths of their runs of blanks only are signed alike. -/
theorem EqualUpToRuns.squeezeSpaces_eq {s t : Bytes} (h : EqualUpToRuns s t) :
    squeezeSpaces s = squeezeSpaces t := by
  induction h with
  | nil => rfl
  | byte hb _ ih => rw [squeezeSpaces_cons hb, squeezeSpaces_cons hb, ih]
  | run m n hs ht _ ih => rw [squeezeSpaces_run m hs, squeezeSpaces_run n ht, ih]

/-- **RUN LENGTHS** are all that squeezing forgets. -/
theorem equalUpToRuns_iff {s t : Bytes} :
    EqualUpToRuns s t ↔ squeezeSpaces s = squeezeSpaces t := by
  refine ⟨EqualUpToRuns.squeezeSpaces_eq, ?_⟩
  -- by induction on the length: a leading run is taken off as a whole
  induction hlength : s.length using Nat.strong_induction_on generalizing s t with
  | _ length ih =>
      intro h
      have hheads : s.head? = t.head? := by
        rw [← head_squeezeSpaces s, ← head_squeezeSpaces t, h]
      match s, t, hheads with
      | [], [], _ => exact .nil
      | b :: s, b' :: t, hheads =>
          obtain rfl : b = b' := Option.some.inj hheads
          by_cases hb : b = 32
          · subst hb
            obtain ⟨m, rest, hrun, hrest, hle⟩ := exists_run_of_space s
            obtain ⟨n, rest', hrun', hrest', -⟩ := exists_run_of_space t
            rw [hrun, hrun', squeezeSpaces_run m hrest, squeezeSpaces_run n hrest'] at h
            rw [hrun, hrun']
            have hlt : rest.length < length := by
              rw [← hlength, List.length_cons]
              exact Nat.lt_succ_of_le hle
            exact .run m n hrest hrest' (ih rest.length hlt rfl (List.cons.inj h).2)
          · rw [squeezeSpaces_cons hb, squeezeSpaces_cons hb] at h
            have hlt : s.length < length := by
              rw [← hlength]
              exact Nat.lt_succ_self _
            exact .byte hb (ih s.length hlt rfl (List.cons.inj h).2)

theorem squeezeSpaces_squeezeSpaces (s : Bytes) :
    squeezeSpaces (squeezeSpaces s) = squeezeSpaces s := by
  induction s with
  | nil => rfl
  | cons b s ih =>
      rw [squeezeSpaces]
      split
      · exact ih
      · next hpair => rw [squeezeSpaces, head_squeezeSpaces, if_neg hpair, ih]

/-- Two blanks in a row do not survive. -/
theorem contains_squeezeSpaces (s : Bytes) : contains (squeezeSpaces s) (ascii "  ") = false := by
  induction s with
  | nil => rfl
  | cons b s ih =>
      rw [squeezeSpaces]
      split
      · exact ih
      · next hpair =>
          rw [contains, ih, Bool.or_false, Bool.eq_false_iff]
          intro h
          obtain ⟨rest, hrest⟩ := hasPrefix_iff.mp h
          obtain ⟨rfl, htail⟩ := List.cons.inj hrest
          refine hpair ⟨rfl, ?_⟩
          rw [← head_squeezeSpaces, ← htail]
          rfl

/-! ## Squeezing and trimming -/

/-- Squeezing from the other end: a blank is added unless there is one already. -/
theorem squeezeSpaces_concat (s : Bytes) (b : UInt8) : squeezeSpaces (s ++ [b]) =
    if b = 32 ∧ s.getLast? = some 32 then squeezeSpaces s else squeezeSpaces s ++ [b] := by
  have hone : ∀ b : UInt8, squeezeSpaces [b] = [b] := by
    intro b
    simp [squeezeSpaces]
  induction s with
  | nil =>
      rw [if_neg (fun h => by cases h.2)]
      exact hone b
  | cons c s ih =>
      rw [List.cons_append, squeezeSpaces, ih]
      cases s with
      | nil =>
          by_cases hpair : c = 32 ∧ b = 32
          · obtain ⟨rfl, rfl⟩ := hpair
            rfl
          · rw [if_neg (fun h => hpair ⟨h.1, Option.some.inj h.2⟩),
              if_neg (fun h => by cases h.2),
              if_neg (fun h => hpair ⟨Option.some.inj h.2, h.1⟩), hone]
            rfl
      -- with two bytes or more the front is squeezed without regard to the end
      | cons d s =>
          rw [List.getLast?_cons_cons, squeezeSpaces.eq_def (c :: d :: s)]
          by_cases hfront : c = 32 ∧ d = 32
          · rw [if_pos (by simpa using hfront)]
            simp only [List.head?_cons, Option.some.injEq]
            rw [if_pos hfront]
          · rw [if_neg (by simpa using hfront)]
            simp only [List.head?_cons, Option.some.injEq]
            rw [if_neg hfront]
            split
            · rfl
            · rfl

/-- Hence the direction does not matter. -/
theorem squeezeSpaces_reverse (s : Bytes) :
    squeezeSpaces s.reverse = (squeezeSpaces s).reverse := by
  induction s with
  | nil => rfl
  | cons b s ih =>
      rw [List.reverse_cons, squeezeSpaces_concat, List.getLast?_reverse, ih, squeezeSpaces]
      split
      · rfl
      · rw [List.reverse_cons]

/-- A wide space has no space in the middle, so squeezing makes none at the front. -/
theorem frontClean_squeezeSpaces {two : UInt8 → UInt8 → Bool}
    {three : UInt8 → UInt8 → UInt8 → Bool} {s : Bytes} (h : FrontClean two three s)
    (hthree : ∀ a c, three a 32 c = false) : FrontClean two three (squeezeSpaces s) := by
  cases s with
  | nil => exact h
  | cons a s =>
      have ha : isASCIISpace a = false := h.one a ⟨s, rfl⟩
      have hne : a ≠ 32 := by
        rintro rfl
        exact nomatch ha
      rw [squeezeSpaces_cons hne]
      refine ⟨?_, ?_, ?_⟩
      · rintro a' ⟨rest, hrest⟩
        cases hrest
        exact ha
      · rintro a' b ⟨rest, hrest⟩
        obtain ⟨rfl, htail⟩ := List.cons.inj hrest
        have hhead := head_squeezeSpaces s
        rw [← htail] at hhead
        obtain ⟨tail, rfl⟩ := List.head?_eq_some_iff.mp hhead.symm
        exact h.two _ b ⟨tail, rfl⟩
      · rintro a' b c ⟨rest, hrest⟩
        obtain ⟨rfl, htail⟩ := List.cons.inj hrest
        -- only a blank could have been dropped after the second byte
        by_cases hb : b = 32
        · rw [hb]
          exact hthree _ c
        · have hhead := head_squeezeSpaces s
          rw [← htail] at hhead
          obtain ⟨tail, rfl⟩ := List.head?_eq_some_iff.mp hhead.symm
          rw [squeezeSpaces_cons hb] at htail
          have hhead' := head_squeezeSpaces tail
          rw [← (List.cons.inj htail).2] at hhead'
          obtain ⟨tail', rfl⟩ := List.head?_eq_some_iff.mp hhead'.symm
          exact h.three _ b c ⟨tail', rfl⟩

/-- Squeezing a trimmed value leaves it trimmed. -/
theorem trimSpace_squeezeSpaces {s : Bytes} (h : trimSpace s = s) :
    trimSpace (squeezeSpaces s) = squeezeSpaces s := by
  obtain ⟨hfront, hback⟩ := trimSpace_eq_self_iff.mp h
  have hmiddle : ∀ a c, isSpace3 a 32 c = false := by
    intro a c
    simp [isSpace3]
  rw [trimSpace_eq_self_iff, ← squeezeSpaces_reverse]
  exact ⟨frontClean_squeezeSpaces hfront hmiddle,
    frontClean_squeezeSpaces hback (fun a c => hmiddle c a)⟩

/-! ## The loop -/

/-- The loop ends, after the rounds in which there was a pair to replace. -/
theorem collapseSpaces_iterates {rounds : Nat} {value : Bytes} (h : value.length ≤ rounds) :
    ∃ n, (∀ i, i < n → contains (halveSpaces^[i] value) (ascii "  ") = true) ∧
      contains (halveSpaces^[n] value) (ascii "  ") = false ∧
      collapseSpaces rounds value = halveSpaces^[n] value := by
  induction rounds generalizing value with
  | zero =>
      rw [List.eq_nil_of_length_eq_zero (Nat.le_zero.mp h)]
      exact ⟨0, fun i hi => absurd hi (Nat.not_lt_zero i), rfl, rfl⟩
  | succ rounds ih =>
      rw [collapseSpaces]
      cases hpair : contains value (ascii "  ") with
      | false => exact ⟨0, fun i hi => absurd hi (Nat.not_lt_zero i), hpair, rfl⟩
      | true =>
          have hlt := (length_halveSpaces value).2 hpair
          obtain ⟨n, hbefore, hend, hresult⟩ := ih (show (halveSpaces value).length ≤ rounds by omega)
          refine ⟨n + 1, ?_, hend, hresult⟩
          intro i hi
          cases i with
          | zero => exact hpair
          | succ i => exact hbefore i (Nat.lt_of_succ_lt_succ hi)

/-- **THE NORMAL FORM OF A HEADER VALUE**: the loop ends on every value, in the trimmed value
    with one space for each of its runs; the result has no pair of spaces and is a fixed
    point, and two values share it exactly when their trimmed texts are the same up to the
    lengths of the runs. -/
theorem header_value_normal_form (value : Bytes) :
    (∃ n, (∀ i, i < n → contains (halveSpaces^[i] (trimSpace value)) (ascii "  ") = true) ∧
      contains (halveSpaces^[n] (trimSpace value)) (ascii "  ") = false ∧
      canonicalHeaderValue value = halveSpaces^[n] (trimSpace value)) ∧
    canonicalHeaderValue value = squeezeSpaces (trimSpace value) ∧
    EqualUpToRuns (trimSpace value) (canonicalHeaderValue value) ∧
    contains (canonicalHeaderValue value) (ascii "  ") = false ∧
    canonicalHeaderValue (canonicalHeaderValue value) = canonicalHeaderValue value ∧
    ∀ other, canonicalHeaderValue value = canonicalHeaderValue other ↔
      EqualUpToRuns (trimSpace value) (trimSpace other) := by
  refine ⟨collapseSpaces_iterates (Nat.le_refl _), canonicalHeaderValue_eq value, ?_, ?_, ?_, ?_⟩
  · rw [equalUpToRuns_iff, canonicalHeaderValue_eq, squeezeSpaces_squeezeSpaces]
  · rw [canonicalHeaderValue_eq]
    exact contains_squeezeSpaces _
  · rw [canonicalHeaderValue_eq (canonicalHeaderValue value), canonicalHeaderValue_eq,
      trimSpace_squeezeSpaces (trimSpace_trimSpace value), squeezeSpaces_squeezeSpaces]
  · intro other
    rw [equalUpToRuns_iff, canonicalHeaderValue_eq, canonicalHeaderValue_eq]

example : canonicalHeaderValue (ascii "  a    b \t") = ascii "a b" := by decide +kernel

end S3
