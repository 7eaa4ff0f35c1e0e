import VBuckets.RuneProofs

/-! # Regular expressions

    The part of Go's `regexp` that a translation of wildcards needs: the runes of a text,
    expressions made of literal runes, `.`, a star on one of them and the two anchors, and
    `MatchString`.

    A text is read as its runes.  Without flags `.` is every rune but the newline. -/

namespace Regexp

open ByteString

/-! ## Runes -/

def newline : Rune := 10

/-- What a rune takes from the front of a text: a newline is itself, and no other rune holds
    one. -/
structure Takes (b : UInt8) (s : Bytes) : Prop where
  rune : runeAt (b :: s) = newline ↔ b = 10
  rest : (10 : UInt8) ∉ s.take (runeLen (b :: s) - 1)

theorem takes (a : UInt8) (s : Bytes) : Takes a s := by
  -- bytes from 0x80 on are no newline, so only the one-byte rune can be one
  have hten : ∀ {b : UInt8}, 0x80 ≤ b.toNat → b ≠ 10 := by
    rintro b hb rfl
    exact absurd hb (by decide)
  have henc := encoding_runeLen a s
  refine ⟨?_, ?_⟩
  · unfold runeAt
    generalize runeLen (a :: s) = n at henc ⊢
    cases henc with
    | one ha =>
        show a.toNat = 10 ↔ _
        rw [← UInt8.toNat_inj]
        rfl
    | two ha hb =>
        refine iff_of_false ?_ (hten (by omega))
        show (a.toNat - 0xC0) * 64 + _ ≠ 10
        omega
    | three ha hb hc hlow hhigh =>
        refine iff_of_false ?_ (hten (by omega))
        show (a.toNat - 0xE0) * 4096 + _ + _ ≠ 10
        omega
    | four ha hb hc hd hlow hhigh =>
        refine iff_of_false ?_ (hten (by omega))
        show (a.toNat - 0xF0) * 262144 + _ + _ + _ ≠ 10
        omega
    | invalid ha => exact iff_of_false (show (0xFFFD : Nat) ≠ 10 by decide) (hten ha)
  · generalize runeLen (a :: s) = n at henc ⊢
    cases henc with
    | one ha => exact List.not_mem_nil
    | two ha hb => simpa using (hten hb.1).symm
    | three ha hb hc hlow hhigh => simpa using ⟨(hten hb.1).symm, (hten hc.1).symm⟩
    | four ha hb hc hd hlow hhigh =>
        simpa using ⟨(hten hb.1).symm, (hten hc.1).symm, (hten hd.1).symm⟩
    | invalid ha => exact List.not_mem_nil

theorem newline_mem_runesFrom {fuel : Nat} {s : Bytes} (h : s.length ≤ fuel) :
    newline ∈ runesFrom fuel s ↔ (10 : UInt8) ∈ s := by
  induction fuel generalizing s with
  | zero =>
      rw [List.length_eq_zero_iff.mp (Nat.le_zero.mp h)]
      exact iff_of_false List.not_mem_nil List.not_mem_nil
  | succ fuel ih =>
      cases s with
      | nil => exact iff_of_false List.not_mem_nil List.not_mem_nil
      | cons a s =>
          obtain ⟨hrune, hrest⟩ := takes a s
          have hdrop : (s.drop (runeLen (a :: s) - 1)).length ≤ fuel := by
            rw [List.length_drop]
            rw [List.length_cons] at h
            omega
          -- the bytes the rune took hold no newline
          have hs : (10 : UInt8) ∈ s ↔ (10 : UInt8) ∈ s.drop (runeLen (a :: s) - 1) := by
            conv_lhs => rw [← List.take_append_drop (runeLen (a :: s) - 1) s]
            rw [List.mem_append]
            exact ⟨fun hm => hm.resolve_left hrest, Or.inr⟩
          rw [runesFrom, List.mem_cons, List.mem_cons, ih hdrop, hs, eq_comm, hrune, eq_comm]

theorem newline_mem_runes (s : Bytes) : newline ∈ runes s ↔ (10 : UInt8) ∈ s :=
  newline_mem_runesFrom (Nat.le_refl _)

/-! ## Expressions -/

/-- One rune: a given one, or any but the newline. -/
inductive Atom where
  | rune (r : Rune)
  | any
  deriving DecidableEq

def Atom.accepts : Atom → Rune → Bool
  | .rune r, c => c == r
  | .any, c => c != newline

/-- A concatenation is a list of these. -/
inductive Item where
  | beginText
  | endText
  | one (a : Atom)
  | star (a : Atom)
  deriving DecidableEq

/-- The symbols of an expression's text. -/
inductive Symbol where
  | atom (a : Atom)
  | star
  | beginText
  | endText
  deriving DecidableEq

/-- The runes with a meaning of their own, `\.+*?()|[]\x7b\x7d^$`. -/
def isSpecial (r : Rune) : Bool :=
  [92, 46, 43, 42, 63, 40, 41, 124, 91, 93, 123, 125, 94, 36].contains r

def isWordRune (r : Rune) : Bool :=
  (48 ≤ r && r ≤ 57) || (65 ≤ r && r ≤ 90) || (97 ≤ r && r ≤ 122)

/-- One symbol that is no escape; other operators are outside this part of the syntax. -/
def plainSymbol (r : Rune) : Option Symbol :=
  if r = 46 then some (.atom .any)
  else if r = 42 then some .star
  else if r = 94 then some .beginText
  else if r = 36 then some .endText
  else if isSpecial r then none
  else some (.atom (.rune r))

/-- The symbols of a text.  A backslash before an ASCII character that is no letter and no
    digit stands for that character. -/
def symbols : List Rune → Option (List Symbol)
  | [] => some []
  | [r] => if r = 92 then none else (plainSymbol r).map (fun y => [y])
  | r :: c :: s =>
      if r = 92 then
        if c < 0x80 && !isWordRune c then (symbols s).map (.atom (.rune c) :: ·) else none
      else
        match plainSymbol r with
        | none => none
        | some y => (symbols (c :: s)).map (y :: ·)

/-- Attach each star to the atom before it. -/
def items : List Symbol → Option (List Item)
  | [] => some []
  | .star :: _ => none
  | .beginText :: ys => (items ys).map (.beginText :: ·)
  | .endText :: ys => (items ys).map (.endText :: ·)
  | .atom a :: .star :: ys => (items ys).map (.star a :: ·)
  | .atom a :: ys => (items ys).map (.one a :: ·)

/-- `regexp.Compile`. -/
def compile (text : List Rune) : Option (List Item) := (symbols text).bind items

/-- `regexp.QuoteMeta` of one rune. -/
def quoteMeta (r : Rune) : List Rune := if isSpecial r then [92, r] else [r]

/-! ## Matching -/

/-- Zero or more runes an atom accepts, then `next`. -/
def starHere (a : Atom) (next : Bool → List Rune → Bool) : Bool → List Rune → Bool
  | start, [] => next start []
  | start, r :: s => next start (r :: s) || (a.accepts r && starHere a next false s)

/-- A match at this position; `start` says whether it is the start of the text. -/
def matchHere : List Item → Bool → List Rune → Bool
  | [], _, _ => true
  | .beginText :: is, start, s => start && matchHere is start s
  | .endText :: is, start, s => s.isEmpty && matchHere is start s
  | .one _ :: _, _, [] => false
  | .one a :: is, _, r :: s => a.accepts r && matchHere is false s
  | .star a :: is, start, s => starHere a (matchHere is) start s

/-- A match at this position or a later one. -/
def search (is : List Item) : Bool → List Rune → Bool
  | start, [] => matchHere is start []
  | start, r :: s => matchHere is start (r :: s) || search is false s

/-- `MatchString`. -/
def matchString (is : List Item) (value : Bytes) : Bool := search is true (runes value)

/-! ## Rules -/

theorem search_later (is : List Item) (s : List Rune) :
    search (.beginText :: is) false s = false := by
  induction s with
  | nil => rfl
  | cons r s ih =>
      rw [search, ih]
      rfl

/-- An expression that starts with the anchor matches at the start only. -/
theorem search_beginText (is : List Item) (s : List Rune) :
    search (.beginText :: is) true s = matchHere is true s := by
  cases s with
  | nil => rfl
  | cons r s =>
      rw [search, search_later, Bool.or_false]
      rfl

theorem starHere_iff {a : Atom} {next : Bool → List Rune → Bool} {start : Bool} {s : List Rune}
    {P : List Rune → Prop} (hnext : ∀ start t, t <:+ s → (next start t = true ↔ P t)) :
    starHere a next start s = true ↔
      ∃ u t, s = u ++ t ∧ (∀ r ∈ u, a.accepts r = true) ∧ P t := by
  induction s generalizing start with
  | nil =>
      rw [starHere, hnext start [] (List.suffix_refl _)]
      constructor
      · exact fun h => ⟨[], [], rfl, fun r hr => (nomatch hr), h⟩
      · rintro ⟨u, t, he, -, ht⟩
        rw [(List.append_eq_nil_iff.mp he.symm).2] at ht
        exact ht
  | cons r s ih =>
      have hlater := fun start t (ht : t <:+ s) => hnext start t (ht.trans (List.suffix_cons r s))
      rw [starHere, Bool.or_eq_true, Bool.and_eq_true, hnext start _ (List.suffix_refl _),
        ih hlater]
      constructor
      · rintro (h | ⟨hr, u, t, rfl, hu, ht⟩)
        · exact ⟨[], _, rfl, fun r hr => (nomatch hr), h⟩
        · exact ⟨r :: u, t, rfl, List.forall_mem_cons.mpr ⟨hr, hu⟩, ht⟩
      · rintro ⟨u, t, he, hu, ht⟩
        cases u with
        | nil =>
            rw [he]
            exact Or.inl ht
        | cons r' u =>
            obtain ⟨rfl, rfl⟩ := List.cons.inj he
            obtain ⟨hr, hu⟩ := List.forall_mem_cons.mp hu
            exact Or.inr ⟨hr, u, t, rfl, hu, ht⟩

/-- An operator before a text. -/
theorem symbols_plain {r : Rune} {y : Symbol} (hr : r ≠ 92) (hy : plainSymbol r = some y)
    {s : List Rune} {ys : List Symbol} (h : symbols s = some ys) :
    symbols (r :: s) = some (y :: ys) := by
  cases s with
  | nil =>
      cases h
      rw [symbols, if_neg hr, hy]
      rfl
  | cons c s =>
      rw [symbols, if_neg hr, hy, h]
      rfl

/-- A quoted rune is read as itself. -/
theorem symbols_quoteMeta (r : Rune) {s : List Rune} {ys : List Symbol}
    (h : symbols s = some ys) : symbols (quoteMeta r ++ s) = some (.atom (.rune r) :: ys) := by
  rw [quoteMeta]
  by_cases hr : isSpecial r = true
  · have hplain : (r < 0x80 && !isWordRune r) = true := by
      have hall : ∀ r ∈ [92, 46, 43, 42, 63, 40, 41, 124, 91, 93, 123, 125, 94, 36],
          (r < 0x80 && !isWordRune r) = true := by
        decide
      exact hall r (List.elem_iff.mp hr)
    rw [if_pos hr]
    show symbols (92 :: r :: s) = _
    rw [symbols, if_pos rfl, if_pos hplain, h]
    rfl
  · have hne : ∀ c, isSpecial c = true → r ≠ c := by
      rintro c hc rfl
      exact hr hc
    have hplain : plainSymbol r = some (.atom (.rune r)) := by
      rw [plainSymbol, if_neg (hne _ (by decide)), if_neg (hne _ (by decide)),
        if_neg (hne _ (by decide)), if_neg (hne _ (by decide)), if_neg hr]
    rw [if_neg hr, List.singleton_append]
    exact symbols_plain (hne _ (by decide)) hplain h

end Regexp
