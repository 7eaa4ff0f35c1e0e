import Mathlib.Data.List.Basic
import Mathlib.Data.List.Infix

/-! # Byte strings

    Strings of the modelled language are sequences of BYTES that need not be valid
    UTF-8, so every text here is a list of bytes.  The operations follow the
    language's `strings` and `unicode/utf8` packages under their own names.

    Case folding is only ever used to compare with an ASCII name.  Outside ASCII exactly
    two runes fold to an ASCII letter (`K` with `k`, `ſ` with `s`); `foldKey` treats those
    and keeps every other non-ASCII byte, which gives the answers of the Unicode tables for
    every such comparison.  Lower case is in `RuneProofs`. -/

namespace ByteString

/-- A Go string or byte slice.  Strings need not be valid text. -/
abbrev Bytes := List UInt8

/-- The bytes of an ASCII literal. -/
def ascii (s : String) : Bytes :=
  s.toList.map (fun c => UInt8.ofNat c.toNat)

/-- A literal is its characters.  Evaluating a table is much faster once its literals are
    rewritten to these, as nothing is decoded then. -/
theorem ascii_ofList (l : List Char) :
    ascii (String.ofList l) = l.map (fun c => UInt8.ofNat c.toNat) := by
  rw [ascii, String.toList_ofList]

theorem ascii_append (s t : String) : ascii (s ++ t) = ascii s ++ ascii t := by
  rw [ascii, ascii, ascii, String.toList_append, List.map_append]

/-! ## Prefixes, suffixes and substrings -/

/-- `strings.HasPrefix`. -/
def hasPrefix (s p : Bytes) : Bool := p.isPrefixOf s

/-- `strings.HasSuffix`. -/
def hasSuffix (s p : Bytes) : Bool := p.reverse.isPrefixOf s.reverse

/-- At most one occurrence is removed. -/
def trimPrefix (s p : Bytes) : Bytes :=
  if hasPrefix s p then s.drop p.length else s

/-- `strings.TrimSuffix`. -/
def trimSuffix (s p : Bytes) : Bytes :=
  if hasSuffix s p then s.take (s.length - p.length) else s

/-- `strings.Contains`. -/
def contains : Bytes → Bytes → Bool
  | [], sub => sub.isEmpty
  | b :: s, sub => hasPrefix (b :: s) sub || contains s sub

/-- `strings.Cut` at a one-byte separator: the text before and after its first
    occurrence, and whether there is one. -/
def cut (sep : UInt8) : Bytes → Bytes × Bytes × Bool
  | [] => ([], [], false)
  | b :: s =>
      if b = sep then ([], s, true)
      else (b :: (cut sep s).1, (cut sep s).2.1, (cut sep s).2.2)

/-- `strings.Split` at a one-byte separator; never empty. -/
def split (sep : UInt8) : Bytes → List Bytes
  | [] => [[]]
  | b :: s =>
      if b = sep then [] :: split sep s
      else
        match split sep s with
        | [] => [[b]]
        | w :: ws => (b :: w) :: ws

/-- `strings.Join` with a one-byte separator. -/
def join (sep : UInt8) : List Bytes → Bytes
  | [] => []
  | [w] => w
  | w :: ws => w ++ sep :: join sep ws

/-- `strings.Trim` of a one-byte cutset. -/
def trimByte (b : UInt8) (s : Bytes) : Bytes :=
  ((s.dropWhile (· == b)).reverse.dropWhile (· == b)).reverse

/-! ## White space -/

/-- `\t \n \v \f \r` and the space. -/
def isASCIISpace (b : UInt8) : Bool :=
  b == 9 || b == 10 || b == 11 || b == 12 || b == 13 || b == 32

/-- White-space runes of two bytes: U+0085 and U+00A0. -/
def isSpace2 (a b : UInt8) : Bool :=
  a == 0xC2 && (b == 0x85 || b == 0xA0)

/-- White-space runes of three bytes: U+1680, U+2000 to U+200A, U+2028, U+2029,
    U+202F, U+205F and U+3000. -/
def isSpace3 (a b c : UInt8) : Bool :=
  (a == 0xE1 && b == 0x9A && c == 0x80) ||
  (a == 0xE2 && b == 0x80 &&
    ((0x80 ≤ c && c ≤ 0x8A) || c == 0xA8 || c == 0xA9 || c == 0xAF)) ||
  (a == 0xE2 && b == 0x81 && c == 0x9F) ||
  (a == 0xE3 && b == 0x80 && c == 0x80)

/-- Drop white space from the front; the two tests see a rune's bytes in the order
    they stand in the list. -/
def dropSpace (two : UInt8 → UInt8 → Bool) (three : UInt8 → UInt8 → UInt8 → Bool) :
    Bytes → Bytes
  | [] => []
  | a :: s =>
      if isASCIISpace a then dropSpace two three s
      else
        match s with
        | [] => [a]
        | b :: s =>
            if two a b then dropSpace two three s
            else
              match s with
              | [] => [a, b]
              | c :: s =>
                  if three a b c then dropSpace two three s else a :: b :: c :: s

/-- `strings.TrimSpace`. -/
def trimSpace (s : Bytes) : Bytes :=
  (dropSpace (fun a b => isSpace2 b a) (fun a b c => isSpace3 c b a)
    (dropSpace isSpace2 isSpace3 s).reverse).reverse

/-! ## Case -/

/-- The letters `A` to `Z`. -/
def isUpperASCII (b : UInt8) : Bool := 65 ≤ b && b ≤ 90

/-- The letters `a` to `z`. -/
def isLowerASCII (b : UInt8) : Bool := 97 ≤ b && b ≤ 122

/-- The digits `0` to `9`. -/
def isDigitASCII (b : UInt8) : Bool := 48 ≤ b && b ≤ 57

/-- The small letter of a byte. -/
def lowerASCII (b : UInt8) : UInt8 := if isUpperASCII b then b + 32 else b

/-- The capital letter of a byte. -/
def upperASCII (b : UInt8) : UInt8 := if isLowerASCII b then b - 32 else b

/-- The representative of a string's simple-folding class. -/
def foldKey : Bytes → Bytes
  | [] => []
  | 0xC5 :: 0xBF :: s => 115 :: foldKey s
  | 0xE2 :: 0x84 :: 0xAA :: s => 107 :: foldKey s
  | b :: s => lowerASCII b :: foldKey s

/-- `strings.EqualFold`, for texts one of which is ASCII. -/
def equalFold (s t : Bytes) : Bool := foldKey s == foldKey t

/-! ## UTF-8 -/

/-- The bytes that continue a rune. -/
def isCont (b : UInt8) : Bool := 0x80 ≤ b && b ≤ 0xBF

/-- The length of the valid UTF-8 encoding at the front, or `0`. -/
def runeLen : Bytes → Nat
  | a :: s =>
      if a < 0x80 then 1
      else
        match s with
        | b :: s =>
            if 0xC2 ≤ a && a ≤ 0xDF && isCont b then 2
            else
              match s with
              | c :: s =>
                  if ((a == 0xE0 && 0xA0 ≤ b && b ≤ 0xBF) ||
                      (0xE1 ≤ a && a ≤ 0xEC && isCont b) ||
                      (a == 0xED && 0x80 ≤ b && b ≤ 0x9F) ||
                      (0xEE ≤ a && a ≤ 0xEF && isCont b)) && isCont c then 3
                  else
                    match s with
                    | d :: _ =>
                        if ((a == 0xF0 && 0x90 ≤ b && b ≤ 0xBF) ||
                            (0xF1 ≤ a && a ≤ 0xF3 && isCont b) ||
                            (a == 0xF4 && 0x80 ≤ b && b ≤ 0x8F)) &&
                            isCont c && isCont d then 4
                        else 0
                    | [] => 0
              | [] => 0
        | [] => 0
  | [] => 0

/-- `utf8.ValidString`, reading at most `fuel` runes. -/
def validFrom : Nat → Bytes → Bool
  | _, [] => true
  | 0, _ :: _ => false
  | fuel + 1, b :: s =>
      match runeLen (b :: s) with
      | 0 => false
      | n + 1 => validFrom fuel (s.drop n)

/-- `utf8.ValidString`. -/
def validString (s : Bytes) : Bool := validFrom s.length s

/-- Some rune of a valid string is a control character: U+0000 to U+001F and
    U+007F to U+009F. -/
def hasControl : Bytes → Bool
  | [] => false
  | 0xC2 :: b :: s => (0x80 ≤ b && b ≤ 0x9F) || hasControl (b :: s)
  | b :: s => b < 0x20 || b == 0x7F || hasControl s

/-! ## Lemmas -/

/-- Prefixes in the sense of lists, whose lemmas then apply. -/
theorem hasPrefix_iff {s p : Bytes} : hasPrefix s p = true ↔ p <+: s := by
  rw [hasPrefix, List.isPrefixOf_iff_prefix]

theorem contains_iff {s p : Bytes} : contains s p = true ↔ p <:+: s := by
  induction s with
  | nil => rw [contains, List.isEmpty_iff, List.infix_nil]
  | cons b s ih => rw [contains, Bool.or_eq_true, hasPrefix_iff, ih, List.infix_cons_iff]

theorem trimPrefix_append (p s : Bytes) : trimPrefix (p ++ s) p = s := by
  rw [trimPrefix, if_pos (hasPrefix_iff.mpr (List.prefix_append p s)), List.drop_left]

theorem hasSuffix_iff {s p : Bytes} : hasSuffix s p = true ↔ p <:+ s := by
  rw [hasSuffix, List.isPrefixOf_iff_prefix, List.reverse_prefix]

/-- A statement about single bytes is a table of 256 entries. -/
theorem forall_byte {P : UInt8 → Prop} (h : ∀ n < 256, P (UInt8.ofNat n)) (c : UInt8) : P c := by
  have hc := h c.toNat (UInt8.toNat_lt c)
  rwa [UInt8.ofNat_toNat] at hc

theorem lowerASCII_lowerASCII (b : UInt8) : lowerASCII (lowerASCII b) = lowerASCII b :=
  forall_byte (P := fun b => lowerASCII (lowerASCII b) = lowerASCII b) (by decide +kernel) b

section
variable {sep : UInt8}

theorem cut_of_notMem {s : Bytes} (h : sep ∉ s) : cut sep s = (s, [], false) := by
  induction s with
  | nil => rfl
  | cons b s ih =>
      rw [List.mem_cons, not_or] at h
      have hb : ¬ b = sep := fun hb => h.1 hb.symm
      simp only [cut, if_neg hb, ih h.2]

theorem cut_append {a : Bytes} (h : sep ∉ a) (b : Bytes) :
    cut sep (a ++ sep :: b) = (a, b, true) := by
  induction a with
  | nil => simp [cut]
  | cons c a ih =>
      rw [List.mem_cons, not_or] at h
      have hc : ¬ c = sep := fun hc => h.1 hc.symm
      simp only [List.cons_append, cut, if_neg hc, ih h.2]

/-- Splitting gives at least one part. -/
theorem split_ne_nil (sep : UInt8) (s : Bytes) : split sep s ≠ [] := by
  cases s with
  | nil => exact fun h => nomatch h
  | cons b s =>
      simp only [split]
      split
      · exact fun h => nomatch h
      · split
        · exact fun h => nomatch h
        · exact fun h => nomatch h

/-- Splitting goes piecewise over a separator. -/
theorem split_append (s t : Bytes) : split sep (s ++ sep :: t) = split sep s ++ split sep t := by
  induction s with
  | nil => simp [split]
  | cons b s ih =>
      by_cases hb : b = sep
      · simp only [List.cons_append, split, if_pos hb, ih]
      · simp only [List.cons_append, split, if_neg hb, ih]
        obtain ⟨w, ws, hw⟩ := List.exists_cons_of_ne_nil (split_ne_nil sep s)
        rw [hw]
        rfl

theorem split_of_notMem {s : Bytes} (h : sep ∉ s) : split sep s = [s] := by
  induction s with
  | nil => rfl
  | cons b s ih =>
      rw [List.mem_cons, not_or] at h
      have hb : ¬ b = sep := fun hb => h.1 hb.symm
      simp only [split, if_neg hb, ih h.2]

/-- Joining undoes splitting. -/
theorem join_split (s : Bytes) : join sep (split sep s) = s := by
  induction s with
  | nil => rfl
  | cons b s ih =>
      obtain ⟨w, ws, hw⟩ := List.exists_cons_of_ne_nil (split_ne_nil sep s)
      rw [hw] at ih
      by_cases hb : b = sep
      · simp only [split, if_pos hb, hw, join, List.nil_append]
        rw [ih, hb]
      · simp only [split, if_neg hb, hw]
        cases ws with
        | nil => simp only [join] at ih ⊢; rw [ih]
        | cons v vs => simp only [join, List.cons_append] at ih ⊢; rw [ih]

/-- Splitting undoes joining words without separators. -/
theorem split_join {ws : List Bytes} (hne : ws ≠ []) (h : ∀ w ∈ ws, sep ∉ w) :
    split sep (join sep ws) = ws := by
  induction ws with
  | nil => exact absurd rfl hne
  | cons w ws ih =>
      have hw : sep ∉ w := h w List.mem_cons_self
      cases ws with
      | nil => exact split_of_notMem hw
      | cons v vs =>
          have hrest := ih (fun hn => nomatch hn)
            (fun x hx => h x (List.mem_cons_of_mem w hx))
          show split sep (w ++ sep :: join sep (v :: vs)) = w :: v :: vs
          rw [split_append, split_of_notMem hw, hrest]
          rfl

/-- Joining keeps all bytes of the parts. -/
theorem mem_join {b : UInt8} {w : Bytes} (hb : b ∈ w) {ws : List Bytes} (hw : w ∈ ws) :
    b ∈ join sep ws := by
  induction ws with
  | nil => exact nomatch hw
  | cons v ws ih =>
      cases ws with
      | nil =>
          rw [join, ← List.mem_singleton.mp hw]
          exact hb
      | cons u us =>
          show b ∈ v ++ sep :: join sep (u :: us)
          rcases List.mem_cons.mp hw with rfl | hw
          · exact List.mem_append_left _ hb
          · exact List.mem_append_right v (List.mem_cons_of_mem sep (ih hw))

/-- And brings in the separator only. -/
theorem mem_join_notMem {b : UInt8} (hb : b ≠ sep) {ws : List Bytes}
    (h : ∀ w ∈ ws, b ∉ w) : b ∉ join sep ws := by
  induction ws with
  | nil => exact fun hm => nomatch hm
  | cons w ws ih =>
      obtain ⟨hw, hws⟩ := List.forall_mem_cons.mp h
      cases ws with
      | nil => exact hw
      | cons v vs =>
          show b ∉ w ++ sep :: join sep (v :: vs)
          rw [List.mem_append, List.mem_cons, not_or, not_or]
          exact ⟨hw, hb, ih hws⟩

/-! ## Texts with separators -/

/-- The text before the first separator is determined. -/
theorem append_sep_inj {a b s t : Bytes} (ha : sep ∉ a) (hb : sep ∉ b)
    (h : a ++ sep :: s = b ++ sep :: t) : a = b ∧ s = t := by
  have hcut := congrArg (cut sep) h
  rw [cut_append ha, cut_append hb] at hcut
  simp only [Prod.mk.injEq, and_true] at hcut
  exact hcut

theorem join_cons (w : Bytes) (ws : List Bytes) :
    join sep (w :: ws) = w ++ ws.flatMap (fun v => sep :: v) := by
  induction ws generalizing w with
  | nil => simp [join]
  | cons v vs ih =>
      show w ++ sep :: join sep (v :: vs) = _
      rw [ih v]
      rfl

/-- Words that are not empty and have no separator are determined by their joined text. -/
theorem join_inj {ws vs : List Bytes} (hws : ∀ w ∈ ws, w ≠ [] ∧ sep ∉ w)
    (hvs : ∀ v ∈ vs, v ≠ [] ∧ sep ∉ v) (h : join sep ws = join sep vs) : ws = vs := by
  have hnil : ∀ {w : Bytes} {ws : List Bytes}, w ≠ [] → join sep (w :: ws) ≠ [] := by
    intro w ws hw hj
    rw [join_cons] at hj
    exact hw (List.append_eq_nil_iff.mp hj).1
  cases ws with
  | nil =>
      cases vs with
      | nil => rfl
      | cons v vs => exact absurd h.symm (hnil (hvs v List.mem_cons_self).1)
  | cons w ws =>
      cases vs with
      | nil => exact absurd h (hnil (hws w List.mem_cons_self).1)
      | cons v vs =>
          have hsplit := congrArg (split sep) h
          rwa [split_join (List.cons_ne_nil w ws) (fun w hw => (hws w hw).2),
            split_join (List.cons_ne_nil v vs) (fun v hv => (hvs v hv).2)] at hsplit

/-- A block of lines that are not empty ends at the first empty line. -/
theorem lines_inj {ls ms : List Bytes} {s t : Bytes} (hls : ∀ l ∈ ls, l ≠ [] ∧ sep ∉ l)
    (hms : ∀ m ∈ ms, m ≠ [] ∧ sep ∉ m)
    (h : ls.flatMap (fun l => l ++ [sep]) ++ sep :: s =
      ms.flatMap (fun m => m ++ [sep]) ++ sep :: t) : ls = ms ∧ s = t := by
  -- an empty line is not one of the block
  have hempty : ∀ {m rest s : Bytes}, m ≠ [] → sep ∉ m → sep :: s ≠ m ++ rest := by
    intro m rest s hne hm heq
    obtain ⟨c, m, rfl⟩ := List.exists_cons_of_ne_nil hne
    exact hm (List.mem_cons.mpr (Or.inl (List.cons.inj heq).1))
  induction ls generalizing ms with
  | nil =>
      cases ms with
      | nil => exact ⟨rfl, (List.cons.inj h).2⟩
      | cons m ms =>
          obtain ⟨hne, hm⟩ := hms m List.mem_cons_self
          simp only [List.flatMap_nil, List.nil_append, List.flatMap_cons,
            List.append_assoc] at h
          exact absurd h (hempty hne hm)
  | cons l ls ih =>
      obtain ⟨hlne, hl⟩ := hls l List.mem_cons_self
      cases ms with
      | nil =>
          simp only [List.flatMap_nil, List.nil_append, List.flatMap_cons,
            List.append_assoc] at h
          exact absurd h.symm (hempty hlne hl)
      | cons m ms =>
          obtain ⟨-, hm⟩ := hms m List.mem_cons_self
          simp only [List.flatMap_cons, List.append_assoc, List.cons_append,
            List.nil_append] at h
          obtain ⟨rfl, hrest⟩ := append_sep_inj hl hm h
          obtain ⟨rfl, rfl⟩ := ih (fun l hm => hls l (List.mem_cons_of_mem _ hm))
            (fun m hm => hms m (List.mem_cons_of_mem _ hm)) hrest
          exact ⟨rfl, rfl⟩

end

end ByteString
