import VBuckets.RegexpProofs
import VBuckets.ConditionProofs
import VBuckets.ForwardingProofs

/-! # Wildcards

    `compileWildcard` of `iam/policy.go` turns a pattern into a regular expression: `*`
    becomes `.*`, `?` becomes `.`, every other character is quoted, and the whole is anchored.

    What a pattern means is a glob.  The two differ in one character: the dot of the
    expression is not the newline, so no wildcard covers a newline in a value. -/

namespace Iam

open ByteString Regexp

/-! ## The translation -/

/-- One character of a pattern. -/
def wildcardSymbol (r : Rune) : List Rune :=
  if r = 42 then [46, 42] else if r = 63 then [46] else quoteMeta r

/-- `wildcardToRegex`, on the runes of the pattern: `*` becomes `.*`, `?` becomes `.`,
    and everything else stands for itself. -/
def wildcardToRegex (pattern : List Rune) : List Rune := pattern.flatMap wildcardSymbol

/-- The expression `compileWildcard` hands to `regexp.Compile`, with an anchor at
    either end.  There is no flag in it that would let `.` match a newline. -/
def wildcardText (pattern : Bytes) : List Rune := 94 :: (wildcardToRegex (runes pattern) ++ [36])

/-- The wildcards of the standard library's regular expressions. -/
def regexpWildcard (pattern value : Bytes) : Bool :=
  match compile (wildcardText pattern) with
  | none => false
  | some re => matchString re value

def regexpCompiles (pattern : Bytes) : Bool := (compile (wildcardText pattern)).isSome

/-- The readers of the standard library, with its regular expressions. -/
def regexpCompiler : Compiler := libraryCompiler regexpWildcard regexpCompiles

/-! ## Globs -/

/-- The language of a pattern: `*` is any sequence of characters, `?` is one character and
    every other character is itself. -/
def Glob : List Rune → List Rune → Prop
  | [], v => v = []
  | r :: p, v =>
      if r = 42 then ∃ u w, v = u ++ w ∧ Glob p w
      else if r = 63 then ∃ c w, v = c :: w ∧ Glob p w
      else ∃ w, v = r :: w ∧ Glob p w

/-! ## The compiled expression -/

/-- The item of one character of a pattern. -/
def wildcardItem (r : Rune) : Item :=
  if r = 42 then .star .any else if r = 63 then .one .any else .one (.rune r)

/-- The symbols of one character of a pattern. -/
def wildcardSymbols (r : Rune) : List Symbol :=
  if r = 42 then [.atom .any, .star] else if r = 63 then [.atom .any] else [.atom (.rune r)]

theorem symbols_wildcardSymbol (r : Rune) {s : List Rune} {ys : List Symbol}
    (h : symbols s = some ys) :
    symbols (wildcardSymbol r ++ s) = some (wildcardSymbols r ++ ys) := by
  rw [wildcardSymbol, wildcardSymbols]
  by_cases hstar : r = 42
  · rw [if_pos hstar, if_pos hstar]
    exact symbols_plain (by decide) rfl (symbols_plain (by decide) rfl h)
  · rw [if_neg hstar, if_neg hstar]
    by_cases hone : r = 63
    · rw [if_pos hone, if_pos hone]
      exact symbols_plain (by decide) rfl h
    · rw [if_neg hone, if_neg hone]
      exact symbols_quoteMeta r h

theorem symbols_wildcardToRegex (p : List Rune) {s : List Rune} {ys : List Symbol}
    (h : symbols s = some ys) :
    symbols (wildcardToRegex p ++ s) = some (p.flatMap wildcardSymbols ++ ys) := by
  induction p with
  | nil => exact h
  | cons r p ih =>
      rw [wildcardToRegex, List.flatMap_cons, List.flatMap_cons, List.append_assoc,
        List.append_assoc]
      exact symbols_wildcardSymbol r ih

/-- No symbol of a pattern starts with a star, so each atom stands alone or has its own. -/
theorem items_wildcardSymbols (p : List Rune) :
    items (p.flatMap wildcardSymbols ++ [.endText]) = some (p.map wildcardItem ++ [.endText]) ∧
      ∀ ys, p.flatMap wildcardSymbols ++ [.endText] ≠ .star :: ys := by
  induction p with
  | nil => exact ⟨rfl, fun ys h => nomatch h⟩
  | cons r p ih =>
      obtain ⟨hitems, hstar⟩ := ih
      rw [List.flatMap_cons, List.append_assoc, List.map_cons, wildcardSymbols, wildcardItem]
      -- an atom without a star of its own does not take the next symbol for one
      have hatom : ∀ a, items (.atom a :: (p.flatMap wildcardSymbols ++ [.endText])) =
          some (.one a :: (p.map wildcardItem ++ [.endText])) := by
        intro a
        rw [items.eq_6 a _ hstar, hitems]
        rfl
      by_cases h42 : r = 42
      · rw [if_pos h42, if_pos h42]
        refine ⟨?_, fun ys h => nomatch h⟩
        show items (.atom .any :: .star :: (p.flatMap wildcardSymbols ++ [.endText])) = _
        rw [items, hitems]
        rfl
      · rw [if_neg h42, if_neg h42]
        by_cases h63 : r = 63
        · rw [if_pos h63, if_pos h63]
          exact ⟨hatom .any, fun ys h => nomatch h⟩
        · rw [if_neg h63, if_neg h63]
          exact ⟨hatom (.rune r), fun ys h => nomatch h⟩

/-- Every pattern compiles. -/
theorem compile_wildcardText (pattern : Bytes) : compile (wildcardText pattern) =
    some (.beginText :: ((runes pattern).map wildcardItem ++ [.endText])) := by
  have hsymbols : symbols (wildcardText pattern) =
      some (.beginText :: ((runes pattern).flatMap wildcardSymbols ++ [.endText])) :=
    symbols_plain (by decide) rfl (symbols_wildcardToRegex _ rfl)
  rw [compile, hsymbols, Option.bind_some, items, (items_wildcardSymbols _).1]
  rfl

theorem regexpWildcard_eq (pattern value : Bytes) : regexpWildcard pattern value =
    matchHere ((runes pattern).map wildcardItem ++ [.endText]) true (runes value) := by
  rw [regexpWildcard, compile_wildcardText]
  exact search_beginText _ _

/-- Over values without a newline the expression has the language of the glob. -/
theorem matchHere_glob (p : List Rune) {v : List Rune} (hv : newline ∉ v) (start : Bool) :
    matchHere (p.map wildcardItem ++ [.endText]) start v = true ↔ Glob p v := by
  induction p generalizing v start with
  | nil =>
      show (v.isEmpty && true) = true ↔ v = []
      rw [Bool.and_true, List.isEmpty_iff]
  | cons r p ih =>
      rw [List.map_cons, List.cons_append, wildcardItem, Glob]
      by_cases h42 : r = 42
      · rw [if_pos h42, if_pos h42, matchHere]
        refine (starHere_iff (P := Glob p) (fun start t ht =>
          ih (fun hm => hv (ht.subset hm)) start)).trans ?_
        constructor
        · rintro ⟨u, w, rfl, -, hw⟩
          exact ⟨u, w, rfl, hw⟩
        · rintro ⟨u, w, rfl, hw⟩
          refine ⟨u, w, rfl, fun c hc => ?_, hw⟩
          rw [Atom.accepts, bne_iff_ne]
          rintro rfl
          exact hv (List.mem_append_left _ hc)
      · rw [if_neg h42, if_neg h42]
        -- one character: the value has one, and it is accepted
        have hone : ∀ (a : Atom) (Q : Rune → Prop), (∀ c ∈ v, a.accepts c = true ↔ Q c) →
            (matchHere (.one a :: (p.map wildcardItem ++ [.endText])) start v = true ↔
              ∃ c w, v = c :: w ∧ Q c ∧ Glob p w) := by
          intro a Q hQ
          cases v with
          | nil => exact iff_of_false Bool.false_ne_true (fun ⟨c, w, h, _⟩ => nomatch h)
          | cons c w =>
              rw [matchHere, Bool.and_eq_true, hQ c List.mem_cons_self,
                ih (fun hm => hv (List.mem_cons_of_mem _ hm))]
              simp
        by_cases h63 : r = 63
        · rw [if_pos h63, if_pos h63]
          refine (hone .any (fun _ => True) (fun c hc => ?_)).trans (by simp)
          rw [Atom.accepts, bne_iff_ne]
          exact iff_of_true (fun he => hv (he ▸ hc)) trivial
        · rw [if_neg h63, if_neg h63]
          refine (hone (.rune r) (fun c => c = r) (fun c _ => ?_)).trans (by simp)
          rw [Atom.accepts, beq_iff_eq]

/-! ## Wildcards and globs -/

theorem compileWildcard_regexp (pattern : Bytes) :
    compileWildcard regexpCompiler pattern = .ok pattern := by
  have hcompiles : regexpCompiler.compiles pattern = true := by
    show (compile (wildcardText pattern)).isSome = true
    rw [compile_wildcardText]
    rfl
  rw [compileWildcard, if_pos hcompiles]

/-- A star alone covers the values without a newline. -/
theorem newline_notMem_of_star {v : Bytes} (h : regexpWildcard (ascii "*") v = true) :
    (10 : UInt8) ∉ v := by
  rw [regexpWildcard_eq] at h
  obtain ⟨u, t, hv, hu, ht⟩ := (starHere_iff (P := fun t : List Rune => t = []) (fun start t _ => by
    show (t.isEmpty && true) = true ↔ t = []
    rw [Bool.and_true, List.isEmpty_iff])).mp h
  rw [ht, List.append_nil] at hv
  rw [← newline_mem_runes, hv]
  intro hm
  exact absurd (hu newline hm) (by decide)

/-- **WILDCARDS MEAN GLOBS** on a value exactly when it holds no newline. -/
theorem wildcards_glob_iff (v : Bytes) :
    (∀ pattern, compileWildcard regexpCompiler pattern = .ok pattern →
      (wildcardMatches regexpCompiler.toMatchers pattern v false = true ↔
        Glob (runes pattern) (runes v))) ↔ (10 : UInt8) ∉ v := by
  constructor
  · intro h
    refine newline_notMem_of_star ((h (ascii "*") (compileWildcard_regexp _)).mpr ?_)
    exact ⟨runes v, [], (List.append_nil _).symm, rfl⟩
  · intro hv pattern _
    show regexpWildcard pattern v = true ↔ _
    rw [regexpWildcard_eq]
    exact matchHere_glob _ (fun hm => hv ((newline_mem_runes v).mp hm)) true

end Iam

namespace S3

open ByteString Url Http Iam Regexp

/-- A listing with a newline for its delimiter. -/
def newlineListRequest : Request where
  method := methodGet
  host := ascii "h"
  url := { path := ascii "/vbk", rawQuery := ascii "list-type=2&delimiter=%0A" }
  header := ∅
  contentLength := 0
  transferEncoding := []
  tls := false
  body := none
  tokens := isToken_of_mem_empty

/-- The delimiter of that listing is a value `*` does not match. -/
theorem newline_delimiter_unmatched :
    (∃ plan, planS3Operation newlineListRequest (ascii "vbk") [] = .ok plan ∧
      plan.iamContext.lookup (ascii "s3:delimiter") = some [[10]]) ∧
    compileWildcard regexpCompiler (ascii "*") = .ok (ascii "*") ∧
    wildcardMatches regexpCompiler.toMatchers (ascii "*") [10] false = false ∧
    Glob (runes (ascii "*")) (runes [10]) := by
  have hcheck : okAnd (planS3Operation newlineListRequest (ascii "vbk") [])
      (fun plan => plan.iamContext.lookup (ascii "s3:delimiter") = some [[10]]) = true := by
    decide +kernel
  obtain ⟨plan, hplan, hvalue⟩ := exists_of_okAnd hcheck
  refine ⟨⟨plan, hplan, of_decide_eq_true hvalue⟩, compileWildcard_regexp _, ?_, ?_⟩
  · decide +kernel
  · exact ⟨runes [10], [], rfl, rfl⟩

end S3
