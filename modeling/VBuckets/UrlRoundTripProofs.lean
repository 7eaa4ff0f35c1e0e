import VBuckets.UrlProofs
import Mathlib.Data.List.Sort

/-! # Round trips of URLs

    What is written by `escape`, `Values.Encode` and `URL.String` is read back by
    `unescape`, `ParseQuery` and `Parse`: byte by byte for the escapes, key by key for a
    query whose keys have one value each, part by part for an absolute HTTP URL.

    Bytes are compared by table (`forall_byte`); everything above that is induction on
    the text. -/

namespace Url

open ByteString

/-! ## Escapes -/

theorem unhex_upperHex (c : UInt8) :
    isHex (upperHex (c >>> 4)) = true ∧ isHex (upperHex (c &&& 15)) = true ∧
      (unhex (upperHex (c >>> 4)) <<< 4) ||| unhex (upperHex (c &&& 15)) = c :=
  forall_byte (P := fun c => isHex (upperHex (c >>> 4)) = true ∧
    isHex (upperHex (c &&& 15)) = true ∧
    (unhex (upperHex (c >>> 4)) <<< 4) ||| unhex (upperHex (c &&& 15)) = c)
    (by decide +kernel) c

theorem isAlnum_upperHex (c : UInt8) :
    isAlnum (upperHex (c >>> 4)) = true ∧ isAlnum (upperHex (c &&& 15)) = true :=
  forall_byte (P := fun c => isAlnum (upperHex (c >>> 4)) = true ∧
    isAlnum (upperHex (c &&& 15)) = true) (by decide +kernel) c

theorem shouldEscape_of_isAlnum {c : UInt8} (h : isAlnum c = true) (mode : Mode) :
    shouldEscape c mode = false := by
  simp only [shouldEscape, if_pos h]

/-- A percent sign is always escaped, and so is a plus sign in a query. -/
theorem shouldEscape_percent (mode : Mode) : shouldEscape 37 mode = true := by
  cases mode <;> rfl

theorem unescape_cons {c : UInt8} (hc : (c == 37) = false) (s : Bytes) (mode : Mode) :
    unescape (c :: s) mode =
      if c == 43 && mode == .queryComponent then (unescape s mode).map (32 :: ·)
      else if mode == .host && c < 0x80 && shouldEscape c mode then none
      else (unescape s mode).map (c :: ·) := by
  rw [unescape.eq_def]
  simp only [hc]
  rfl

/-- Paths and query components are read back. -/
theorem unescape_escape {mode : Mode} (hm : mode ≠ .host) (s : Bytes) :
    unescape (escape s mode) mode = some s := by
  have hhost : (mode == Mode.host) = false := beq_eq_false_iff_ne.mpr hm
  induction s with
  | nil => rfl
  | cons c s ih =>
      simp only [escape]
      by_cases hspace : (c == 32 && mode == .queryComponent) = true
      · -- a space travels as `+`
        rw [if_pos hspace]
        obtain ⟨hc, hq⟩ := Bool.and_eq_true_iff.mp hspace
        have hplus : ((43 : UInt8) == 37) = false := by decide
        rw [unescape_cons hplus, hq, ih, beq_iff_eq.mp hc]
        rfl
      · rw [if_neg hspace]
        by_cases hesc : shouldEscape c mode = true
        · rw [if_pos hesc]
          obtain ⟨h1, h2, h3⟩ := unhex_upperHex c
          simp only [escapeByte, List.cons_append, List.nil_append, unescape, h1, h2, hhost, ih]
          simp [h3]
        · rw [if_neg hesc]
          have hpct : (c == 37) = false := by
            rw [beq_eq_false_iff_ne]
            rintro rfl
            exact hesc (shouldEscape_percent mode)
          -- a literal `+` is escaped in a query and means itself in a path
          have hplus : (c == 43 && mode == .queryComponent) = false := by
            rw [Bool.and_eq_false_iff]
            by_cases hc : c = 43
            · right
              rw [beq_eq_false_iff_ne]
              rintro rfl
              exact hesc (by rw [hc]; rfl)
            · exact Or.inl (beq_eq_false_iff_ne.mpr hc)
          rw [unescape_cons hpct, hplus, hhost, ih]
          rfl

/-- What an escaped text is made of. -/
theorem mem_escape {mode : Mode} {s : Bytes} {b : UInt8} (h : b ∈ escape s mode) :
    b = 37 ∨ (b = 43 ∧ mode = .queryComponent) ∨ shouldEscape b mode = false := by
  induction s with
  | nil => exact nomatch h
  | cons c s ih =>
      simp only [escape] at h
      by_cases hspace : (c == 32 && mode == .queryComponent) = true
      · rw [if_pos hspace] at h
        rcases List.mem_cons.mp h with rfl | h'
        · exact Or.inr (Or.inl ⟨rfl, beq_iff_eq.mp (Bool.and_eq_true_iff.mp hspace).2⟩)
        · exact ih h'
      · rw [if_neg hspace] at h
        by_cases hesc : shouldEscape c mode = true
        · rw [if_pos hesc] at h
          rcases List.mem_append.mp h with hb | h'
          · obtain ⟨h1, h2⟩ := isAlnum_upperHex c
            simp only [escapeByte, List.mem_cons, List.not_mem_nil, or_false] at hb
            rcases hb with rfl | rfl | rfl
            · exact Or.inl rfl
            · exact Or.inr (Or.inr (shouldEscape_of_isAlnum h1 mode))
            · exact Or.inr (Or.inr (shouldEscape_of_isAlnum h2 mode))
          · exact ih h'
        · rw [if_neg hesc] at h
          rcases List.mem_cons.mp h with rfl | h'
          · exact Or.inr (Or.inr (Bool.eq_false_iff.mpr hesc))
          · exact ih h'

theorem notMem_escape {mode : Mode} {b : UInt8} (hp : b ≠ 37) (hq : b ≠ 43)
    (he : shouldEscape b mode = true) (s : Bytes) : b ∉ escape s mode := by
  intro h
  rcases mem_escape h with h | ⟨h, -⟩ | h
  · exact hp h
  · exact hq h
  · rw [he] at h
    exact nomatch h

theorem escape_append (s t : Bytes) (mode : Mode) :
    escape (s ++ t) mode = escape s mode ++ escape t mode := by
  induction s with
  | nil => rfl
  | cons c s ih =>
      rw [List.cons_append, escape, escape, ih]
      split
      · rfl
      · split
        · rw [List.append_assoc]
        · rfl

/-- An escaped path has the slashes of the path. -/
theorem slash_notMem_escape {s : Bytes} (h : (47 : UInt8) ∉ s) : (47 : UInt8) ∉ escape s .path := by
  induction s with
  | nil => exact h
  | cons c s ih =>
      rw [List.mem_cons, not_or] at h
      have hrest := ih h.2
      have hdigits : (47 : UInt8) ∉ escapeByte c := by
        obtain ⟨h1, h2⟩ := isAlnum_upperHex c
        intro hmem
        simp only [escapeByte, List.mem_cons, List.not_mem_nil, or_false] at hmem
        rcases hmem with hmem | hmem | hmem
        · exact absurd hmem (by decide)
        · rw [← hmem] at h1
          exact nomatch h1
        · rw [← hmem] at h2
          exact nomatch h2
      rw [escape]
      split
      · exact List.not_mem_cons_of_ne_of_not_mem (by decide) hrest
      · split
        · rw [List.mem_append, not_or]
          exact ⟨hdigits, hrest⟩
        · exact List.not_mem_cons_of_ne_of_not_mem h.1 hrest

/-- Control bytes are always escaped. -/
theorem shouldEscape_control (c : UInt8) (mode : Mode) (h : shouldEscape c mode = false) :
    (c < 0x20 || c == 0x7F) = false := by
  revert h
  cases mode with
  | host =>
      exact forall_byte (P := fun c => shouldEscape c .host = false →
        (c < 0x20 || c == 0x7F) = false) (by decide +kernel) c
  | path =>
      exact forall_byte (P := fun c => shouldEscape c .path = false →
        (c < 0x20 || c == 0x7F) = false) (by decide +kernel) c
  | queryComponent =>
      exact forall_byte (P := fun c => shouldEscape c .queryComponent = false →
        (c < 0x20 || c == 0x7F) = false) (by decide +kernel) c
  | fragment =>
      exact forall_byte (P := fun c => shouldEscape c .fragment = false →
        (c < 0x20 || c == 0x7F) = false) (by decide +kernel) c

theorem escape_no_control {mode : Mode} {s : Bytes} {b : UInt8} (h : b ∈ escape s mode) :
    (b < 0x20 || b == 0x7F) = false := by
  rcases mem_escape h with rfl | ⟨rfl, -⟩ | h
  · rfl
  · rfl
  · exact shouldEscape_control b mode h

/-! ## Queries -/

/-- Every key has exactly one value. -/
def Values.Single (v : Values) : Prop :=
  ∀ k vs, v.lookup k = some vs → ∃ x, vs = [x]

theorem Values.get_of_lookup {v : Values} {k x : Bytes} (h : v.lookup k = some [x]) :
    v.get k = x := by
  simp [Values.get, h]

/-- One pair as `Encode` writes it. -/
def encodePair (key value : Bytes) : Bytes := queryEscape key ++ 61 :: queryEscape value

theorem notMem_encodePair {b : UInt8} (hp : b ≠ 37) (hq : b ≠ 43) (hb : b ≠ 61)
    (he : shouldEscape b .queryComponent = true) (key value : Bytes) :
    b ∉ encodePair key value := by
  intro h
  rcases List.mem_append.mp h with h | h
  · exact notMem_escape hp hq he key h
  · rcases List.mem_cons.mp h with h | h
    · exact hb h
    · exact notMem_escape hp hq he value h

/-- A written pair is read as itself. -/
theorem parsePieces_encodePair (key value : Bytes) (pieces : List Bytes) (v : Values)
    (ok : Bool) :
    parsePieces (encodePair key value :: pieces) (v, ok) =
      parsePieces pieces (v.add key value, ok) := by
  have hsemi : (encodePair key value).contains 59 = false := by
    rw [Bool.eq_false_iff]
    intro h
    exact notMem_encodePair (by decide) (by decide) (by decide) rfl key value
      (List.contains_iff_mem.mp h)
  have hne : ¬ encodePair key value = [] := by simp [encodePair]
  have hcut : cut 61 (encodePair key value) = (queryEscape key, queryEscape value, true) :=
    cut_append (notMem_escape (by decide) (by decide) rfl key) _
  have hk : queryUnescape (queryEscape key) = some key := unescape_escape (by decide) key
  have hv : queryUnescape (queryEscape value) = some value := unescape_escape (by decide) value
  simp only [parsePieces, hsemi, if_neg hne, hcut, hk, hv]
  simp

theorem parsePieces_encode (f : Bytes → Bytes) (keys : List Bytes) (v : Values) (ok : Bool) :
    parsePieces (keys.map (fun k => encodePair k (f k))) (v, ok) =
      (keys.foldl (fun v k => v.add k (f k)) v, ok) := by
  induction keys generalizing v with
  | nil => rfl
  | cons k keys ih =>
      rw [List.map_cons, parsePieces_encodePair, ih, List.foldl_cons]

/-- Adding one value to each of some new keys. -/
theorem lookup_foldl_add (f : Bytes → Bytes) {keys : List Bytes} (hn : keys.Nodup) {v : Values}
    (hv : ∀ k ∈ keys, v.lookup k = none) (k : Bytes) :
    (keys.foldl (fun v k => v.add k (f k)) v).lookup k =
      if k ∈ keys then some [f k] else v.lookup k := by
  induction keys generalizing v with
  | nil => simp
  | cons c keys ih =>
      obtain ⟨hc, hn'⟩ := List.nodup_cons.mp hn
      have hadd : v.add c (f c) = v.insert c [f c] := by
        rw [Values.add, hv c List.mem_cons_self]
        rfl
      have hfresh : ∀ k ∈ keys, (v.add c (f c)).lookup k = none := by
        intro k hk
        have hkc : k ≠ c := by
          rintro rfl
          exact hc hk
        rw [hadd, AList.lookup_insert_ne hkc]
        exact hv k (List.mem_cons_of_mem c hk)
      rw [List.foldl_cons, ih hn' hfresh]
      by_cases hkc : k = c
      · subst hkc
        rw [if_neg hc, if_pos List.mem_cons_self, hadd, AList.lookup_insert]
      · have hmem : k ∈ c :: keys ↔ k ∈ keys := by
          rw [List.mem_cons, or_iff_right hkc]
        simp only [hmem, hadd, AList.lookup_insert_ne hkc]

/-- The pairs of a query with one value for each key. -/
theorem Values.Single.encode {v : Values} (h : v.Single) :
    v.encode = join 38 ((v.keys.mergeSort bytesLE).map (fun k => encodePair k (v.get k))) := by
  have hpair : ∀ k ∈ v.keys.mergeSort bytesLE,
      encodePairs k ((v.lookup k).getD []) = [encodePair k (v.get k)] := by
    intro k hk
    have hk' : k ∈ v := AList.mem_keys.mpr (List.mem_mergeSort.mp hk)
    obtain ⟨vs, hvs⟩ := Option.isSome_iff_exists.mp (AList.lookup_isSome.mpr hk')
    obtain ⟨x, rfl⟩ := h k vs hvs
    rw [Values.get_of_lookup hvs, hvs]
    rfl
  rw [Values.encode, List.flatMap_congr hpair, ← List.map_eq_flatMap]

/-- **QUERY ROUND TRIP**: a query with one value for each key is read back. -/
theorem parseQuery_encode {v : Values} (h : v.Single) :
    ∃ w, parseQuery v.encode = (w, true) ∧ ∀ k, w.lookup k = v.lookup k := by
  have hperm := List.mergeSort_perm v.keys bytesLE
  have hnodup : (v.keys.mergeSort bytesLE).Nodup := hperm.nodup_iff.mpr v.nodupKeys
  -- `Encode` sorts the keys, and a lookup does not see the order
  have hlookup : ∀ k, ((v.keys.mergeSort bytesLE).foldl
      (fun w k => w.add k (v.get k)) (∅ : Values)).lookup k = v.lookup k := by
    intro k
    rw [lookup_foldl_add v.get hnodup (fun k _ => AList.lookup_empty k)]
    by_cases hk : k ∈ v
    · obtain ⟨vs, hvs⟩ := Option.isSome_iff_exists.mp (AList.lookup_isSome.mpr hk)
      obtain ⟨x, rfl⟩ := h k vs hvs
      rw [if_pos (List.mem_mergeSort.mpr (AList.mem_keys.mp hk)), Values.get_of_lookup hvs, hvs]
    · have hk' : k ∉ v.keys.mergeSort bytesLE :=
        fun hm => hk (AList.mem_keys.mpr (List.mem_mergeSort.mp hm))
      rw [if_neg hk', AList.lookup_empty, AList.lookup_eq_none.mpr hk]
  refine ⟨_, ?_, hlookup⟩
  rw [h.encode]
  cases hks : v.keys.mergeSort bytesLE with
  | nil => rfl
  | cons k ks =>
      -- every pair holds a `=`, so the text is not empty
      have hne : ¬ join 38 ((k :: ks).map (fun k => encodePair k (v.get k))) = [] := by
        intro hj
        have hsplit := congrArg (split 38) hj
        rw [split_join (by simp) (fun w hw => ?_)] at hsplit
        · simp [split, encodePair] at hsplit
        · obtain ⟨c, -, rfl⟩ := List.mem_map.mp hw
          exact notMem_encodePair (by decide) (by decide) (by decide) rfl c _
      rw [parseQuery, if_neg hne, split_join (by simp) (fun w hw => ?_),
        parsePieces_encode v.get]
      obtain ⟨c, -, rfl⟩ := List.mem_map.mp hw
      exact notMem_encodePair (by decide) (by decide) (by decide) rfl c _

/-! ## Absolute URLs -/

theorem setPath_escape (u : URL) (path : Bytes) :
    setPath u (escape path .path) = some { u with path := path, rawPath := [] } := by
  have hread : unescape (escape path .path) .path = some path := unescape_escape (by decide) path
  rw [setPath, hread]
  simp

/-- A byte `Parse` gives no meaning of its own inside an authority, a path or a query. -/
def IsPlain (b : UInt8) : Prop := b ≠ 35 ∧ b ≠ 63 ∧ (b < 0x20 || b == 0x7F) = false

theorem isPlain_escape {mode : Mode} (h35 : shouldEscape 35 mode = true)
    (h63 : shouldEscape 63 mode = true) {s : Bytes} : ∀ b ∈ escape s mode, IsPlain b := by
  intro b hb
  refine ⟨?_, ?_, escape_no_control hb⟩
  · rintro rfl
    exact notMem_escape (by decide) (by decide) h35 s hb
  · rintro rfl
    exact notMem_escape (by decide) (by decide) h63 s hb

/-- The bytes of an encoded query. -/
theorem isPlain_encode {v : Values} (h : v.Single) : ∀ b ∈ v.encode, IsPlain b := by
  have hjoin : ∀ ws : List Bytes, (∀ w ∈ ws, ∀ b ∈ w, IsPlain b) →
      ∀ b ∈ join 38 ws, IsPlain b := by
    intro ws
    induction ws with
    | nil => exact fun _ b hb => nomatch hb
    | cons w ws ih =>
        intro hws b hb
        cases ws with
        | nil => exact hws w List.mem_cons_self b hb
        | cons w' ws =>
            rcases List.mem_append.mp (show b ∈ w ++ 38 :: join 38 (w' :: ws) from hb) with hb | hb
            · exact hws w List.mem_cons_self b hb
            · rcases List.mem_cons.mp hb with rfl | hb
              · exact ⟨by decide, by decide, by decide⟩
              · exact ih (fun w hw => hws w (List.mem_cons_of_mem _ hw)) b hb
  rw [h.encode]
  refine hjoin _ ?_
  intro w hw b hb
  obtain ⟨k, -, rfl⟩ := List.mem_map.mp hw
  rcases List.mem_append.mp hb with hb | hb
  · exact isPlain_escape rfl rfl b hb
  · rcases List.mem_cons.mp hb with rfl | hb
    · exact ⟨by decide, by decide, by decide⟩
    · exact isPlain_escape rfl rfl b hb

/-- A query part: nothing, or a question mark and the text. -/
def queryPart (q : Bytes) : Bytes := if q ≠ [] then 63 :: q else []

/-- Reading the query part back. -/
theorem cut_queryPart {s q : Bytes} (hs : 63 ∉ s) (hq : 63 ∉ q) :
    hasSuffix (s ++ queryPart q) (ascii "?") = false ∧
      (cut 63 (s ++ queryPart q)).1 = s ∧ (cut 63 (s ++ queryPart q)).2.1 = q := by
  by_cases h : q = []
  · have hpart : queryPart q = [] := if_neg (by simp [h])
    rw [hpart, List.append_nil, cut_of_notMem hs, h]
    refine ⟨?_, rfl, rfl⟩
    rw [Bool.eq_false_iff]
    intro hsuf
    exact hs ((hasSuffix_iff.mp hsuf).subset (by decide))
  · have hpart : queryPart q = 63 :: q := if_pos h
    rw [hpart, cut_append hs]
    refine ⟨?_, rfl, rfl⟩
    rw [Bool.eq_false_iff]
    intro hsuf
    obtain ⟨t, ht⟩ := hasSuffix_iff.mp hsuf
    have hlast := congrArg List.getLast? ht
    have hcons : s ++ 63 :: q = (s ++ [63]) ++ q := by simp
    rw [hcons, List.getLast?_append_of_ne_nil _ h] at hlast
    have hmem : (63 : UInt8) ∈ q := List.mem_of_getLast? (hlast.symm.trans (by simp [ascii]))
    exact hq hmem

/-! ## Schemes -/

/-- A text `getScheme` takes as a scheme. -/
structure SchemeText (s : Bytes) : Prop where
  nonempty : s ≠ []
  first : ∀ c, s.head? = some c → (isLowerASCII c || isUpperASCII c) = true
  rest : ∀ c ∈ s, (isAlnum c || c == 43 || c == 45 || c == 46) = true

theorem getSchemeFrom_letters {raw seen s rest : Bytes}
    (hs : ∀ c ∈ s, (isAlnum c || c == 43 || c == 45 || c == 46) = true) (hseen : seen ≠ []) :
    getSchemeFrom raw seen (s ++ 58 :: rest) = some (seen ++ s, rest) := by
  induction s generalizing seen with
  | nil =>
      rw [List.append_nil]
      show (if seen = [] then none else some (seen, rest)) = _
      rw [if_neg hseen]
  | cons c s ih =>
      have hnext := ih (fun b hb => hs b (List.mem_cons_of_mem _ hb))
        (List.append_ne_nil_of_right_ne_nil seen (List.cons_ne_nil c []))
      rw [List.append_assoc] at hnext
      rw [List.cons_append, getSchemeFrom]
      by_cases hletter : (isLowerASCII c || isUpperASCII c) = true
      · rw [if_pos hletter]
        exact hnext
      · have hother : (isDigitASCII c || c == 43 || c == 45 || c == 46) = true := by
          have hc := hs c List.mem_cons_self
          rw [isAlnum, Bool.eq_false_iff.mpr hletter, Bool.false_or] at hc
          exact hc
        rw [if_neg hletter, if_pos hother, if_neg hseen]
        exact hnext

/-- A scheme that is read stands before the first colon. -/
theorem getSchemeFrom_some {raw seen text s rest : Bytes}
    (h : getSchemeFrom raw seen text = some (s, rest)) (hs : s ≠ []) :
    ∃ t, s = seen ++ t ∧ text = t ++ 58 :: rest ∧
      (∀ c ∈ t, (isAlnum c || c == 43 || c == 45 || c == 46) = true) ∧
      (seen = [] → ∀ c, t.head? = some c → (isLowerASCII c || isUpperASCII c) = true) := by
  induction text generalizing seen with
  | nil =>
      cases h
      exact absurd rfl hs
  | cons c text ih =>
      rw [getSchemeFrom] at h
      -- the cases in which the byte is taken
      have htaken : getSchemeFrom raw (seen ++ [c]) text = some (s, rest) →
          (isAlnum c || c == 43 || c == 45 || c == 46) = true →
          (seen = [] → (isLowerASCII c || isUpperASCII c) = true) →
          ∃ t, s = seen ++ t ∧ c :: text = t ++ 58 :: rest ∧
            (∀ c ∈ t, (isAlnum c || c == 43 || c == 45 || c == 46) = true) ∧
            (seen = [] → ∀ c, t.head? = some c → (isLowerASCII c || isUpperASCII c) = true) := by
        intro htext hc hfirst
        obtain ⟨t, rfl, rfl, hall, -⟩ := ih htext
        refine ⟨c :: t, List.append_assoc seen [c] t, rfl, ?_, ?_⟩
        · intro b hb
          rcases List.mem_cons.mp hb with rfl | hb
          · exact hc
          · exact hall b hb
        · intro hseen b hb
          cases hb
          exact hfirst hseen
      split at h
      · next hletter =>
          refine htaken h ?_ (fun _ => hletter)
          rw [isAlnum, hletter]
          rfl
      · split at h
        · next hother =>
            split at h
            · cases h
              exact absurd rfl hs
            · next hseen =>
                refine htaken h ?_ (fun hnil => absurd hnil hseen)
                simp only [Bool.or_eq_true] at hother ⊢
                rw [isAlnum, Bool.or_eq_true]
                rcases hother with ((hd | hd) | hd) | hd
                · exact Or.inl (Or.inl (Or.inl (Or.inr hd)))
                · exact Or.inl (Or.inl (Or.inr hd))
                · exact Or.inl (Or.inr hd)
                · exact Or.inr hd
        · split at h
          · next hcolon =>
              split at h
              · exact nomatch h
              · cases h
                refine ⟨[], (List.append_nil _).symm, ?_, ?_, ?_⟩
                · rw [eq_of_beq hcolon]
                  rfl
                · exact fun b hb => nomatch hb
                · exact fun _ b hb => nomatch hb
          · cases h
            exact absurd rfl hs

/-- **SCHEMES**: a scheme is the text before the first colon, if it has the bytes of one. -/
theorem getScheme_iff {raw s rest : Bytes} (hs : s ≠ []) :
    getScheme raw = some (s, rest) ↔ SchemeText s ∧ raw = s ++ 58 :: rest := by
  constructor
  · intro h
    obtain ⟨t, rfl, hraw, hall, hfirst⟩ := getSchemeFrom_some h hs
    exact ⟨⟨hs, hfirst rfl, hall⟩, hraw⟩
  · rintro ⟨⟨-, hfirst, hall⟩, rfl⟩
    cases s with
    | nil => exact absurd rfl hs
    | cons c s =>
        rw [getScheme, List.cons_append, getSchemeFrom, if_pos (hfirst c rfl)]
        exact getSchemeFrom_letters (fun b hb => hall b (List.mem_cons_of_mem _ hb))
          (List.cons_ne_nil c [])

theorem SchemeText.plain {s : Bytes} (h : SchemeText s) {b : UInt8} (hb : b ∈ s) :
    b ≠ 35 ∧ (b < 0x20 || b == 0x7F) = false :=
  forall_byte (P := fun b => (isAlnum b || b == 43 || b == 45 || b == 46) = true →
    b ≠ 35 ∧ (b < 0x20 || b == 0x7F) = false) (by decide +kernel) b (h.rest b hb)

theorem schemeText_http {scheme : Bytes} (hs : scheme = ascii "http" ∨ scheme = ascii "https") :
    SchemeText scheme ∧ toLower scheme = scheme := by
  rcases hs with rfl | rfl
  · exact ⟨⟨by decide, by decide +kernel, by decide +kernel⟩, rfl⟩
  · exact ⟨⟨by decide, by decide +kernel, by decide +kernel⟩, rfl⟩

/-- **URL ROUND TRIP**: an absolute URL written from a scheme, an authority, an escaped
    path and an encoded query is taken apart into them; only the host can be refused. -/
theorem parse_spelled (hp : HostParser) {scheme authority p q : Bytes} (hs : SchemeText scheme)
    (ha : ∀ b ∈ authority, IsPlain b ∧ b ≠ 47 ∧ b ≠ 64) (hpath : ∀ b ∈ p, IsPlain b)
    (habs : p = [] ∨ ∃ t, p = 47 :: t) (hq : ∀ b ∈ q, IsPlain b) :
    parse hp (scheme ++ ascii "://" ++ authority ++ p ++ queryPart q) =
      (hp.parseHost (toLower scheme) authority).bind
        (fun host => setPath { scheme := toLower scheme, host := host, rawQuery := q } p) := by
  have hqp : ∀ b ∈ queryPart q, b ≠ 35 ∧ (b < 0x20 || b == 0x7F) = false := by
    intro b hb
    by_cases h : q = []
    · rw [queryPart, if_neg (by simp [h])] at hb
      exact nomatch hb
    · rw [queryPart, if_pos h] at hb
      rcases List.mem_cons.mp hb with rfl | hb
      · exact ⟨by decide, by decide⟩
      · exact ⟨(hq b hb).1, (hq b hb).2.2⟩
  have hraw : ∀ b ∈ scheme ++ ascii "://" ++ authority ++ p ++ queryPart q,
      b ≠ 35 ∧ (b < 0x20 || b == 0x7F) = false := by
    have hhead : ∀ b ∈ scheme ++ ascii "://", b ≠ 35 ∧ (b < 0x20 || b == 0x7F) = false := by
      intro b hb
      rcases List.mem_append.mp hb with hb | hb
      · exact hs.plain hb
      · exact (show ∀ b ∈ ascii "://", b ≠ 35 ∧ (b < 0x20 || b == 0x7F) = false by
          decide +kernel) b hb
    intro b hb
    simp only [List.mem_append, or_assoc] at hb
    rcases hb with hb | hb | hb | hb | hb
    · exact hhead b (List.mem_append_left _ hb)
    · exact hhead b (List.mem_append_right _ hb)
    · exact ⟨(ha b hb).1.1, (ha b hb).1.2.2⟩
    · exact ⟨(hpath b hb).1, (hpath b hb).2.2⟩
    · exact hqp b hb
  have hfrag : cut 35 (scheme ++ ascii "://" ++ authority ++ p ++ queryPart q) =
      (scheme ++ ascii "://" ++ authority ++ p ++ queryPart q, [], false) :=
    cut_of_notMem (fun h => (hraw 35 h).1 rfl)
  have hctl : (scheme ++ ascii "://" ++ authority ++ p ++ queryPart q).any
      (fun c => c < 0x20 || c == 0x7F) = false := by
    rw [Bool.eq_false_iff]
    intro h
    obtain ⟨b, hb, hbad⟩ := List.any_eq_true.mp h
    rw [(hraw b hb).2] at hbad
    exact nomatch hbad
  have hscheme : getScheme (scheme ++ ascii "://" ++ authority ++ p ++ queryPart q) =
      some (scheme, ascii "//" ++ authority ++ p ++ queryPart q) := by
    refine (getScheme_iff hs.nonempty).mpr ⟨hs, ?_⟩
    rw [show ascii "://" = 58 :: ascii "//" from rfl]
    simp only [List.append_assoc, List.cons_append]
  have hne : (toLower scheme != []) = true := bne_iff_ne.mpr (toLower_ne_nil hs.nonempty)
  have hstar : ¬ scheme ++ ascii "://" ++ authority ++ p ++ queryPart q = ascii "*" := by
    intro h
    have hlength := congrArg List.length h
    simp only [List.length_append, show (ascii "://").length = 3 from rfl,
      show (ascii "*").length = 1 from rfl] at hlength
    omega
  -- the part before the query
  have hrest63 : 63 ∉ ascii "//" ++ authority ++ p := by
    intro h
    simp only [List.mem_append] at h
    rcases h with (h | h) | h
    · exact absurd h (by decide)
    · exact (ha 63 h).1.2.1 rfl
    · exact (hpath 63 h).2.1 rfl
  obtain ⟨hforce, hcut, hquery⟩ := cut_queryPart hrest63 (fun h => (hq 63 h).2.1 rfl)
  have h1 : hasPrefix (ascii "//" ++ authority ++ p) (ascii "/") = true := rfl
  have h2 : hasPrefix (ascii "//" ++ authority ++ p) (ascii "//") = true := rfl
  have hdrop : (ascii "//" ++ authority ++ p).drop 2 = authority ++ p := rfl
  have ha47 : (47 : UInt8) ∉ authority := fun h => (ha 47 h).2.1 rfl
  have hauth : (cut 47 (authority ++ p)).1 = authority := by
    rcases habs with rfl | ⟨t, rfl⟩
    · rw [List.append_nil, cut_of_notMem ha47]
    · rw [cut_append ha47]
  have huser : cutLast 64 authority = none := by
    have h64 : (64 : UInt8) ∉ authority.reverse :=
      fun h => (ha 64 (List.mem_reverse.mp h)).2.2 rfl
    simp only [cutLast, cut_of_notMem h64]
  have hparse : parseNoFragment hp
      (scheme ++ ascii "://" ++ authority ++ p ++ queryPart q) false =
      (hp.parseHost (toLower scheme) authority).bind
        (fun host => setPath { scheme := toLower scheme, host := host, rawQuery := q } p) := by
    simp only [parseNoFragment, hctl, hscheme, hforce, hcut, hquery, h1, h2, hdrop, hauth,
      hne, if_neg hstar, parseAuthority, huser]
    cases hh : hp.parseHost (toLower scheme) authority with
    | none | some => simp
  simp only [parse, hfrag, hparse]
  cases hres : (hp.parseHost (toLower scheme) authority).bind
      (fun host => setPath { scheme := toLower scheme, host := host, rawQuery := q } p) with
  | none => rfl
  | some u => rfl

/-- An absolute HTTP URL. -/
theorem parse_absolute (hp : HostParser) {scheme authority p q : Bytes}
    (hs : scheme = ascii "http" ∨ scheme = ascii "https")
    (ha : ∀ b ∈ authority, IsPlain b ∧ b ≠ 47 ∧ b ≠ 64) (hpath : ∀ b ∈ p, IsPlain b)
    (habs : p = [] ∨ ∃ t, p = 47 :: t) (hq : ∀ b ∈ q, IsPlain b) :
    parse hp (scheme ++ ascii "://" ++ authority ++ p ++ queryPart q) =
      (hp.parseHost scheme authority).bind
        (fun host => setPath { scheme := scheme, host := host, rawQuery := q } p) := by
  obtain ⟨htext, hlower⟩ := schemeText_http hs
  have hparse := parse_spelled hp htext ha hpath habs hq
  rw [hlower] at hparse
  exact hparse

/-! ## Rendering -/

theorem escape_eq_nil {s : Bytes} {mode : Mode} (h : escape s mode = []) : s = [] := by
  cases s with
  | nil => rfl
  | cons c s =>
      simp only [escape] at h
      split at h
      · exact nomatch h
      · split at h
        · exact nomatch h
        · exact nomatch h

theorem escape_slash (t : Bytes) : escape (47 :: t) .path = 47 :: escape t .path := rfl

/-- The path of a URL in default spelling. -/
theorem escapedPath_plain {u : URL} (hraw : u.rawPath = [])
    (habs : u.path = [] ∨ ∃ t, u.path = 47 :: t) : u.escapedPath = escape u.path .path := by
  have hstar : ¬ u.path = ascii "*" := by
    intro hs
    rcases habs with h | ⟨t, h⟩
    · rw [h] at hs
      exact absurd hs (by decide)
    · rw [h] at hs
      exact absurd (List.cons.inj hs).1 (by decide)
  rw [URL.escapedPath, if_neg (fun h => h.1 hraw), if_neg hstar]

/-- A URL without fragment and in default spelling. -/
theorem string_plain {u : URL} (hraw : u.rawPath = [])
    (habs : u.path = [] ∨ ∃ t, u.path = 47 :: t) (hforce : u.forceQuery = false)
    (hfragment : u.fragment = []) :
    u.string = u.scheme ++ ascii "://" ++ escape u.host .host ++ escape u.path .path ++
      queryPart u.rawQuery := by
  have hpath := escapedPath_plain hraw habs
  have hslash : ¬ (u.escapedPath ≠ [] ∧ u.escapedPath.head? ≠ some 47) := by
    rw [hpath]
    rcases habs with h | ⟨t, h⟩
    · rw [h]
      exact fun hc => hc.1 rfl
    · rw [h, escape_slash]
      exact fun hc => hc.2 rfl
  have hnone : ¬ u.fragment ≠ [] := fun h => h hfragment
  rw [URL.string, if_neg hslash, hpath, hforce, if_neg hnone, List.append_nil, queryPart]
  simp

/-! ## Hosts -/

theorem setPath_host {u v : URL} {p : Bytes} (h : setPath u p = some v) :
    v.host = u.host ∧ v.scheme = u.scheme := by
  rw [setPath] at h
  split at h
  · exact nomatch h
  · cases h
    exact ⟨rfl, rfl⟩

/-- A non-empty host was accepted by the host parser. -/
theorem parseNoFragment_host {hp : HostParser} {raw : Bytes} {viaRequest : Bool} {u : URL}
    (h : parseNoFragment hp raw viaRequest = some u) (hne : u.host ≠ []) :
    ∃ text, hp.parseHost u.scheme text = some u.host := by
  have hauth : ∀ {scheme authority : Bytes} {user : Bool} {host : Bytes},
      parseAuthority hp scheme authority = some (user, host) →
        ∃ text, hp.parseHost scheme text = some host := by
    intro scheme authority user host ha
    rw [parseAuthority] at ha
    split at ha
    · obtain ⟨host', hhost, heq⟩ := Option.map_eq_some_iff.mp ha
      cases heq
      exact ⟨_, hhost⟩
    · split at ha
      · exact nomatch ha
      · next hhost =>
          split at ha
          · cases ha
            exact ⟨_, hhost⟩
          · exact nomatch ha
  simp only [parseNoFragment] at h
  split at h
  · exact nomatch h
  split at h
  · exact nomatch h
  split at h
  · cases h
    exact absurd rfl hne
  split at h
  · exact nomatch h
  split at h
  · cases h
    exact absurd rfl hne
  split at h
  · exact nomatch h
  split at h
  · -- the authority form
    split at h
    · exact nomatch h
    · next hparsed =>
        obtain ⟨hhost, hscheme⟩ := setPath_host h
        rw [hhost, hscheme]
        exact hauth hparsed
  · exact absurd (setPath_host h).1 hne

theorem parse_host {hp : HostParser} {raw : Bytes} {u : URL} (h : parse hp raw = some u)
    (hne : u.host ≠ []) : hp.parseHost u.scheme (escape u.host .host) = some u.host := by
  rw [parse] at h
  split at h
  · exact nomatch h
  · next v hv =>
      split at h
      · cases h
        obtain ⟨text, htext⟩ := parseNoFragment_host hv hne
        exact hp.reparse htext
      · obtain ⟨f, -, rfl⟩ := Option.map_eq_some_iff.mp h
        obtain ⟨text, htext⟩ := parseNoFragment_host hv hne
        exact hp.reparse htext

/-- An escaped host can stand as an authority. -/
theorem isPlain_host (host : Bytes) : ∀ b ∈ escape host .host, IsPlain b ∧ b ≠ 47 ∧ b ≠ 64 := by
  intro b hb
  refine ⟨isPlain_escape rfl rfl b hb, ?_, ?_⟩
  · rintro rfl
    exact notMem_escape (by decide) (by decide) rfl host hb
  · rintro rfl
    exact notMem_escape (by decide) (by decide) rfl host hb

end Url
