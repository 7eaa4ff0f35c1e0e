import VBuckets.SignatureProofs
import VBuckets.CalendarProofs
import VBuckets.TrimProofs

/-! # What a canonical request determines

    `buildCanonicalRequest` writes lines: the method, the path, the query, a line for
    each signed header, an empty line, the names of those headers and a hash.  The
    values are escaped, trimmed or collapsed first, so the question is what can still be
    read off the text: `canonicalRequest_inj` says it is the request up to the spelling
    of its path, the order of its query and the runs of spaces in its headers. -/

namespace S3

open ByteString Url Http

/-! ## Runs of spaces -/

/-- One space for each run of spaces. -/
def squeezeSpaces : Bytes → Bytes
  | [] => []
  | b :: s => if b = 32 ∧ s.head? = some 32 then squeezeSpaces s else b :: squeezeSpaces s

theorem head_squeezeSpaces (s : Bytes) : (squeezeSpaces s).head? = s.head? := by
  induction s with
  | nil => rfl
  | cons b s ih =>
      rw [squeezeSpaces]
      split
      · next h => rw [ih, h.2, h.1]; rfl
      · rfl

/-- Squeezing a text uses no more of its tail than the squeezed tail. -/
theorem squeezeSpaces_cons_congr (b : UInt8) {s t : Bytes}
    (h : squeezeSpaces s = squeezeSpaces t) :
    squeezeSpaces (b :: s) = squeezeSpaces (b :: t) := by
  have hhead : s.head? = t.head? := by
    rw [← head_squeezeSpaces s, ← head_squeezeSpaces t, h]
  rw [squeezeSpaces, squeezeSpaces, hhead, h]

theorem squeezeSpaces_cons {b : UInt8} (h : b ≠ 32) (s : Bytes) :
    squeezeSpaces (b :: s) = b :: squeezeSpaces s := by
  rw [squeezeSpaces, if_neg (fun hb => h hb.1)]

theorem squeezeSpaces_eq_nil {s : Bytes} (h : squeezeSpaces s = []) : s = [] := by
  have hhead := head_squeezeSpaces s
  rw [h] at hhead
  exact List.head?_eq_none_iff.mp hhead.symm

/-- Squeezing brings in no bytes. -/
theorem mem_squeezeSpaces {b : UInt8} {s : Bytes} (h : b ∈ squeezeSpaces s) : b ∈ s := by
  induction s with
  | nil => exact h
  | cons c s ih =>
      rw [squeezeSpaces] at h
      split at h
      · exact List.mem_cons_of_mem c (ih h)
      · rcases List.mem_cons.mp h with rfl | h
        · exact List.mem_cons_self
        · exact List.mem_cons_of_mem c (ih h)

/-- It does not change what the runs squeeze to. -/
theorem squeezeSpaces_halveSpaces (s : Bytes) :
    squeezeSpaces (halveSpaces s) = squeezeSpaces s := by
  fun_induction halveSpaces s with
  | case1 s ih =>
      show squeezeSpaces (32 :: halveSpaces s) = squeezeSpaces (32 :: 32 :: s)
      have hpair : squeezeSpaces (32 :: 32 :: s) = squeezeSpaces (32 :: s) := by
        rw [squeezeSpaces, if_pos ⟨rfl, rfl⟩]
      rw [hpair]
      exact squeezeSpaces_cons_congr 32 ih
  | case2 b s _ ih => exact squeezeSpaces_cons_congr b ih
  | case3 => rfl

/-- A text with a pair of spaces gets shorter. -/
theorem length_halveSpaces (s : Bytes) : (halveSpaces s).length ≤ s.length ∧
    (contains s (ascii "  ") = true → (halveSpaces s).length < s.length) := by
  fun_induction halveSpaces s with
  | case1 s ih =>
      simp only [List.length_cons]
      exact ⟨by omega, fun _ => by omega⟩
  | case2 b s hpair ih =>
      simp only [List.length_cons]
      refine ⟨by omega, fun h => ?_⟩
      rw [contains, Bool.or_eq_true] at h
      rcases h with h | h
      · -- the pair would be at the front
        obtain ⟨t, ht⟩ := hasPrefix_iff.mp h
        obtain ⟨rfl, rfl⟩ := List.cons.inj ht
        exact absurd rfl (hpair t rfl)
      · have := ih.2 h
        omega
  | case3 => exact ⟨Nat.le_refl _, fun h => absurd h (by decide)⟩

/-- A text without a pair of spaces is squeezed already. -/
theorem squeezeSpaces_of_not_contains {s : Bytes} (h : contains s (ascii "  ") = false) :
    squeezeSpaces s = s := by
  induction s with
  | nil => rfl
  | cons b s ih =>
      rw [contains, Bool.or_eq_false_iff] at h
      rw [squeezeSpaces, if_neg ?_, ih h.2]
      rintro ⟨rfl, hhead⟩
      obtain ⟨t, rfl⟩ := List.head?_eq_some_iff.mp hhead
      exact absurd h.1 (by simp [hasPrefix, ascii])

/-- Enough passes leave single blanks: the loop of the source ends, and computes the
    squeezed value. -/
theorem collapseSpaces_eq {rounds : Nat} {value : Bytes} (h : value.length ≤ rounds) :
    collapseSpaces rounds value = squeezeSpaces value := by
  induction rounds generalizing value with
  | zero => rw [List.eq_nil_of_length_eq_zero (Nat.le_zero.mp h)]; rfl
  | succ rounds ih =>
      rw [collapseSpaces]
      split
      · next hc =>
          have hlt := (length_halveSpaces value).2 hc
          rw [ih (by omega), squeezeSpaces_halveSpaces]
      · next hc => exact (squeezeSpaces_of_not_contains (Bool.eq_false_iff.mpr hc)).symm

/-- **THE VALUE OF A HEADER** is signed up to the length of its runs of spaces. -/
theorem canonicalHeaderValue_eq (value : Bytes) :
    canonicalHeaderValue value = squeezeSpaces (trimSpace value) :=
  collapseSpaces_eq (Nat.le_refl _)

/-- A text without white space, of ASCII or of any other kind. -/
structure NoSpace (s : Bytes) : Prop where
  one : ∀ a ∈ s, isASCIISpace a = false
  two : ∀ a b, [a, b] <:+: s → isSpace2 a b = false
  three : ∀ a b c, [a, b, c] <:+: s → isSpace3 a b c = false

/-- In an ASCII text there is only ASCII white space. -/
theorem NoSpace.of_ascii {s : Bytes} (h : ∀ a ∈ s, a < 0x80 ∧ isASCIISpace a = false) :
    NoSpace s := by
  -- the white space of two and three bytes begins with a byte beyond ASCII
  have htwo : ∀ a : UInt8, a < 0x80 → ∀ b, isSpace2 a b = false := by
    intro a ha b
    have hne : (a == 0xC2) = false := by
      rw [beq_eq_false_iff_ne]
      rintro rfl
      exact absurd ha (by decide)
    simp [isSpace2, hne]
  have hthree : ∀ a : UInt8, a < 0x80 → ∀ b c, isSpace3 a b c = false := by
    intro a ha b c
    have hne : (a == 0xE1) = false ∧ (a == 0xE2) = false ∧ (a == 0xE3) = false := by
      refine ⟨?_, ?_, ?_⟩
      · rw [beq_eq_false_iff_ne]
        rintro rfl
        exact absurd ha (by decide)
      · rw [beq_eq_false_iff_ne]
        rintro rfl
        exact absurd ha (by decide)
      · rw [beq_eq_false_iff_ne]
        rintro rfl
        exact absurd ha (by decide)
    simp [isSpace3, hne.1, hne.2.1, hne.2.2]
  refine ⟨fun a ha => (h a ha).2, fun a b hab => ?_, fun a b c habc => ?_⟩
  · exact htwo a (h a (hab.subset List.mem_cons_self)).1 b
  · exact hthree a (h a (habc.subset List.mem_cons_self)).1 b c

/-- A value without blanks at its ends is not trimmed. -/
theorem NoSpace.trimSpace_eq {s : Bytes} (h : NoSpace s) : trimSpace s = s := by
  rw [trimSpace_eq_self_iff]
  refine ⟨⟨?_, ?_, ?_⟩, ⟨?_, ?_, ?_⟩⟩
  · intro a hp
    exact h.one a (hp.subset (List.mem_singleton.mpr rfl))
  · intro a b hp
    exact h.two a b hp.isInfix
  · intro a b c hp
    exact h.three a b c hp.isInfix
  · intro a hp
    exact h.one a (List.mem_reverse.mp (hp.subset (List.mem_singleton.mpr rfl)))
  · intro a b hp
    refine h.two b a (List.IsSuffix.isInfix ?_)
    rwa [← List.reverse_prefix]
  · intro a b c hp
    refine h.three c b a (List.IsSuffix.isInfix ?_)
    rwa [← List.reverse_prefix]

theorem squeezeSpaces_of_notMem {s : Bytes} (h : (32 : UInt8) ∉ s) : squeezeSpaces s = s := by
  induction s with
  | nil => rfl
  | cons b s ih =>
      rw [List.mem_cons, not_or] at h
      rw [squeezeSpaces_cons (Ne.symm h.1), ih h.2]

/-- A value without white space is signed as it is. -/
theorem NoSpace.canonicalHeaderValue_eq {s : Bytes} (h : NoSpace s) :
    canonicalHeaderValue s = s := by
  rw [S3.canonicalHeaderValue_eq, h.trimSpace_eq]
  refine squeezeSpaces_of_notMem (fun hm => ?_)
  exact absurd (h.one 32 hm) (by decide)

/-- A signed value has no line break if the value has none.  Lines of the canonical
    request therefore end where they should. -/
theorem newline_notMem_canonicalHeaderValue {value : Bytes} (h : (10 : UInt8) ∉ value) :
    (10 : UInt8) ∉ canonicalHeaderValue value := by
  rw [S3.canonicalHeaderValue_eq]
  exact fun hm => h (mem_trimSpace (mem_squeezeSpaces hm))

/-! ## The query -/

/-- What an encoded text is made of. -/
theorem mem_awsURIEncode {b : UInt8} {s : Bytes} (h : b ∈ awsURIEncode s) :
    b = 37 ∨ isAlnum b = true ∨ b = 45 ∨ b = 95 ∨ b = 46 ∨ b = 126 := by
  rw [awsURIEncode, List.mem_flatMap] at h
  obtain ⟨c, -, hb⟩ := h
  split at hb
  · next hc =>
      rw [List.mem_singleton.mp hb]
      simp only [Bool.or_eq_true, beq_iff_eq] at hc
      right
      rcases hc with (((hc | hc) | hc) | hc) | hc
      · exact Or.inl hc
      · exact Or.inr (Or.inl hc)
      · exact Or.inr (Or.inr (Or.inl hc))
      · exact Or.inr (Or.inr (Or.inr (Or.inl hc)))
      · exact Or.inr (Or.inr (Or.inr (Or.inr hc)))
  · obtain ⟨h1, h2⟩ := isAlnum_upperHex c
    simp only [escapeByte, List.mem_cons, List.not_mem_nil, or_false] at hb
    rcases hb with rfl | rfl | rfl
    · exact Or.inl rfl
    · exact Or.inr (Or.inl h1)
    · exact Or.inr (Or.inl h2)

/-- The encoding leaves no byte by which pairs and lines are separated. -/
theorem notMem_awsURIEncode (s : Bytes) :
    (10 : UInt8) ∉ awsURIEncode s ∧ (38 : UInt8) ∉ awsURIEncode s ∧
      (61 : UInt8) ∉ awsURIEncode s := by
  refine ⟨fun h => ?_, fun h => ?_, fun h => ?_⟩
  · exact absurd (mem_awsURIEncode h) (by decide)
  · exact absurd (mem_awsURIEncode h) (by decide)
  · exact absurd (mem_awsURIEncode h) (by decide)

/-- Encoded texts are read back, wherever they stand. -/
theorem unescape_awsURIEncode {mode : Mode} (hm : mode ≠ .host) (s : Bytes) :
    unescape (awsURIEncode s) mode = some s := by
  have hhost : (mode == .host) = false := beq_false_of_ne hm
  induction s with
  | nil => rfl
  | cons c s ih =>
      have hcons : awsURIEncode (c :: s) =
          (if isAlnum c || c == 45 || c == 95 || c == 46 || c == 126 then [c]
            else escapeByte c) ++ awsURIEncode s := rfl
      rw [hcons]
      by_cases hc : (isAlnum c || c == 45 || c == 95 || c == 46 || c == 126) = true
      · have hplain : (c == 37) = false ∧ (c == 43) = false :=
          forall_byte (P := fun c =>
            (isAlnum c || c == 45 || c == 95 || c == 46 || c == 126) = true →
              (c == 37) = false ∧ (c == 43) = false) (by decide +kernel) c hc
        rw [if_pos hc, List.singleton_append, unescape_cons hplain.1, hplain.2, ih]
        simp [hhost]
      · obtain ⟨h1, h2, h3⟩ := unhex_upperHex c
        rw [if_neg hc]
        simp only [escapeByte, List.cons_append, List.nil_append, unescape, h1, h2, ih]
        simp [h3, hhost]

/-- Encoded parameters are read back as they were. -/
theorem queryUnescape_awsURIEncode (s : Bytes) : queryUnescape (awsURIEncode s) = some s := by
  rw [queryUnescape]
  exact unescape_awsURIEncode (by decide) s

/-- The text of one parameter. -/
def canonicalPair (key value : Bytes) : Bytes := awsURIEncode key ++ 61 :: awsURIEncode value

theorem canonicalPair_spec (key value : Bytes) :
    canonicalPair key value ≠ [] ∧ (38 : UInt8) ∉ canonicalPair key value ∧
      (10 : UInt8) ∉ canonicalPair key value := by
  refine ⟨fun h => List.cons_ne_nil _ _ (List.append_eq_nil_iff.mp h).2, ?_, ?_⟩
  · rw [canonicalPair, List.mem_append, List.mem_cons, not_or, not_or]
    exact ⟨(notMem_awsURIEncode key).2.1, by decide, (notMem_awsURIEncode value).2.1⟩
  · rw [canonicalPair, List.mem_append, List.mem_cons, not_or, not_or]
    exact ⟨(notMem_awsURIEncode key).1, by decide, (notMem_awsURIEncode value).1⟩

/-- A pair determines its key and value. -/
theorem canonicalPair_inj {key key' value value' : Bytes}
    (h : canonicalPair key value = canonicalPair key' value') : key = key' ∧ value = value' := by
  obtain ⟨hkey, hvalue⟩ :=
    append_sep_inj (notMem_awsURIEncode key).2.2 (notMem_awsURIEncode key').2.2 h
  have hread := congrArg queryUnescape hkey
  have hread' := congrArg queryUnescape hvalue
  rw [queryUnescape_awsURIEncode, queryUnescape_awsURIEncode] at hread hread'
  exact ⟨Option.some.inj hread, Option.some.inj hread'⟩

section
variable {v w : Values}

/-- With at most one value per key the canonical query is the list of pairs in the
    order of the keys. -/
theorem canonicalQueryString_single (h : v.Single) : canonicalQueryString v =
    join 38 ((v.keys.mergeSort bytesLE).map (fun key => canonicalPair key (v.get key))) := by
  have hpair : ∀ key ∈ v.keys.mergeSort bytesLE,
      (((v.lookup key).getD []).mergeSort bytesLE).map (canonicalPair key) =
        [canonicalPair key (v.get key)] := by
    intro key hkey
    have hmem : key ∈ v := AList.mem_keys.mpr (List.mem_mergeSort.mp hkey)
    obtain ⟨values, hvalues⟩ := Option.isSome_iff_exists.mp (AList.lookup_isSome.mpr hmem)
    obtain ⟨value, rfl⟩ := h key values hvalues
    rw [Values.get_of_lookup hvalues, hvalues, Option.getD_some, List.mergeSort_singleton]
    rfl
  rw [List.map_eq_flatMap, ← List.flatMap_congr hpair]
  rfl

/-- It is one line of the canonical request. -/
theorem newline_notMem_canonicalQueryString (v : Values) :
    (10 : UInt8) ∉ canonicalQueryString v := by
  refine mem_join_notMem (by decide) (fun piece hpiece => ?_)
  obtain ⟨key, -, hpiece⟩ := List.mem_flatMap.mp hpiece
  obtain ⟨value, -, rfl⟩ := List.mem_map.mp hpiece
  exact (canonicalPair_spec key value).2.2

/-- A query with one value for each key is determined by its canonical text. -/
theorem canonicalQueryString_inj (hv : v.Single) (hw : w.Single)
    (h : canonicalQueryString v = canonicalQueryString w) (key : Bytes) :
    v.lookup key = w.lookup key := by
  rw [canonicalQueryString_single hv, canonicalQueryString_single hw] at h
  have hpieces := join_inj (fun piece hpiece => ?_) (fun piece hpiece => ?_) h
  -- the pairs agree one by one, so the sorted keys do; with them the values
  · have hsorted : v.keys.mergeSort bytesLE = w.keys.mergeSort bytesLE := by
      refine List.forall₂_eq_eq_eq ▸ ?_
      rw [← List.forall₂_eq_eq_eq, List.forall₂_map_left_iff, List.forall₂_map_right_iff]
        at hpieces
      exact hpieces.imp (fun _ _ hpair => (canonicalPair_inj hpair).1)
    have hkeys : ∀ u : Values, key ∈ u ↔ key ∈ u.keys.mergeSort bytesLE :=
      fun u => AList.mem_keys.trans List.mem_mergeSort.symm
    have hmem : key ∈ v ↔ key ∈ w := by rw [hkeys v, hkeys w, hsorted]
    by_cases hkey : key ∈ v
    · rw [← hsorted] at hpieces
      have hget := (canonicalPair_inj (List.map_inj_left.mp hpieces key
        (List.mem_mergeSort.mpr (AList.mem_keys.mp hkey)))).2
      obtain ⟨vs, hvs⟩ := Option.isSome_iff_exists.mp (AList.lookup_isSome.mpr hkey)
      obtain ⟨ws, hws⟩ := Option.isSome_iff_exists.mp (AList.lookup_isSome.mpr (hmem.mp hkey))
      obtain ⟨x, rfl⟩ := hv key vs hvs
      obtain ⟨y, rfl⟩ := hw key ws hws
      rw [Values.get_of_lookup hvs, Values.get_of_lookup hws] at hget
      rw [hvs, hws, hget]
    · rw [AList.lookup_eq_none.mpr hkey, AList.lookup_eq_none.mpr (fun hk => hkey (hmem.mpr hk))]
  · obtain ⟨key, -, rfl⟩ := List.mem_map.mp hpiece
    exact ⟨(canonicalPair_spec key _).1, (canonicalPair_spec key _).2.1⟩
  · obtain ⟨key, -, rfl⟩ := List.mem_map.mp hpiece
    exact ⟨(canonicalPair_spec key _).1, (canonicalPair_spec key _).2.1⟩

end

/-! ## The path -/

/-- A path, where the empty one is the root. -/
def rootedPath (path : Bytes) : Bytes := if path = [] then ascii "/" else path

/-- Only the empty text is read as the empty path. -/
theorem unescape_eq_nil {s : Bytes} {mode : Mode} (h : unescape s mode = some []) : s = [] := by
  cases s with
  | nil => rfl
  | cons c s =>
      exfalso
      by_cases hc : (c == 37) = true
      · rw [unescape.eq_def] at h
        simp only [hc, if_true] at h
        split at h
        · split at h
          · simp at h
          · exact nomatch h
        · exact nomatch h
      · rw [unescape_cons (Bool.eq_false_iff.mpr hc)] at h
        split at h
        · simp at h
        · split at h
          · exact nomatch h
          · simp at h

/-- The spelling of a path is one of it. -/
theorem unescape_escapedPath (u : URL) : unescape u.escapedPath .path = some u.path := by
  rw [URL.escapedPath]
  split
  · next h => exact h.2.2
  · split
    · next h => rw [h]; rfl
    · exact unescape_escape (by decide : Mode.path ≠ Mode.host) u.path

/-- So is the path. -/
theorem newline_notMem_escapedPath (u : URL) : (10 : UInt8) ∉ u.escapedPath := by
  rw [URL.escapedPath]
  split
  · next h =>
      intro hm
      exact absurd (List.all_eq_true.mp h.2.1 10 hm) (by decide)
  · split
    · exact by decide
    · exact fun hm => absurd (escape_no_control hm) (by decide)

/-- The line of the path. -/
def canonicalPath (u : URL) : Bytes := if u.escapedPath = [] then ascii "/" else u.escapedPath

/-- And the path can be read back from its line. -/
theorem unescape_canonicalPath (u : URL) :
    unescape (canonicalPath u) .path = some (rootedPath u.path) := by
  have hread := unescape_escapedPath u
  rw [canonicalPath, rootedPath]
  split
  · next h =>
      rw [h] at hread
      rw [if_pos (Option.some.inj hread).symm]
      rfl
  · next h =>
      rw [hread, if_neg]
      intro hpath
      exact h (unescape_eq_nil (hread.trans (congrArg some hpath)))

/-! ## The signed headers -/

/-- A request as a server delivers it: no line break in the method or in a header, no
    white space in the host, which is also that of an absolute target, and header names
    in their canonical spelling, each with a value. -/
structure Delivered (r : Request) : Prop where
  method : (10 : UInt8) ∉ r.method
  host : NoSpace r.host
  target : r.host = [] → r.url.host = []
  names : r.header.Canonical
  present : ∀ name ∈ r.header, r.header.at_ name ≠ []
  values : ∀ name, ∀ value ∈ r.header.at_ name, (10 : UInt8) ∉ value

/-- A list of signed headers that passes the checks.  It is a part of the
    `Authorization` header, so no name has a line break. -/
structure SignedBy (r : Request) (signedHeaders : List Bytes) : Prop where
  valid : validateSignedHeaders signedHeaders = .ok ()
  amz : requireSignedAmzHeaders r signedHeaders = .ok ()
  oneLine : ∀ name ∈ signedHeaders, (10 : UInt8) ∉ name

/-- The value of a signed header as it is signed. -/
def canonicalValue (r : Request) (name : Bytes) : Bytes :=
  join 44 ((signedValues r name).map canonicalHeaderValue)

theorem canonicalHeaderLine_eq (r : Request) (name : Bytes) :
    canonicalHeaderLine r name = (name ++ 58 :: canonicalValue r name) ++ [10] := by
  simp [canonicalHeaderLine, canonicalValue]

section
variable {r : Request}

theorem Delivered.signedValues_host (h : Delivered r) :
    signedValues r (ascii "host") = [r.host] := by
  rw [signedValues, if_pos rfl]
  split
  · next hhost => rw [h.target hhost, hhost]
  · rfl

/-- The host is signed as the server received it. -/
theorem Delivered.canonicalValue_host (h : Delivered r) :
    canonicalValue r (ascii "host") = r.host := by
  rw [canonicalValue, h.signedValues_host]
  exact h.host.canonicalHeaderValue_eq

theorem newline_notMem_digits (n : Nat) : (10 : UInt8) ∉ ascii (toString n) := by
  intro hm
  exact absurd (List.all_eq_true.mp (Time.digits_spec n).2 10 hm) (by decide)

/-- No signed value of a delivered request has one, since the server accepts none in
    headers. -/
theorem Delivered.newline_notMem_canonicalValue (h : Delivered r) (name : Bytes) :
    (10 : UInt8) ∉ canonicalValue r name := by
  refine mem_join_notMem (by decide) (fun word hword => ?_)
  obtain ⟨value, hvalue, rfl⟩ := List.mem_map.mp hword
  refine newline_notMem_canonicalHeaderValue (fun hm => ?_)
  by_cases hhost : name = ascii "host"
  · rw [hhost, h.signedValues_host, List.mem_singleton] at hvalue
    exact absurd (h.host.one 10 (hvalue ▸ hm)) (by decide)
  · rw [signedValues, if_neg hhost] at hvalue
    split at hvalue
    · next hlength =>
        -- the length of a body is written in digits
        rw [List.mem_singleton.mp hvalue, Time.formatInt] at hm
        obtain ⟨n, hn⟩ := Int.eq_ofNat_of_zero_le (Int.le_of_lt hlength.2.2)
        rw [hn] at hm
        exact newline_notMem_digits n hm
    · exact h.values (canonicalHeaderKey name) value hvalue hm

end

/-- Two names are equal when they agree as the start of a header line and as the start of
    the list: what follows a name is a colon there and a semicolon here. -/
theorem append_head_inj {p q : UInt8} (hpq : p ≠ q) {n m x y s t : Bytes}
    (hline : n ++ p :: x = m ++ p :: y) (hlist : n ++ s = m ++ t)
    (hs : ∀ c ∈ s.head?, c = q) (ht : ∀ c ∈ t.head?, c = q) : n = m := by
  rcases List.append_eq_append_iff.mp hline with ⟨a, rfl, ha⟩ | ⟨a, rfl, ha⟩
  · cases a with
    | nil => exact (List.append_nil n).symm
    | cons c a =>
        obtain ⟨rfl, -⟩ := List.cons.inj ha
        rw [List.append_assoc, List.append_cancel_left_eq] at hlist
        rw [hlist] at hs
        exact absurd (hs p rfl) hpq
  · cases a with
    | nil => exact List.append_nil m
    | cons c a =>
        obtain ⟨rfl, -⟩ := List.cons.inj ha
        rw [List.append_assoc, List.append_cancel_left_eq] at hlist
        rw [← hlist] at ht
        exact absurd (ht p rfl) hpq

theorem head_flatMap_cons (sep : UInt8) (ws : List Bytes) :
    ∀ c ∈ (ws.flatMap (fun w => sep :: w)).head?, c = sep := by
  cases ws with
  | nil => exact fun c hc => nomatch hc
  | cons w ws => exact fun c hc => (Option.some.inj hc).symm

/-- The lines and the list together give the names. -/
theorem names_inj {f g : Bytes → Bytes} {ns ms : List Bytes}
    (hlines : ns.map (fun n => n ++ 58 :: f n) = ms.map (fun m => m ++ 58 :: g m))
    (hlist : join 59 ns = join 59 ms) : ns = ms := by
  induction ns generalizing ms with
  | nil => exact (List.map_eq_nil_iff.mp hlines.symm).symm
  | cons n ns ih =>
      cases ms with
      | nil => exact nomatch hlines
      | cons m ms =>
          obtain ⟨hline, hmore⟩ := List.cons.inj hlines
          rw [join_cons, join_cons] at hlist
          obtain rfl : n = m := append_head_inj (by decide) hline hlist
            (head_flatMap_cons 59 ns) (head_flatMap_cons 59 ms)
          rw [List.append_cancel_left_eq] at hlist
          -- there are as many names left on both sides
          have hrest : join 59 ns = join 59 ms := by
            cases ns with
            | nil => rw [List.map_eq_nil_iff.mp hmore.symm]
            | cons n' ns =>
                cases ms with
                | nil => exact nomatch hmore
                | cons m' ms =>
                    rw [join_cons, join_cons]
                    exact (List.cons.inj hlist).2
          rw [ih hmore hrest]

/-! ## The whole text -/

section
variable {r₁ r₂ : Request} {sh₁ sh₂ : List Bytes}

/-- The canonical request as a sequence of lines, each of them closed by the first
    line break after it. -/
theorem buildCanonicalRequest_eq (r : Request) (sh : List Bytes) :
    buildCanonicalRequest r sh = r.method ++ 10 :: (canonicalPath r.url ++ 10 ::
      (canonicalQueryString (parseQuery r.url.rawQuery).1 ++ 10 ::
        ((sh.map (fun name => name ++ 58 :: canonicalValue r name)).flatMap (fun l => l ++ [10]) ++
          10 :: (join 59 sh ++ 10 :: (r.header.values (ascii "x-amz-content-sha256")).headD [])))) := by
  rw [List.flatMap_map, ← List.flatMap_congr (fun name _ => canonicalHeaderLine_eq r name)]
  simp [buildCanonicalRequest, canonicalPath]

/-- The line of the path ends at its own break. -/
theorem newline_notMem_canonicalPath (u : URL) : (10 : UInt8) ∉ canonicalPath u := by
  rw [canonicalPath]
  split
  · exact by decide
  · exact newline_notMem_escapedPath u

/-- **THE CANONICAL REQUEST** determines the signed headers with their values, the
    method, the path and the query. -/
theorem canonicalRequest_inj (hd₁ : Delivered r₁) (hd₂ : Delivered r₂)
    (hs₁ : ∀ name ∈ sh₁, (10 : UInt8) ∉ name) (hs₂ : ∀ name ∈ sh₂, (10 : UInt8) ∉ name)
    (h : buildCanonicalRequest r₁ sh₁ = buildCanonicalRequest r₂ sh₂) :
    sh₁ = sh₂ ∧ r₁.method = r₂.method ∧ rootedPath r₁.url.path = rootedPath r₂.url.path ∧
      canonicalQueryString (parseQuery r₁.url.rawQuery).1 =
        canonicalQueryString (parseQuery r₂.url.rawQuery).1 ∧
      ∀ name ∈ sh₁, canonicalValue r₁ name = canonicalValue r₂ name := by
  -- lines are told apart because neither names nor values contain a newline
  have hline : ∀ {r : Request} {sh : List Bytes}, Delivered r →
      (∀ name ∈ sh, (10 : UInt8) ∉ name) →
      ∀ l ∈ sh.map (fun name => name ++ 58 :: canonicalValue r name), l ≠ [] ∧ (10 : UInt8) ∉ l := by
    intro r sh hd hs l hl
    obtain ⟨name, hname, rfl⟩ := List.mem_map.mp hl
    refine ⟨fun hnil => List.cons_ne_nil _ _ (List.append_eq_nil_iff.mp hnil).2, ?_⟩
    rw [List.mem_append, List.mem_cons, not_or, not_or]
    exact ⟨hs name hname, by decide, hd.newline_notMem_canonicalValue name⟩
  rw [buildCanonicalRequest_eq, buildCanonicalRequest_eq] at h
  -- line by line: method, path, query, headers, and the list of their names
  obtain ⟨hmethod, h⟩ := append_sep_inj hd₁.method hd₂.method h
  obtain ⟨hpath, h⟩ := append_sep_inj (newline_notMem_canonicalPath r₁.url)
    (newline_notMem_canonicalPath r₂.url) h
  obtain ⟨hquery, h⟩ := append_sep_inj (newline_notMem_canonicalQueryString _)
    (newline_notMem_canonicalQueryString _) h
  obtain ⟨hlines, h⟩ := lines_inj (hline hd₁ hs₁) (hline hd₂ hs₂) h
  obtain ⟨hlist, -⟩ := append_sep_inj (mem_join_notMem (by decide) hs₁)
    (mem_join_notMem (by decide) hs₂) h
  obtain rfl := names_inj hlines hlist
  refine ⟨rfl, hmethod, ?_, hquery, ?_⟩
  -- two spellings of a path may be equal texts only if they unescape to the same path
  · have hread := congrArg (fun s => unescape s .path) hpath
    simp only [unescape_canonicalPath] at hread
    exact Option.some.inj hread
  · intro name hname
    have heq := List.map_inj_left.mp hlines name hname
    rw [List.append_cancel_left_eq] at heq
    exact (List.cons.inj heq).2

end

end S3
