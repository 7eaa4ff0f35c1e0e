import VBuckets.SignatureProofs

/-! # What an `Authorization` header says

    `parseAuthorizationHeader` splits at `", "`, then at `=`, then at `/` and `;`, and
    checks the parts.  Each stage has one biconditional here; chained, they say that the
    header that is read is the rendering of what was read from it, and nothing else is.

    Names of signed headers must equal their lower-casing.  Outside ASCII that is a table
    of the library, so the parser is taken with any lower-casing function
    (`parseAuthorizationHeaderBy`); the model's own is one of them. -/

namespace S3

open ByteString Url Http Mapping

theorem ok_bind {ε α β : Type} (a : α) (f : α → Except ε β) : (Except.ok a >>= f) = f a := rfl

/-! ## Splitting at a comma and a space -/

/-- No comma with a space after it. -/
def CommaFree (s : Bytes) : Prop := contains s (ascii ", ") = false

instance (s : Bytes) : Decidable (CommaFree s) :=
  inferInstanceAs (Decidable (contains s (ascii ", ") = false))

theorem commaFree_nil : CommaFree [] := rfl

/-- A separator is a comma with a blank behind it, found from the left. -/
theorem commaFree_cons {b : UInt8} {s : Bytes} :
    CommaFree (b :: s) ↔ ¬ (b = 44 ∧ s.head? = some 32) ∧ CommaFree s := by
  have hfront : hasPrefix (b :: s) (ascii ", ") = true ↔ b = 44 ∧ s.head? = some 32 := by
    rw [hasPrefix_iff]
    constructor
    · rintro ⟨t, ht⟩
      obtain ⟨rfl, rfl⟩ := List.cons.inj ht
      exact ⟨rfl, rfl⟩
    · rintro ⟨rfl, hs⟩
      obtain ⟨t, rfl⟩ := List.head?_eq_some_iff.mp hs
      exact ⟨t, rfl⟩
  rw [CommaFree, contains, Bool.or_eq_false_iff, Bool.eq_false_iff, ne_eq, hfront]
  rfl

theorem commaFree_of_notMem {s : Bytes} (h : (44 : UInt8) ∉ s) : CommaFree s := by
  induction s with
  | nil => rfl
  | cons b s ih =>
      rw [List.mem_cons, not_or] at h
      exact commaFree_cons.mpr ⟨fun hb => h.1 hb.1.symm, ih h.2⟩

/-- Another separator keeps a comma and a space apart. -/
theorem commaFree_append {sep : UInt8} (hcomma : sep ≠ 44) (hspace : sep ≠ 32) {a b : Bytes} :
    CommaFree (a ++ sep :: b) ↔ CommaFree a ∧ CommaFree b := by
  induction a with
  | nil =>
      rw [List.nil_append, commaFree_cons]
      constructor
      · rintro ⟨-, hb⟩
        exact ⟨commaFree_nil, hb⟩
      · rintro ⟨-, hb⟩
        exact ⟨fun h => hcomma h.1, hb⟩
  | cons c a ih =>
      rw [List.cons_append, commaFree_cons, ih, commaFree_cons, and_assoc]
      have hhead : (a ++ sep :: b).head? = some 32 ↔ a.head? = some 32 := by
        cases a with
        | nil => exact ⟨fun h => absurd (Option.some.inj h) hspace, fun h => (nomatch h)⟩
        | cons d a => rfl
      rw [hhead]

/-- Parts joined by another byte have a separator only inside a part.  A comma at the
    end of one and a blank at the beginning of the next are kept apart. -/
theorem commaFree_join {sep : UInt8} (hcomma : sep ≠ 44) (hspace : sep ≠ 32) {ws : List Bytes} :
    CommaFree (join sep ws) ↔ ∀ w ∈ ws, CommaFree w := by
  induction ws with
  | nil => exact ⟨fun _ _ hw => (nomatch hw), fun _ => rfl⟩
  | cons w ws ih =>
      rw [List.forall_mem_cons]
      cases ws with
      | nil =>
          rw [join]
          exact ⟨fun h => ⟨h, fun _ hw => (nomatch hw)⟩, fun h => h.1⟩
      | cons v vs =>
          show CommaFree (w ++ sep :: join sep (v :: vs)) ↔ _
          rw [commaFree_append hcomma hspace, ih]

theorem splitCommaSpace_ne_nil (s : Bytes) : splitCommaSpace s ≠ [] := by
  fun_cases splitCommaSpace s <;> exact List.cons_ne_nil _ _

/-- A text without separator is its only part. -/
theorem splitCommaSpace_of_commaFree {a : Bytes} (h : CommaFree a) : splitCommaSpace a = [a] := by
  induction a using splitCommaSpace.induct with
  | case1 | case2 => rfl
  | case3 a b s hsep ih => exact absurd ⟨hsep.1, congrArg some hsep.2⟩ (commaFree_cons.mp h).1
  | case4 a b s hsep hnil ih =>
      rw [ih (commaFree_cons.mp h).2] at hnil
      exact nomatch hnil
  | case5 a b s hsep w ws hrest ih =>
      have htail := ih (commaFree_cons.mp h).2
      rw [htail] at hrest
      cases hrest
      rw [splitCommaSpace, if_neg hsep, htail]

/-- The first separator ends the first part. -/
theorem splitCommaSpace_append {a : Bytes} (h : CommaFree a) (s : Bytes) :
    splitCommaSpace (a ++ 44 :: 32 :: s) = a :: splitCommaSpace s := by
  induction a with
  | nil => rw [List.nil_append, splitCommaSpace, if_pos ⟨rfl, rfl⟩]
  | cons c a ih =>
      obtain ⟨hsep, hfree⟩ := commaFree_cons.mp h
      have hrest := ih hfree
      cases a with
      | nil =>
          rw [List.nil_append] at hrest
          show splitCommaSpace (c :: 44 :: 32 :: s) = _
          rw [splitCommaSpace, if_neg (fun hd => (by decide : (44 : UInt8) ≠ 32) hd.2), hrest]
      | cons d a =>
          show splitCommaSpace (c :: d :: (a ++ 44 :: 32 :: s)) = _
          rw [splitCommaSpace, if_neg (fun hd => hsep ⟨hd.1, congrArg some hd.2⟩)]
          have hrest' : splitCommaSpace (d :: (a ++ 44 :: 32 :: s)) =
              (d :: a) :: splitCommaSpace s := hrest
          rw [hrest']

/-- The first part and what is left. -/
theorem splitCommaSpace_cons {s w : Bytes} {ws : List Bytes} (h : splitCommaSpace s = w :: ws) :
    CommaFree w ∧ ((ws = [] ∧ s = w) ∨
      ∃ rest, ws = splitCommaSpace rest ∧ s = w ++ 44 :: 32 :: rest) := by
  fun_induction splitCommaSpace s generalizing w ws with
  | case1 =>
      cases h
      exact ⟨commaFree_nil, .inl ⟨rfl, rfl⟩⟩
  | case2 b =>
      cases h
      refine ⟨commaFree_cons.mpr ⟨fun hb => (nomatch hb.2), commaFree_nil⟩, .inl ⟨rfl, rfl⟩⟩
  | case3 a b s hsep ih =>
      cases h
      refine ⟨commaFree_nil, .inr ⟨s, rfl, ?_⟩⟩
      rw [hsep.1, hsep.2]
      rfl
  | case4 a b s hsep hnil ih =>
      exact absurd hnil (splitCommaSpace_ne_nil _)
  | case5 a b s hsep v vs hrest ih =>
      cases h
      obtain ⟨hfree, hparts⟩ := ih hrest
      -- the second byte, if it belongs to the part, is its head
      have hhead : v.head? = some 32 → b = 32 := by
        intro hv
        obtain ⟨t, rfl⟩ := List.head?_eq_some_iff.mp hv
        rcases hparts with ⟨-, hs⟩ | ⟨rest, -, hs⟩
        · exact (List.cons.inj hs).1
        · exact (List.cons.inj hs).1
      refine ⟨commaFree_cons.mpr ⟨fun hv => hsep ⟨hv.1, hhead hv.2⟩, hfree⟩, ?_⟩
      rcases hparts with ⟨rfl, hs⟩ | ⟨rest, hws, hs⟩
      · exact .inl ⟨rfl, by rw [hs]⟩
      · exact .inr ⟨rest, hws, by rw [hs]; rfl⟩

/-- **THREE PARTS** are exactly three texts without the separator, with it in between. -/
theorem splitCommaSpace_three_iff {s first second third : Bytes} :
    splitCommaSpace s = [first, second, third] ↔
      s = first ++ 44 :: 32 :: (second ++ 44 :: 32 :: third) ∧
      CommaFree first ∧ CommaFree second ∧ CommaFree third := by
  constructor
  · intro h
    obtain ⟨hfirst, ⟨hnil, -⟩ | ⟨rest, hrest, hs⟩⟩ := splitCommaSpace_cons h
    · exact nomatch hnil
    · obtain ⟨hsecond, ⟨hnil, -⟩ | ⟨rest', hrest', hs'⟩⟩ := splitCommaSpace_cons hrest.symm
      · exact nomatch hnil
      · obtain ⟨hthird, ⟨-, hs''⟩ | ⟨rest'', hrest'', -⟩⟩ := splitCommaSpace_cons hrest'.symm
        · exact ⟨by rw [hs, hs', hs''], hfirst, hsecond, hthird⟩
        · exact absurd hrest''.symm (splitCommaSpace_ne_nil _)
  · rintro ⟨rfl, hfirst, hsecond, hthird⟩
    rw [splitCommaSpace_append hfirst, splitCommaSpace_append hsecond,
      splitCommaSpace_of_commaFree hthird]

/-! ## Fields -/

theorem cut_true {sep : UInt8} {s key value : Bytes} (h : cut sep s = (key, value, true)) :
    s = key ++ sep :: value ∧ sep ∉ key := by
  by_cases hmem : sep ∈ s
  · obtain ⟨a, b, rfl, ha⟩ := List.eq_append_cons_of_mem hmem
    rw [cut_append ha] at h
    cases h
    exact ⟨rfl, ha⟩
  · rw [cut_of_notMem hmem] at h
    exact nomatch h

/-- A part is accepted exactly if it is the key asked for, an equals sign and the
    value.  Further equals signs belong to the value. -/
theorem authorizationField_ok_iff {key part value : Bytes} (hkey : (61 : UInt8) ∉ key) :
    authorizationField key part = .ok value ↔ part = key ++ 61 :: value := by
  constructor
  · intro h
    rw [authorizationField] at h
    split at h
    · exact nomatch h
    · next k v hcut =>
        split at h
        · exact nomatch h
        · next hsame =>
            rw [not_not] at hsame
            rw [(cut_true hcut).1, hsame, Except.ok.inj h]
  · rintro rfl
    rw [authorizationField, cut_append hkey]
    simp only [ne_eq, not_true, if_false]

/-- The scope of a signature. -/
def scopeText (date region : Bytes) : Bytes :=
  date ++ ascii "/" ++ region ++ ascii "/s3/aws4_request"

/-- The scope as the four parts the credential is split into. -/
theorem scopeText_eq_join (date region : Bytes) :
    scopeText date region = join 47 [date, region, ascii "s3", ascii "aws4_request"] := by
  simp [scopeText, join, ascii]

/-- Two digits are read where two are expected. -/
theorem getnum_some {s rest : Bytes} {n : Int} (h : Time.getnum s = some (n, rest)) :
    ∃ a b, s = a :: b :: rest ∧ isDigitASCII a = true ∧ isDigitASCII b = true := by
  fun_cases Time.getnum s with
  | case1 a b s hdigits =>
      rw [Time.getnum, if_pos hdigits] at h
      cases h
      rw [Bool.and_eq_true] at hdigits
      exact ⟨a, b, rfl, hdigits⟩
  | case2 a b s hdigits =>
      rw [Time.getnum, if_neg hdigits] at h
      exact nomatch h
  | case3 s hshort =>
      rw [Time.getnum.eq_def] at h
      split at h
      · next a b s => exact absurd rfl (hshort a b s)
      · exact nomatch h

theorem of_guard {p : Prop} [Decidable p] {u : Unit} (h : (guard p : Option Unit) = some u) :
    p := by
  by_contra hp
  rw [guard, if_neg hp] at h
  exact nomatch h

/-- A date that is read has eight digits. -/
theorem digits_of_parseDate {date : Bytes} (h : (Time.parseDate date).isSome = true) :
    date.length = 8 ∧ date.all isDigitASCII = true := by
  obtain ⟨t, ht⟩ := Option.isSome_iff_exists.mp h
  simp only [Time.parseDate, Option.bind_eq_bind, Option.bind_eq_some_iff] at ht
  obtain ⟨_, hyear, ⟨month, rest⟩, hmonth, _, _, ⟨day, rest'⟩, hday, _, hend, _⟩ := ht
  obtain ⟨a, b, hdrop, ha, hb⟩ := getnum_some hmonth
  obtain ⟨c, d, rfl, hc, hd⟩ := getnum_some hday
  obtain rfl := of_guard hend
  have hlong := of_guard hyear
  rw [Bool.and_eq_true, decide_eq_true_eq] at hlong
  have hdate : date = date.take 4 ++ [a, b, c, d] := by
    rw [← hdrop, List.take_append_drop]
  constructor
  · rw [hdate, List.length_append, List.length_take]
    have hfour : min 4 date.length = 4 := Nat.min_eq_left hlong.1
    rw [hfour]
    rfl
  · rw [hdate, List.all_append, hlong.2]
    simp [ha, hb, hc, hd]

/-- Parts do not contain the separator. -/
theorem notMem_of_mem_split {sep : UInt8} {s w : Bytes} (h : w ∈ split sep s) : sep ∉ w := by
  induction s generalizing w with
  | nil =>
      rw [List.mem_singleton.mp h]
      exact List.not_mem_nil
  | cons b s ih =>
      by_cases hb : b = sep
      · rw [split, if_pos hb] at h
        rcases List.mem_cons.mp h with rfl | h
        · exact List.not_mem_nil
        · exact ih h
      · obtain ⟨v, vs, hvs⟩ := List.exists_cons_of_ne_nil (split_ne_nil sep s)
        rw [split, if_neg hb, hvs] at h
        rw [hvs] at ih
        rcases List.mem_cons.mp h with rfl | h
        · rw [List.mem_cons, not_or]
          exact ⟨fun hsep => hb hsep.symm, ih List.mem_cons_self⟩
        · exact ih (List.mem_cons_of_mem v h)

/-- What is read from a credential, and that it is well formed. -/
theorem parseCredential_ok_iff {value : Bytes} {credential : Credential} :
    parseCredential value = .ok credential ↔
      value = credential.accessKeyID ++ ascii "/" ++ credential.scope ∧
      validAccessKeyID credential.accessKeyID = true ∧
      (Time.parseDate credential.date).isSome = true ∧
      (credential.region ≠ [] ∧ (47 : UInt8) ∉ credential.region) ∧
      credential.service = ascii "s3" ∧
      credential.scope = scopeText credential.date credential.region := by
  constructor
  · intro h
    rw [parseCredential] at h
    split at h
    · next accessKey date region service terminator hsplit =>
        split at h
        · cases h
        · next hfields =>
            split at h
            · cases h
            · next hdate =>
                split at h
                · cases h
                · next hkey =>
                    -- all checks have passed; the text is the join of its five parts
                    simp only [not_or, not_not] at hfields
                    obtain ⟨-, -, hregion, rfl, rfl⟩ := hfields
                    cases h
                    have hjoin : join 47 (split 47 value) = value := join_split value
                    rw [hsplit] at hjoin
                    have hslash : (47 : UInt8) ∉ region :=
                      notMem_of_mem_split (s := value) (by simp [hsplit])
                    refine ⟨?_, ?_, Option.isSome_iff_ne_none.mpr hdate, ⟨hregion, hslash⟩, rfl,
                      (scopeText_eq_join date region).symm⟩
                    · rw [← hjoin]
                      simp [join, ascii]
                    · simpa using hkey
    · cases h
  · rintro ⟨hvalue, hkey, hdate, ⟨hregion, hslash⟩, hservice, hscope⟩
    obtain ⟨accessKey, date, region, service, scope⟩ := credential
    simp only at hvalue hkey hdate hregion hslash hservice hscope
    subst hservice hscope
    have hdigits := digits_of_parseDate hdate
    -- no part contains a slash, so the five are found again
    have hsplit : split 47 value =
        [accessKey, date, region, ascii "s3", ascii "aws4_request"] := by
      have hjoin : value = join 47 [accessKey, date, region, ascii "s3", ascii "aws4_request"] := by
        rw [hvalue]
        simp [scopeText, join, ascii]
      rw [hjoin]
      refine split_join (List.cons_ne_nil _ _) ?_
      simp only [List.forall_mem_cons]
      refine ⟨slash_notMem_of_validAccessKeyID hkey, ?_, hslash, by decide, by decide,
        fun w hw => (by cases hw)⟩
      intro hm
      cases List.all_eq_true.mp hdigits.2 47 hm
    have hfields : ¬ (accessKey = [] ∨ date = [] ∨ region = [] ∨ ascii "s3" ≠ ascii "s3" ∨
        ascii "aws4_request" ≠ ascii "aws4_request") := by
      rintro (rfl | rfl | hr | hs | ht)
      · exact absurd hkey (by decide)
      · cases hdigits.1
      · exact hregion hr
      · exact hs rfl
      · exact ht rfl
    rw [parseCredential, hsplit]
    simp only [if_neg hfields, if_neg (Option.isSome_iff_ne_none.mp hdate), hkey, Bool.not_true,
      Bool.false_eq_true, if_false, scopeText_eq_join]

/-! ## Signed headers -/

section
variable {lower : Bytes → Bytes}

/-- The loop lets lower-case names in strict order through. -/
theorem signedHeadersInOrderBy_ok_iff {last : Option Bytes} {names : List Bytes} :
    signedHeadersInOrderBy lower last names = .ok () ↔
      (∀ name ∈ names, name ≠ [] ∧ lower name = name) ∧
      (last.toList ++ names).Pairwise (fun a b => bytesLE b a = false) := by
  -- the loop compares with the name before only; transitivity gives all pairs
  induction names generalizing last with
  | nil =>
      refine iff_of_true rfl ⟨fun _ hname => (nomatch hname), ?_⟩
      cases last with
      | none => exact List.Pairwise.nil
      | some last => exact List.pairwise_singleton _ _
  | cons name names ih =>
      have hcase : (name = [] ∨ name ≠ lower name) ↔ ¬ (name ≠ [] ∧ lower name = name) := by
        rw [not_and_or, not_not, ne_comm]
      rw [signedHeadersInOrderBy.eq_def, List.forall_mem_cons]
      dsimp only
      by_cases hname : name ≠ [] ∧ lower name = name
      · rw [if_neg (fun h => hcase.mp h hname), and_iff_right hname]
        cases last with
        | none =>
            simp only [Bool.false_eq_true, if_false]
            exact ih
        | some last =>
            dsimp only
            by_cases horder : bytesLE name last = true
            · rw [if_pos horder]
              refine iff_of_false (fun h => (nomatch h)) ?_
              rintro ⟨-, hpairs⟩
              have hlast := (List.pairwise_cons.mp hpairs).1 name List.mem_cons_self
              exact nomatch horder.symm.trans hlast
            · rw [if_neg horder, ih]
              refine and_congr_right (fun _ => ⟨fun hpairs => ?_, fun hpairs => ?_⟩)
              · refine List.pairwise_cons.mpr ⟨?_, hpairs⟩
                intro b hb
                have hless := Bool.eq_false_iff.mpr horder
                rcases List.mem_cons.mp hb with rfl | hb
                · exact hless
                · exact bytesLT_trans hless ((List.pairwise_cons.mp hpairs).1 b hb)
              · exact (List.pairwise_cons.mp hpairs).2
      · rw [if_pos (hcase.mpr hname)]
        exact iff_of_false (fun h => (nomatch h)) (fun h => hname h.1.1)

/-- The names of a header that is accepted. -/
structure NamesValid (lower : Bytes → Bytes) (names : List Bytes) : Prop where
  lowered : ∀ name ∈ names, name ≠ [] ∧ lower name = name
  increasing : names.Pairwise (fun a b => bytesLE b a = false)
  host : ascii "host" ∈ names
  date : ascii "x-amz-date" ∈ names

/-- The names are accepted exactly if they are lower case, strictly increasing and
    include the two that every request has to sign. -/
theorem validateSignedHeadersBy_ok_iff {names : List Bytes} :
    validateSignedHeadersBy lower names = .ok () ↔ NamesValid lower names := by
  rw [validateSignedHeadersBy, seq_ok_iff, seq_ok_iff, seq_ok_iff, refuseIf_ok_iff,
    refuseIf_ok_iff, refuseIf_ok_iff, signedHeadersInOrderBy_ok_iff, Bool.not_eq_false',
    Bool.not_eq_false', List.contains_iff_mem, List.contains_iff_mem, decide_eq_false_iff_not]
  constructor
  · rintro ⟨-, ⟨hlowered, hincreasing⟩, hhost, hdate⟩
    exact ⟨hlowered, hincreasing, hhost, hdate⟩
  · intro h
    exact ⟨List.ne_nil_of_mem h.host, ⟨h.lowered, h.increasing⟩, h.host, h.date⟩

/-! ## The header -/

end

/-- The text of an `Authorization` header. -/
def authorizationText (accessKey scope : Bytes) (signedHeaders : List Bytes)
    (signature : Bytes) : Bytes :=
  ascii "AWS4-HMAC-SHA256 Credential=" ++ accessKey ++ ascii "/" ++ scope ++
    ascii ", SignedHeaders=" ++ join 59 signedHeaders ++ ascii ", Signature=" ++ signature

/-- The text of a header, taken apart at the places where the parser takes it apart. -/
theorem authorizationText_eq (accessKey scope : Bytes) (names : List Bytes) (signature : Bytes) :
    authorizationText accessKey scope names signature = ascii "AWS4-HMAC-SHA256 " ++
      ((ascii "Credential" ++ 61 :: (accessKey ++ ascii "/" ++ scope)) ++ 44 :: 32 ::
        ((ascii "SignedHeaders" ++ 61 :: join 59 names) ++ 44 :: 32 ::
          (ascii "Signature" ++ 61 :: signature))) := by
  simp [authorizationText, ascii]

/-- What a header that is accepted says. -/
structure AuthInfo.WellFormed (lower : Bytes → Bytes) (info : AuthInfo) : Prop where
  accessKey : validAccessKeyID info.accessKeyID = true
  date : (Time.parseDate info.date).isSome = true
  digits : info.date.length = 8 ∧ info.date.all isDigitASCII = true
  region : info.region ≠ [] ∧ (47 : UInt8) ∉ info.region ∧ CommaFree info.region
  service : info.service = ascii "s3"
  scope : info.scope = scopeText info.date info.region
  names : NamesValid lower info.signedHeaders
  separated : ∀ name ∈ info.signedHeaders, (59 : UInt8) ∉ name ∧ CommaFree name
  signature : info.signature.length = 64 ∧ info.signature.all isLowerHex = true

section
variable {lower : Bytes → Bytes} {header : Bytes} {info : AuthInfo}

/-- The text of a well-formed credential has no comma but in its region. -/
theorem commaFree_credential {accessKey date region : Bytes}
    (hkey : validAccessKeyID accessKey = true) (hdate : date.all isDigitASCII = true) :
    CommaFree (ascii "Credential" ++ 61 :: (accessKey ++ ascii "/" ++ scopeText date region)) ↔
      CommaFree region := by
  have hkeyFree : CommaFree accessKey := by
    refine commaFree_of_notMem (fun hm => ?_)
    rw [validAccessKeyID, Bool.and_eq_true] at hkey
    exact absurd (List.all_eq_true.mp hkey.2 44 hm) (by decide)
  have hdateFree : CommaFree date :=
    commaFree_of_notMem (fun hm => absurd (List.all_eq_true.mp hdate 44 hm) (by decide))
  have htext : accessKey ++ ascii "/" ++ scopeText date region =
      join 47 [accessKey, date, region, ascii "s3", ascii "aws4_request"] := by
    simp [scopeText, join, ascii]
  rw [commaFree_append (by decide) (by decide), htext, commaFree_join (by decide) (by decide)]
  simp only [List.forall_mem_cons]
  constructor
  · rintro ⟨-, -, -, hregion, -⟩
    exact hregion
  · intro hregion
    exact ⟨by decide, hkeyFree, hdateFree, hregion, by decide, by decide,
      fun _ hw => (by cases hw)⟩

/-- **A HEADER READS EXACTLY**: it is accepted when it is the text of well-formed fields, and
    these are what is read. -/
theorem parseAuthorizationHeaderBy_ok_iff :
    parseAuthorizationHeaderBy lower header = .ok info ↔
      header = authorizationText info.accessKeyID info.scope info.signedHeaders info.signature ∧
      info.WellFormed lower := by
  have hcredentialKey : (61 : UInt8) ∉ ascii "Credential" := by decide
  have hnamesKey : (61 : UInt8) ∉ ascii "SignedHeaders" := by decide
  have hsignatureKey : (61 : UInt8) ∉ ascii "Signature" := by decide
  constructor
  · intro h
    rw [parseAuthorizationHeaderBy] at h
    split at h
    · exact nomatch h
    · next halgorithm =>
        rw [Bool.not_eq_true, Bool.not_eq_false'] at halgorithm
        obtain ⟨rest, rfl⟩ := hasPrefix_iff.mp halgorithm
        rw [trimPrefix_append] at h
        split at h
        · next first second third hparts =>
            obtain ⟨rfl, hfirst, hsecond, -⟩ := splitCommaSpace_three_iff.mp hparts
            -- peel the reader field by field, and turn each into the text it accepts
            obtain ⟨value, hvalue, h⟩ := bind_ok h
            obtain ⟨credential, hcredential, h⟩ := bind_ok h
            obtain ⟨names, hnames, h⟩ := bind_ok h
            obtain ⟨_, hvalid, h⟩ := bind_ok h
            obtain ⟨signature, hsignature, h⟩ := bind_ok h
            obtain ⟨_, hhex, h⟩ := bind_ok h
            cases h
            obtain rfl := (authorizationField_ok_iff hcredentialKey).mp hvalue
            obtain rfl := (authorizationField_ok_iff hnamesKey).mp hnames
            obtain rfl := (authorizationField_ok_iff hsignatureKey).mp hsignature
            obtain ⟨rfl, hkey, hdate, ⟨hregion, hslash⟩, hservice, hscope⟩ :=
              parseCredential_ok_iff.mp hcredential
            have hdigits := digits_of_parseDate hdate
            rw [hscope, commaFree_credential hkey hdigits.2] at hfirst
            rw [commaFree_append (by decide) (by decide)] at hsecond
            have hjoin : join 59 (split 59 names) = names := join_split names
            rw [← hjoin, commaFree_join (by decide) (by decide)] at hsecond
            rw [refuseIf_ok_iff, Bool.or_eq_false_iff, bne_eq_false_iff_eq,
              Bool.not_eq_false'] at hhex
            refine ⟨?_, ⟨hkey, hdate, hdigits, ⟨hregion, hslash, hfirst⟩, hservice, hscope,
              validateSignedHeadersBy_ok_iff.mp hvalid, ?_, hhex⟩⟩
            · rw [authorizationText_eq, hjoin]
            · intro name hname
              exact ⟨notMem_of_mem_split hname, hsecond.2 name hname⟩
        · exact nomatch h
  · rintro ⟨rfl, h⟩
    -- the other way: no field contains the separator, so the header splits alike
    have hfirst : CommaFree
        (ascii "Credential" ++ 61 :: (info.accessKeyID ++ ascii "/" ++ info.scope)) := by
      rw [h.scope, commaFree_credential h.accessKey h.digits.2]
      exact h.region.2.2
    have hsecond : CommaFree (ascii "SignedHeaders" ++ 61 :: join 59 info.signedHeaders) := by
      rw [commaFree_append (by decide) (by decide), commaFree_join (by decide) (by decide)]
      exact ⟨by decide, fun name hname => (h.separated name hname).2⟩
    have hthird : CommaFree (ascii "Signature" ++ 61 :: info.signature) := by
      rw [commaFree_append (by decide) (by decide)]
      refine ⟨by decide, commaFree_of_notMem (fun hm => ?_)⟩
      exact nomatch List.all_eq_true.mp h.signature.2 44 hm
    have hparts := splitCommaSpace_three_iff.mpr ⟨rfl, hfirst, hsecond, hthird⟩
    have hcredential : parseCredential (info.accessKeyID ++ ascii "/" ++ info.scope) =
        .ok { accessKeyID := info.accessKeyID, date := info.date, region := info.region,
              service := info.service, scope := info.scope } :=
      parseCredential_ok_iff.mpr
        ⟨rfl, h.accessKey, h.date, ⟨h.region.1, h.region.2.1⟩, h.service, h.scope⟩
    have hsplit : split 59 (join 59 info.signedHeaders) = info.signedHeaders :=
      split_join (List.ne_nil_of_mem h.names.host) (fun name hname => (h.separated name hname).1)
    have hhex : (info.signature.length != 64 || !info.signature.all isLowerHex) = false := by
      rw [h.signature.1, h.signature.2]
      rfl
    rw [authorizationText_eq, parseAuthorizationHeaderBy]
    simp only [hasPrefix_iff.mpr (List.prefix_append _ _), trimPrefix_append, hparts,
      Bool.not_true, Bool.false_eq_true, if_false]
    rw [(authorizationField_ok_iff hcredentialKey).mpr rfl, ok_bind, hcredential, ok_bind,
      (authorizationField_ok_iff hnamesKey).mpr rfl, ok_bind, hsplit,
      validateSignedHeadersBy_ok_iff.mpr h.names, ok_bind,
      (authorizationField_ok_iff hsignatureKey).mpr rfl, ok_bind, refuseIf_ok_iff.mpr hhex, ok_bind]

end

/-- A header that is read is the text of what was read. -/
theorem parseAuthorizationHeader_ok {header : Bytes} {info : AuthInfo}
    (h : parseAuthorizationHeader header = .ok info) :
    header = authorizationText info.accessKeyID info.scope info.signedHeaders info.signature ∧
      info.WellFormed toLower :=
  parseAuthorizationHeaderBy_ok_iff.mp h

/-! ## The scope of a header that is read -/

section
variable {ε α β : Type} {e : ε}

theorem bind_ne_error {a : Except ε α} {f : α → Except ε β} (ha : a ≠ .error e)
    (hf : ∀ v, f v ≠ .error e) : a >>= f ≠ .error e := by
  cases a with
  | error e' => exact fun h => ha (congrArg Except.error (Except.error.inj h))
  | ok v => exact hf v

theorem ite_ne_error {p : Prop} [Decidable p] {a b : Except ε α} (ha : a ≠ .error e)
    (hb : ¬ p → b ≠ .error e) : (if p then a else b) ≠ .error e := by
  by_cases hp : p
  · rw [if_pos hp]
    exact ha
  · rw [if_neg hp]
    exact hb hp

end

/-- The error for a scope that is not the one its parts make. -/
def scopeInconsistent : SignatureError :=
  { reason := { format := "credential scope is inconsistent" } }

theorem ne_scopeInconsistent {α : Type} {e : SignatureError}
    (h : e.reason.format ≠ scopeInconsistent.reason.format) :
    (.error e : Except SignatureError α) ≠ .error scopeInconsistent := by
  intro heq
  rw [Except.error.inj heq] at h
  exact h rfl

theorem ne_scopeInconsistent_reason {α : Type} {e : Reason}
    (h : e.format ≠ scopeInconsistent.reason.format) :
    (.error e : Except Reason α) ≠ .error scopeInconsistent.reason := by
  intro heq
  rw [Except.error.inj heq] at h
  exact h rfl

/-- The loop over the names has errors of its own. -/
theorem signedHeadersInOrderBy_ne_scopeInconsistent (lower : Bytes → Bytes)
    (last : Option Bytes) (names : List Bytes) :
    signedHeadersInOrderBy lower last names ≠ .error scopeInconsistent.reason := by
  induction names generalizing last with
  | nil => exact fun h => nomatch h
  | cons name names ih =>
      refine ite_ne_error (ne_scopeInconsistent_reason (by decide)) (fun _ => ?_)
      exact ite_ne_error (ne_scopeInconsistent_reason (by decide)) (fun _ => ih _)

/-- So has the check of the names, also as an error of the verifier. -/
theorem validateSignedHeaders_ne_scopeInconsistent (names : List Bytes) :
    (validateSignedHeaders names).mapError (fun e => ({ reason := e } : SignatureError)) ≠
      .error scopeInconsistent := by
  have hreason : validateSignedHeaders names ≠ .error scopeInconsistent.reason := by
    refine bind_ne_error (ite_ne_error (ne_scopeInconsistent_reason (by decide))
      (fun _ h => nomatch h)) (fun _ => ?_)
    refine bind_ne_error (signedHeadersInOrderBy_ne_scopeInconsistent toLower none names) (fun _ => ?_)
    refine bind_ne_error (ite_ne_error (ne_scopeInconsistent_reason (by decide))
      (fun _ h => nomatch h)) (fun _ => ?_)
    exact ite_ne_error (ne_scopeInconsistent_reason (by decide)) (fun _ h => nomatch h)
  cases hnames : validateSignedHeaders names with
  | error e =>
      intro h
      rw [hnames] at hreason
      exact hreason (congrArg (fun e : SignatureError => Except.error e.reason)
        (Except.error.inj h))
  | ok _ => exact fun h => nomatch h

/-- The checks of the signed headers have other errors. -/
theorem checkSignedRequest_ne_scopeInconsistent (r : Request) (info : AuthInfo) :
    checkSignedRequest r info ≠ .error scopeInconsistent := by
  refine bind_ne_error (validateSignedHeaders_ne_scopeInconsistent _) (fun _ => ?_)
  refine ite_ne_error (ne_scopeInconsistent (by decide)) (fun _ => ?_)
  refine ite_ne_error (ne_scopeInconsistent (by decide)) (fun _ => ?_)
  refine ite_ne_error (ne_scopeInconsistent (by decide)) (fun _ => ?_)
  refine bind_ne_error (ite_ne_error (ne_scopeInconsistent (by decide)) (fun _ h => nomatch h))
    (fun _ => ?_)
  refine bind_ne_error (ite_ne_error (ne_scopeInconsistent (by decide)) (fun _ h => nomatch h))
    (fun _ => ?_)
  refine ite_ne_error (ne_scopeInconsistent (by decide)) (fun _ => ?_)
  refine ite_ne_error (ne_scopeInconsistent (by decide)) (fun _ => ?_)
  rw [requireSignedAmzHeaders]
  split
  · next lower _ => exact ne_scopeInconsistent (by dsimp only; decide)
  · exact fun h => nomatch h

/-- A consistent scope is never called inconsistent. -/
theorem verifySignatureAtTime_ne_scopeInconsistent {info : AuthInfo}
    (hscope : info.scope = scopeText info.date info.region) (cr : Crypto) (r : Request)
    (secretKey : Bytes) (now : Time.Instant) (maxSkew : Int) :
    verifySignatureAtTime cr r info secretKey now maxSkew ≠ .error scopeInconsistent := by
  have htimes : checkTimes r info now maxSkew ≠ .error scopeInconsistent := by
    refine ite_ne_error (ne_scopeInconsistent (by decide)) (fun _ => ?_)
    split
    · exact ne_scopeInconsistent (by dsimp only; decide)
    · refine ite_ne_error (ne_scopeInconsistent (by decide)) (fun _ => ?_)
      have hsame : ¬ info.scope ≠
          info.date ++ ascii "/" ++ info.region ++ ascii "/s3/aws4_request" := not_not.mpr hscope
      rw [if_neg hsame]
      exact ite_ne_error (ne_scopeInconsistent (by decide)) (fun _ h => nomatch h)
  refine bind_ne_error (checkSignedRequest_ne_scopeInconsistent r info) (fun _ => ?_)
  refine bind_ne_error htimes (fun _ => ?_)
  exact ite_ne_error (ne_scopeInconsistent (by decide)) (fun _ h => nomatch h)

/-- **AUTHORIZATION PARSING IS EXACT**: with any lower-casing, a header is read as some
    fields exactly when it is their text and they are well formed.  So different headers
    are never read alike, and the scope that was read is never found inconsistent.  The
    parser of the model is the one with the model's lower-casing. -/
theorem authorization_parsing_exact (lower : Bytes → Bytes) :
    (∀ header info, parseAuthorizationHeaderBy lower header = .ok info ↔
      header = authorizationText info.accessKeyID info.scope info.signedHeaders info.signature ∧
      info.WellFormed lower) ∧
    (∀ header other info, parseAuthorizationHeaderBy lower header = .ok info →
      parseAuthorizationHeaderBy lower other = .ok info → header = other) ∧
    (∀ header info, parseAuthorizationHeaderBy lower header = .ok info →
      ∀ cr r secretKey now maxSkew,
        verifySignatureAtTime cr r info secretKey now maxSkew ≠ .error scopeInconsistent) ∧
    parseAuthorizationHeaderBy toLower = parseAuthorizationHeader := by
  refine ⟨fun header info => parseAuthorizationHeaderBy_ok_iff, ?_, ?_, rfl⟩
  · intro header other info hheader hother
    rw [(parseAuthorizationHeaderBy_ok_iff.mp hheader).1,
      (parseAuthorizationHeaderBy_ok_iff.mp hother).1]
  · intro header info hheader
    exact verifySignatureAtTime_ne_scopeInconsistent
      (parseAuthorizationHeaderBy_ok_iff.mp hheader).2.scope

/-- Fields as clients send them. -/
def plainAuthInfo : AuthInfo where
  accessKeyID := ascii "AKID"
  date := ascii "20260201"
  region := ascii "us-east-1"
  service := ascii "s3"
  signedHeaders := [ascii "host", ascii "x-amz-date"]
  signature := List.replicate 64 48
  scope := ascii "20260201/us-east-1/s3/aws4_request"

/-- The header most clients send is read as its fields. -/
theorem authorization_parsing_exact_plain :
    parseAuthorizationHeaderBy toLower
      (authorizationText plainAuthInfo.accessKeyID plainAuthInfo.scope plainAuthInfo.signedHeaders
        plainAuthInfo.signature) = .ok plainAuthInfo := by
  refine ((authorization_parsing_exact toLower).1 _ _).mpr ⟨rfl, ?_⟩
  have hnames : NamesValid toLower plainAuthInfo.signedHeaders :=
    ⟨by decide +kernel, by decide +kernel, by decide +kernel, by decide +kernel⟩
  exact ⟨by decide +kernel, by decide +kernel, by decide +kernel, by decide +kernel,
    by decide +kernel, by decide +kernel, hnames, by decide +kernel, by decide +kernel⟩

end S3
