import VBuckets.CanonicalProofs
import VBuckets.MiddlewareProofs
import VBuckets.CoverageProofs

/-! # A signature stays with its operation

    The planner reads the method, the target, the query and some `x-amz-` headers.  All
    of it is signed: the target through the path and the host, the headers because
    `requireSignedAmzHeaders` insists, and a header that counts cannot be empty, so its
    signed value also tells whether it is there.

    One thing is signed only up to the length of its runs of spaces, the copy source.
    `signature_not_transplanted` puts this together: requests with one canonical request
    have the same plan but for those runs. -/

namespace S3

open ByteString Url Http

/-! ## Runs of spaces in a copy source -/

/-- Cutting at another byte keeps a leading blank, and makes none. -/
theorem head_cut_space {sep : UInt8} (hsep : sep ≠ 32) (s : Bytes) :
    (cut sep s).1.head? = some 32 ↔ s.head? = some 32 := by
  cases s with
  | nil => exact Iff.rfl
  | cons b s =>
      rw [cut]
      split
      · next hb =>
          refine ⟨(fun h => by cases h), fun h => ?_⟩
          exact absurd (hb.symm.trans (Option.some.inj h)) hsep
      · exact Iff.rfl

/-- Cutting at another byte goes with squeezing. -/
theorem cut_squeezeSpaces {sep : UInt8} (hsep : sep ≠ 32) (s : Bytes) :
    cut sep (squeezeSpaces s) =
      (squeezeSpaces (cut sep s).1, squeezeSpaces (cut sep s).2.1, (cut sep s).2.2) := by
  induction s with
  | nil => rfl
  | cons b s ih =>
      by_cases hpair : b = 32 ∧ s.head? = some 32
      · have hb : ¬ b = sep := fun hb => hsep (hb.symm.trans hpair.1)
        have hcut : b = 32 ∧ (cut sep s).1.head? = some 32 :=
          ⟨hpair.1, (head_cut_space hsep s).mpr hpair.2⟩
        rw [squeezeSpaces, if_pos hpair, ih]
        simp only [cut, if_neg hb, squeezeSpaces, if_pos hcut]
      · rw [squeezeSpaces, if_neg hpair]
        by_cases hb : b = sep
        · simp only [cut, if_pos hb, squeezeSpaces]
        · have hcut : ¬ (b = 32 ∧ (cut sep s).1.head? = some 32) :=
            fun h => hpair ⟨h.1, (head_cut_space hsep s).mp h.2⟩
          simp only [cut, if_neg hb, ih, squeezeSpaces, if_neg hcut]

/-- The slash a copy source may begin with. -/
theorem trimPrefix_slash (s : Bytes) :
    trimPrefix s (ascii "/") = if s.head? = some 47 then s.tail else s := by
  cases s with
  | nil => rfl
  | cons b s =>
      by_cases hb : b = 47
      · subst hb
        rfl
      · have hne : ¬ (b :: s).head? = some 47 := fun h => hb (Option.some.inj h)
        rw [trimPrefix, if_neg, if_neg hne]
        intro h
        obtain ⟨t, ht⟩ := hasPrefix_iff.mp h
        exact hb (List.cons.inj ht).1.symm

/-- Removing it and squeezing blanks are independent, so the squeezed text is cut
    where the raw one is. -/
theorem trimPrefix_squeezeSpaces (s : Bytes) :
    trimPrefix (squeezeSpaces s) (ascii "/") = squeezeSpaces (trimPrefix s (ascii "/")) := by
  rw [trimPrefix_slash, trimPrefix_slash, head_squeezeSpaces]
  split
  · next h =>
      obtain ⟨t, rfl⟩ := List.head?_eq_some_iff.mp h
      rw [squeezeSpaces_cons (by decide)]
      rfl
  · rfl

/-- A blank is no digit of an escape; squeezing never breaks one apart. -/
theorem isHex_ne_space {c : UInt8} (h : isHex c = true) : c ≠ 32 := by
  rintro rfl
  exact absurd h (by decide)

/-- Reading escapes goes with squeezing: an escape has no space inside. -/
theorem pathUnescape_squeezeSpaces {s d : Bytes} (h : pathUnescape s = some d) :
    ∃ e, pathUnescape (squeezeSpaces s) = some e ∧ squeezeSpaces e = squeezeSpaces d := by
  -- an escape takes three bytes, so the induction is on the length
  induction hn : s.length using Nat.strong_induction_on generalizing s d with
  | _ n ih =>
      rw [pathUnescape] at h
      cases s with
      | nil => exact ⟨d, h, rfl⟩
      | cons c s =>
          by_cases hc : c = 37
          · subst hc
            rw [unescape.eq_def] at h
            simp only [beq_self_eq_true, if_true] at h
            split at h
            · next hi lo s =>
                split at h
                · next hhex =>
                    simp only [Bool.and_eq_true] at hhex
                    obtain ⟨d, hd, rfl⟩ := Option.map_eq_some_iff.mp h
                    obtain ⟨e, he, hsq⟩ := ih s.length (by simp at hn; omega) hd rfl
                    refine ⟨_, ?_, squeezeSpaces_cons_congr _ hsq⟩
                    rw [squeezeSpaces_cons (by decide), squeezeSpaces_cons (isHex_ne_space hhex.1.1),
                      squeezeSpaces_cons (isHex_ne_space hhex.1.2), pathUnescape, unescape.eq_def]
                    simp only [beq_self_eq_true, if_true, hhex.1.1, hhex.1.2]
                    rw [pathUnescape] at he
                    rw [he]
                    rfl
                · cases h
            · cases h
          · have hc' : (c == 37) = false := beq_eq_false_iff_ne.mpr hc
            have hread : ∀ t, unescape (c :: t) .path = (unescape t .path).map (c :: ·) := by
              intro t
              rw [unescape_cons hc']
              simp
            rw [hread] at h
            obtain ⟨d, hd, rfl⟩ := Option.map_eq_some_iff.mp h
            obtain ⟨e, he, hsq⟩ := ih s.length (by simp at hn; omega) hd rfl
            by_cases hpair : c = 32 ∧ s.head? = some 32
            · -- the second space of a pair is read as a space too
              obtain ⟨rfl, hhead⟩ := hpair
              obtain ⟨t, rfl⟩ := List.head?_eq_some_iff.mp hhead
              rw [hread] at hd
              obtain ⟨d', -, rfl⟩ := Option.map_eq_some_iff.mp hd
              refine ⟨e, ?_, ?_⟩
              · rw [squeezeSpaces, if_pos ⟨rfl, rfl⟩]
                exact he
              · rw [hsq, squeezeSpaces.eq_def (32 :: 32 :: d')]
                simp
            · refine ⟨c :: e, ?_, squeezeSpaces_cons_congr c hsq⟩
              rw [squeezeSpaces, if_neg hpair, pathUnescape, hread]
              rw [pathUnescape] at he
              rw [he]
              rfl

section
variable {raw₁ raw₂ bucket : Bytes} {source₁ source₂ : CopySource}

/-- The key and the query of a copy source, squeezed, are those of the value that is
    signed. -/
theorem squeezeSpaces_copySource (raw : Bytes) :
    squeezeSpaces (copySourceKeyText raw) =
        (cut 47 (cut 63 (trimPrefix (canonicalHeaderValue raw) (ascii "/"))).1).2.1 ∧
      squeezeSpaces (copySourceQuery raw) =
        (cut 63 (trimPrefix (canonicalHeaderValue raw) (ascii "/"))).2.1 := by
  rw [canonicalHeaderValue_eq, trimPrefix_squeezeSpaces, cut_squeezeSpaces (by decide),
    cut_squeezeSpaces (by decide)]
  exact ⟨rfl, rfl⟩

/-- Copy sources with one signed value differ in the runs of spaces of the key. -/
theorem copySource_of_signed (h₁ : parseCopySource raw₁ bucket = .ok source₁)
    (h₂ : parseCopySource raw₂ bucket = .ok source₂)
    (h : canonicalHeaderValue raw₁ = canonicalHeaderValue raw₂) :
    squeezeSpaces source₁.key = squeezeSpaces source₂.key ∧
      copySourceAction source₁ = copySourceAction source₂ := by
  obtain ⟨hkey₁, hquery₁⟩ := squeezeSpaces_copySource raw₁
  obtain ⟨hkey₂, hquery₂⟩ := squeezeSpaces_copySource raw₂
  rw [← h] at hkey₂ hquery₂
  constructor
  · obtain ⟨e₁, he₁, hs₁⟩ := pathUnescape_squeezeSpaces (parseCopySource_ok h₁).key_text
    obtain ⟨e₂, he₂, hs₂⟩ := pathUnescape_squeezeSpaces (parseCopySource_ok h₂).key_text
    rw [hkey₁, ← hkey₂, he₂] at he₁
    rw [← hs₁, ← hs₂, Option.some.inj he₁]
  · have hversion : source₁.versionID = [] ↔ source₂.versionID = [] := by
      rw [copySource_version_iff h₁, copySource_version_iff h₂]
      constructor
      · intro hnil
        refine squeezeSpaces_eq_nil ?_
        rw [hquery₂, ← hquery₁, hnil]
        rfl
      · intro hnil
        refine squeezeSpaces_eq_nil ?_
        rw [hquery₁, ← hquery₂, hnil]
        rfl
    simp only [copySourceAction, ne_eq, hversion]

end

/-! ## Which headers are there -/

/-- A header that may occur once does so with a value. -/
theorem singleton_ok {headers : Header} (h : validateOperationHeaders headers = .ok ())
    {name : Bytes} (hname : name ∈ singletons headers)
    (hpresent : allHeaderValues headers name ≠ []) :
    ∃ value, allHeaderValues headers name = [value] ∧ trimSpace value ≠ [] := by
  have hcheck := checkEach_ok_iff.mp (seq_ok_iff.mp (seq_ok_iff.mp h).2).1 name hname
  obtain ⟨honce, hvalue⟩ := seq_ok_iff.mp hcheck
  rw [refuseIf_ok_iff] at honce hvalue
  cases hall : allHeaderValues headers name with
  | nil => exact absurd hall hpresent
  | cons value values =>
      cases values with
      | nil =>
          rw [hall] at hvalue
          exact ⟨value, rfl, beq_eq_false_iff_ne.mp hvalue⟩
      | cons _ _ =>
          rw [hall] at honce
          exact absurd honce (by simp)

section
variable {r r₁ r₂ : Request} {sh : List Bytes}

/-- An `x-amz-` header that is there is signed. -/
theorem SignedBy.mem (h : SignedBy r sh) {name : Bytes} (hname : name ∈ r.header)
    (hamz : hasPrefix (toLower name) (ascii "x-amz-") = true)
    (hsha : toLower name ≠ ascii "x-amz-content-sha256") : toLower name ∈ sh := by
  have hlower := (validateSignedHeadersBy_ok_iff.mp h.valid).lowered
  have hnone : (r.header.keys.map toLower).find? (fun lower =>
      hasPrefix lower (ascii "x-amz-") && lower != ascii "x-amz-content-sha256" &&
        !(sh.map toLower).contains lower) = none := by
    have hamz := h.amz
    rw [requireSignedAmzHeaders] at hamz
    split at hamz
    · cases hamz
    · assumption
  have hkey := List.find?_eq_none.mp hnone (toLower name)
    (List.mem_map_of_mem (AList.mem_keys.mp hname))
  simp only [hamz, bne_iff_ne.mpr hsha, Bool.true_and, Bool.not_eq_true', Bool.not_eq_false,
    List.contains_iff_mem, List.mem_map] at hkey
  obtain ⟨signed, hsigned, heq⟩ := hkey
  rw [← heq, (hlower signed hsigned).2]
  exact hsigned

theorem mem_of_values_ne_nil {header : Header} {name : Bytes} (h : header.values name ≠ []) :
    canonicalHeaderKey name ∈ header := by
  by_contra hmem
  rw [Header.values, AList.lookup_eq_none.mpr hmem] at h
  exact h rfl

/-- An `x-amz-` name, in lower case, of a header that must be signed. -/
structure SignedName (name : Bytes) : Prop where
  token : isToken name = true
  lower : toLower name = name
  amz : hasPrefix name (ascii "x-amz-") = true
  notHash : name ≠ ascii "x-amz-content-sha256"

/-- The signed value of such a name is read from the headers, none of the special
    cases of the canonical form applies to it. -/
theorem SignedName.canonicalValue_eq {name : Bytes} (h : SignedName name) (r : Request) :
    canonicalValue r name = join 44 ((r.header.values name).map canonicalHeaderValue) := by
  have hhost : ¬ name = ascii "host" := by
    rintro rfl
    exact absurd h.amz (by decide)
  have hlength : ¬ name = ascii "content-length" := by
    rintro rfl
    exact absurd h.amz (by decide)
  rw [canonicalValue, signedValues, if_neg hhost, if_neg (fun hl => hlength hl.1)]

/-- Two requests that passed the checks and have the same signed values. -/
structure SameSigned (r₁ r₂ : Request) (sh : List Bytes) : Prop where
  delivered₁ : Delivered r₁
  delivered₂ : Delivered r₂
  signed₁ : SignedBy r₁ sh
  signed₂ : SignedBy r₂ sh
  headers₁ : validateOperationHeaders r₁.header = .ok ()
  headers₂ : validateOperationHeaders r₂.header = .ok ()
  values : ∀ name ∈ sh, canonicalValue r₁ name = canonicalValue r₂ name

/-- Nothing distinguishes the request that was signed from the one it is transplanted
    to. -/
theorem SameSigned.symm (h : SameSigned r₁ r₂ sh) : SameSigned r₂ r₁ sh :=
  ⟨h.delivered₂, h.delivered₁, h.signed₂, h.signed₁, h.headers₂, h.headers₁,
    fun name hname => (h.values name hname).symm⟩

/-- **PRESENCE IS SIGNED**: a header that may not be empty is in both requests, once and
    with the same signed value. -/
theorem SameSigned.present (h : SameSigned r₁ r₂ sh) {name : Bytes} (hname : SignedName name)
    (honce : name ∈ singletons r₁.header) (hpresent : r₁.header.values name ≠ []) :
    r₂.header.values name ≠ [] ∧ ∃ value, r₁.header.values name = [value] ∧
      canonicalHeaderValue value = canonicalValue r₂ name := by
  have hmem := mem_of_values_ne_nil hpresent
  have hlower := (toLower_canonicalHeaderKey name).trans hname.lower
  have hsigned : name ∈ sh := by
    have := h.signed₁.mem hmem (by rw [hlower]; exact hname.amz)
      (by rw [hlower]; exact hname.notHash)
    rwa [hlower] at this
  rw [← allHeaderValues_canonical h.delivered₁.names hname.token] at hpresent
  obtain ⟨value, hvalue, hne⟩ := singleton_ok h.headers₁ honce hpresent
  rw [allHeaderValues_canonical h.delivered₁.names hname.token] at hvalue
  have heq := h.values name hsigned
  rw [hname.canonicalValue_eq r₁, hvalue] at heq
  refine ⟨fun hnil => ?_, value, hvalue, heq⟩
  rw [hname.canonicalValue_eq, hnil] at heq
  have hempty : canonicalHeaderValue value = [] := heq
  rw [canonicalHeaderValue_eq] at hempty
  exact hne (squeezeSpaces_eq_nil hempty)

/-- Delivered headers have values, so a header is there exactly if it has one. -/
theorem hasHeader_iff (hd : Delivered r) {name : Bytes} (hname : isToken name = true) :
    hasHeader r.header name = true ↔ r.header.values name ≠ [] := by
  rw [hasHeader, allHeaderValues_canonical hd.names hname, decide_eq_true_iff]

/-- Which of the signed headers are there is the same on both sides. -/
theorem SameSigned.hasHeader_eq (h : SameSigned r₁ r₂ sh) {name : Bytes}
    (hname : SignedName name) (honce : ∀ headers, name ∈ singletons headers) :
    hasHeader r₁.header name = hasHeader r₂.header name := by
  rw [Bool.eq_iff_iff, hasHeader_iff h.delivered₁ hname.token,
    hasHeader_iff h.delivered₂ hname.token]
  exact ⟨fun hp => (h.present hname (honce _) hp).1, fun hp => (h.symm.present hname (honce _) hp).1⟩

/-- The grant headers are among the `x-amz-` headers that have to be signed. -/
theorem knownGrantHeader_signedName {name : Bytes} (h : knownGrantHeader name = true) :
    SignedName name := by
  rw [knownGrantHeader, List.contains_iff_mem] at h
  simp only [List.mem_cons, List.not_mem_nil, or_false] at h
  rcases h with rfl | rfl | rfl | rfl | rfl
  · exact ⟨by decide, by decide, by decide, by decide⟩
  · exact ⟨by decide, by decide, by decide, by decide⟩
  · exact ⟨by decide, by decide, by decide, by decide⟩
  · exact ⟨by decide, by decide, by decide, by decide⟩
  · exact ⟨by decide, by decide, by decide, by decide⟩

/-- A grant of one request is a grant of the other. -/
theorem SameSigned.grant (h : SameSigned r₁ r₂ sh)
    (hgrant : r₁.header.keys.any (fun name => knownGrantHeader (toLower name)) = true) :
    r₂.header.keys.any (fun name => knownGrantHeader (toLower name)) = true := by
  obtain ⟨name, hmem, hknown⟩ := List.any_eq_true.mp hgrant
  have hname := knownGrantHeader_signedName hknown
  have honce : toLower name ∈ singletons r₁.header := by
    refine List.mem_append_right _ (List.mem_filter.mpr ⟨List.mem_map_of_mem hmem, ?_⟩)
    rw [hknown]
    rfl
  have hkey : canonicalHeaderKey (toLower name) = name := by
    obtain ⟨htoken, hcanonical⟩ := h.delivered₁.names name (AList.mem_keys.mpr hmem)
    rw [canonicalHeaderKey_toLower (isToken_all htoken), hcanonical]
  have hpresent : r₁.header.values (toLower name) ≠ [] := by
    rw [Header.values, hkey]
    exact h.delivered₁.present name (AList.mem_keys.mpr hmem)
  have hother := mem_of_values_ne_nil (h.present hname honce hpresent).1
  rw [hkey] at hother
  exact List.any_eq_true.mpr ⟨name, AList.mem_keys.mp hother, hknown⟩

/-- So both requests use them or neither does. -/
theorem SameSigned.usesACL_eq (h : SameSigned r₁ r₂ sh) :
    requestUsesACLHeaders r₁.header = requestUsesACLHeaders r₂.header := by
  have hacl : hasHeader r₁.header (ascii "x-amz-acl") = hasHeader r₂.header (ascii "x-amz-acl") :=
    h.hasHeader_eq ⟨by decide, by decide, by decide, by decide⟩
      (fun headers => List.mem_append_left _ (by decide))
  rw [requestUsesACLHeaders, requestUsesACLHeaders, hacl, Bool.eq_iff_iff, Bool.or_eq_true,
    Bool.or_eq_true]
  exact ⟨Or.imp_right h.grant, Or.imp_right h.symm.grant⟩

end

/-! ## Where the list comes from -/

theorem mem_signedHeaders {header : Bytes} {info : AuthInfo}
    (h : parseAuthorizationHeader header = .ok info) {name : Bytes}
    (hname : name ∈ info.signedHeaders) {b : UInt8} (hb : b ∈ name) : b ∈ header := by
  rw [(parseAuthorizationHeader_ok h).1]
  exact List.mem_append_left _ (List.mem_append_left _
    (List.mem_append_right _ (mem_join hb hname)))

/-- What the verifier checked of a delivered request. -/
theorem signedBy_of_checked {r : Request} {info : AuthInfo} (hd : Delivered r)
    (hauth : readAuthorization r = .ok info) (hcheck : checkSignedRequest r info = .ok ()) :
    SignedBy r info.signedHeaders := by
  obtain ⟨_, hvalid, hcheck⟩ := bind_ok hcheck
  refine ⟨mapError_ok hvalid, ?_, ?_⟩
  · split at hcheck
    · cases hcheck
    · split at hcheck
      · cases hcheck
      · split at hcheck
        · cases hcheck
        · obtain ⟨_, -, hcheck⟩ := bind_ok hcheck
          obtain ⟨_, -, hcheck⟩ := bind_ok hcheck
          split at hcheck
          · cases hcheck
          · split at hcheck
            · cases hcheck
            · exact hcheck
  · intro name hname hline
    rw [readAuthorization] at hauth
    split at hauth
    · cases hauth
    · cases hauth
    · next header _ hvalues =>
        -- a name with a line break would put the break into the header's value
        have hmem := mem_signedHeaders (mapError_ok hauth) hname hline
        refine hd.values (canonicalHeaderKey (ascii "Authorization")) header ?_ hmem
        have hat : r.header.at_ (canonicalHeaderKey (ascii "Authorization")) = [header] := hvalues
        rw [hat]
        exact List.mem_singleton_self header
    · cases hauth

/-! ## The plan -/

/-- The target of a request under a registry of base hosts. -/
def ResolvesTo (registered : Bytes → Bool) (r : Request) (bucket objectKey : Bytes) : Prop :=
  ∃ baseHost, Domain.lookupBaseHost registered (requestHost r) = .ok baseHost ∧
    (requestTarget r baseHost).bucket = bucket ∧ (requestTarget r baseHost).objectKey = objectKey

/-- Two checks of two plans, equal but for the runs of spaces in the copy source key. -/
structure SameCheck (p q : S3OperationPlan) (c d : Iam.Request) : Prop where
  action : c.action = d.action
  context : c.context = d.context
  resource : c.resource = d.resource ∨
    ∃ s t, p.copySource = some s ∧ q.copySource = some t ∧
      squeezeSpaces s.key = squeezeSpaces t.key ∧
      c.resource = s3ObjectARN p.bucket s.key ∧ d.resource = s3ObjectARN q.bucket t.key

theorem SameCheck.refl (p q : S3OperationPlan) (c : Iam.Request) : SameCheck p q c c :=
  ⟨rfl, rfl, Or.inl rfl⟩

/-- What two plans have in common when one signature covers both: operation, bucket
    and key, and the checks up to blanks in a copy source. -/
structure SameOperation (p q : S3OperationPlan) : Prop where
  kind : p.kind = q.kind
  bucket : p.bucket = q.bucket
  objectKey : p.objectKey = q.objectKey
  checks : List.Forall₂ (SameCheck p q) p.iamChecks q.iamChecks

theorem trimPrefix_rootedPath (path : Bytes) :
    trimPrefix (rootedPath path) (ascii "/") = trimPrefix path (ascii "/") := by
  rw [rootedPath]
  split
  · next h => rw [h]; rfl
  · rfl

section
variable {r₁ r₂ : Request} {sh : List Bytes} {bucket objectKey : Bytes}
  {plan₁ plan₂ : S3OperationPlan}

/-- The same host and path give the same target. -/
theorem ResolvesTo.unique {registered : Bytes → Bool} {bucket₁ bucket₂ key₁ key₂ : Bytes}
    (h₁ : ResolvesTo registered r₁ bucket₁ key₁) (h₂ : ResolvesTo registered r₂ bucket₂ key₂)
    (hhost : r₁.host = r₂.host) (hpath : rootedPath r₁.url.path = rootedPath r₂.url.path) :
    bucket₁ = bucket₂ ∧ key₁ = key₂ := by
  obtain ⟨base₁, hbase₁, rfl, rfl⟩ := h₁
  obtain ⟨base₂, hbase₂, rfl, rfl⟩ := h₂
  have hrequest : requestHost r₁ = requestHost r₂ := by rw [requestHost, requestHost, hhost]
  rw [hrequest, hbase₂] at hbase₁
  obtain rfl := Except.ok.inj hbase₁
  have htrim : trimPrefix r₁.url.path (ascii "/") = trimPrefix r₂.url.path (ascii "/") := by
    rw [← trimPrefix_rootedPath, hpath, trimPrefix_rootedPath]
  have htarget : requestTarget r₁ base₂ = requestTarget r₂ base₂ := by
    simp only [requestTarget, hrequest, htrim]
  exact ⟨congrArg Target.bucket htarget, congrArg Target.objectKey htarget⟩

/-- Equal parameters have the same shape, whatever their order in the text. -/
theorem sameShape_of_lookup {q q' : Values} (hq : q.Single) (hq' : q'.Single)
    (h : ∀ key, q'.lookup key = q.lookup key) : SameShape q q' := by
  have hmem : ∀ key, key ∈ q' ↔ key ∈ q := by
    intro key
    rw [← AList.lookup_isSome, ← AList.lookup_isSome, h key]
  exact ⟨hq, hq', fun key _ => h key, fun key _ _ => hmem key, (hmem _).mpr,
    fun key _ => by rw [Values.get, Values.get, h key]⟩

/-- The copy source has to be signed. -/
theorem copySourceHeader_signedName : SignedName copySourceHeader :=
  ⟨by decide, by decide, by decide, by decide⟩

/-- The operation is decided by the method, the parameters and whether there is a copy
    source, which the signature all covers. -/
theorem SameSigned.kind_eq (h : SameSigned r₁ r₂ sh) (hp₁ : Planned r₁ bucket objectKey plan₁)
    (hp₂ : Planned r₂ bucket objectKey plan₂) (hmethod : r₁.method = r₂.method)
    (hquery : ∀ key, plan₁.query.lookup key = plan₂.query.lookup key) :
    plan₁.kind = plan₂.kind := by
  have hcopy : isCopyObjectRequest r₁.header = isCopyObjectRequest r₂.header :=
    h.hasHeader_eq copySourceHeader_signedName (fun headers => List.mem_append_left _ (by decide))
  have hshape := sameShape_of_lookup hp₂.single hp₁.single hquery
  have hkind := hp₁.kind
  rw [hmethod, hcopy, selectKind_congr hshape _ _ _ (Or.inr ?_), hp₂.kind] at hkind
  · exact (Option.some.inj hkind).symm
  · rw [← AList.lookup_isSome, ← AList.lookup_isSome, hquery]

/-- The sources of two copies. -/
theorem SameSigned.copySource (h : SameSigned r₁ r₂ sh)
    (hp₁ : Planned r₁ bucket objectKey plan₁) (hp₂ : Planned r₂ bucket objectKey plan₂)
    {s t : CopySource} (hs : plan₁.copySource = some s) (ht : plan₂.copySource = some t) :
    squeezeSpaces s.key = squeezeSpaces t.key ∧ copySourceAction s = copySourceAction t := by
  obtain ⟨-, hparse₁⟩ := hp₁.copySource_spec hs
  obtain ⟨-, hparse₂⟩ := hp₂.copySource_spec ht
  have honce : ∀ headers, copySourceHeader ∈ singletons headers :=
    fun headers => List.mem_append_left _ (by decide)
  -- the source of a copy is the one value of its header
  have hvalues : ∀ {r : Request} {source : CopySource},
      parseCopySource (singleHeaderValue r.header copySourceHeader) bucket = .ok source →
      r.header.values copySourceHeader ≠ [] := by
    intro r source hparse hnil
    rw [singleHeaderValue, hnil] at hparse
    exact absurd hparse (by simp [parseCopySource, trimSpace, dropSpace])
  obtain ⟨-, v₁, hv₁, hsame₁⟩ := h.present copySourceHeader_signedName (honce _) (hvalues hparse₁)
  obtain ⟨-, v₂, hv₂, -⟩ := h.symm.present copySourceHeader_signedName (honce _) (hvalues hparse₂)
  rw [copySourceHeader_signedName.canonicalValue_eq, hv₂] at hsame₁
  rw [singleHeaderValue, hv₁] at hparse₁
  rw [singleHeaderValue, hv₂] at hparse₂
  exact copySource_of_signed hparse₁ hparse₂ hsame₁

theorem forall₂_sameCheck_refl (p q : S3OperationPlan) (checks : List Iam.Request) :
    List.Forall₂ (SameCheck p q) checks checks :=
  List.forall₂_same.mpr (fun c _ => SameCheck.refl p q c)

/-- The checks of both plans, one by one.  Only the key of a copy source may differ,
    and only in blanks. -/
theorem SameSigned.checks (h : SameSigned r₁ r₂ sh)
    (hp₁ : Planned r₁ bucket objectKey plan₁) (hp₂ : Planned r₂ bucket objectKey plan₂)
    (hkind : plan₁.kind = plan₂.kind) :
    List.Forall₂ (SameCheck plan₁ plan₂) plan₁.iamChecks plan₂.iamChecks := by
  have htagging : hasHeader r₁.header (ascii "x-amz-tagging") =
      hasHeader r₂.header (ascii "x-amz-tagging") :=
    h.hasHeader_eq ⟨by decide, by decide, by decide, by decide⟩
      (fun headers => List.mem_append_left _ (by decide))
  -- the checks for a tagging and an ACL depend on signed headers only
  have hput : ∀ resource, putHeaderChecks r₁.header resource =
      putHeaderChecks r₂.header resource := by
    intro resource
    rw [putHeaderChecks, putHeaderChecks, h.usesACL_eq, htagging]
  have hchecks₁ : plan₁.iamChecks =
      iamChecksFor plan₁.kind r₁.header bucket objectKey plan₁.copySource := by
    rw [hp₁.fields]
    rfl
  have hchecks₂ : plan₂.iamChecks =
      iamChecksFor plan₂.kind r₂.header bucket objectKey plan₂.copySource := by
    rw [hp₂.fields]
    rfl
  rw [hchecks₁, hchecks₂, ← hkind]
  by_cases hcopy : plan₁.kind = .copyObject
  · obtain ⟨s, hs⟩ := hp₁.exists_copySource hcopy
    obtain ⟨t, ht⟩ := hp₂.exists_copySource (hkind.symm.trans hcopy)
    obtain ⟨hkey, haction⟩ := h.copySource hp₁ hp₂ hs ht
    rw [hcopy, hs, ht]
    refine List.Forall₂.cons (SameCheck.refl _ _ _) (List.Forall₂.cons ?_ ?_)
    · refine ⟨haction, rfl, Or.inr ⟨s, t, hs, ht, hkey, ?_, ?_⟩⟩
      · rw [hp₁.bucket_eq]
        rfl
      · rw [hp₂.bucket_eq]
        rfl
    · show List.Forall₂ _ (putHeaderChecks r₁.header _) (putHeaderChecks r₂.header _)
      rw [hput]
      exact forall₂_sameCheck_refl _ _ _
  · have heq : iamChecksFor plan₁.kind r₁.header bucket objectKey plan₁.copySource =
        iamChecksFor plan₁.kind r₂.header bucket objectKey plan₂.copySource := by
      simp only [iamChecksFor]
      congr 1
      split
      · next hk => exact absurd hk hcopy
      · exact hput _
      · exact hput _
      · rfl
    rw [heq]
    exact forall₂_sameCheck_refl _ _ _

/-- **NO TRANSPLANT**: two requests the server delivered and the planner accepted, whose
    signed headers pass the checks and whose canonical requests are equal, agree on their
    signed headers, method, host, path, query and signed values.  Under one registry
    their plans are the same operation on the same bucket and key, with the same checks
    but for the runs of spaces in a copy source key. -/
theorem signature_not_transplanted {sh₁ sh₂ : List Bytes} {bucket₁ bucket₂ key₁ key₂ : Bytes}
    (hd₁ : Delivered r₁) (hd₂ : Delivered r₂)
    (hplan₁ : planS3Operation r₁ bucket₁ key₁ = .ok plan₁)
    (hplan₂ : planS3Operation r₂ bucket₂ key₂ = .ok plan₂)
    (hs₁ : SignedBy r₁ sh₁) (hs₂ : SignedBy r₂ sh₂)
    (h : buildCanonicalRequest r₁ sh₁ = buildCanonicalRequest r₂ sh₂) :
    sh₁ = sh₂ ∧ r₁.method = r₂.method ∧ r₁.host = r₂.host ∧
      rootedPath r₁.url.path = rootedPath r₂.url.path ∧
      (∀ key, (parseQuery r₁.url.rawQuery).1.lookup key =
        (parseQuery r₂.url.rawQuery).1.lookup key) ∧
      (∀ name ∈ sh₁, canonicalValue r₁ name = canonicalValue r₂ name) ∧
      ∀ registered, ResolvesTo registered r₁ bucket₁ key₁ →
        ResolvesTo registered r₂ bucket₂ key₂ → SameOperation plan₁ plan₂ := by
  have hp₁ := plan_spec hplan₁
  have hp₂ := plan_spec hplan₂
  obtain ⟨rfl, hmethod, hpath, hquery, hvalues⟩ :=
    canonicalRequest_inj hd₁ hd₂ hs₁.oneLine hs₂.oneLine h
  have hlookup : ∀ key, (parseQuery r₁.url.rawQuery).1.lookup key =
      (parseQuery r₂.url.rawQuery).1.lookup key := by
    refine canonicalQueryString_inj ?_ ?_ hquery
    · rw [hp₁.query]
      exact hp₁.single
    · rw [hp₂.query]
      exact hp₂.single
  have hhost : r₁.host = r₂.host := by
    -- `host` has to be signed, so the canonical requests agree on it
    have hmem : ascii "host" ∈ sh₁ := by
      have hrefuse := (seq_ok_iff.mp (seq_ok_iff.mp (seq_ok_iff.mp hs₁.valid).2).2).1
      rw [refuseIf_ok_iff, Bool.not_eq_false', List.contains_iff_mem] at hrefuse
      exact hrefuse
    rw [← hd₁.canonicalValue_host, ← hd₂.canonicalValue_host]
    exact hvalues _ hmem
  refine ⟨rfl, hmethod, hhost, hpath, hlookup, hvalues, ?_⟩
  intro registered hr₁ hr₂
  obtain ⟨rfl, rfl⟩ := hr₁.unique hr₂ hhost hpath
  have hsame : SameSigned r₁ r₂ sh₁ :=
    ⟨hd₁, hd₂, hs₁, hs₂, hp₁.operationHeaders, hp₂.operationHeaders, hvalues⟩
  rw [hp₁.query, hp₂.query] at hlookup
  have hkind := hsame.kind_eq hp₁ hp₂ hmethod hlookup
  exact ⟨hkind, hp₁.bucket_eq.trans hp₂.bucket_eq.symm,
    hp₁.objectKey_eq.trans hp₂.objectKey_eq.symm, hsame.checks hp₁ hp₂ hkind⟩

end

/-- A copy from a given source. -/
def copyFrom (source : Bytes) : Request where
  method := methodPut
  host := ascii "h"
  url := { path := ascii "/vbk/k" }
  header := ⟨[⟨ascii "X-Amz-Copy-Source", [source]⟩,
    ⟨ascii "X-Amz-Date", [ascii "20260101T000000Z"]⟩],
    show [ascii "X-Amz-Copy-Source", ascii "X-Amz-Date"].Nodup by decide⟩
  contentLength := 0
  transferEncoding := []
  tls := true
  body := none
  tokens := fun name h => (show ∀ name ∈ [ascii "X-Amz-Copy-Source", ascii "X-Amz-Date"],
    isToken name = true by decide) name h

/-- The sample request is one the server can receive. -/
theorem delivered_copyFrom {source : Bytes} (h : (10 : UInt8) ∉ source) :
    Delivered (copyFrom source) where
  method := show (10 : UInt8) ∉ methodPut by decide
  host := show NoSpace (ascii "h") from NoSpace.of_ascii (by decide +kernel)
  target := fun hnil => absurd hnil (show ¬ ascii "h" = [] by decide)
  names := fun name hname => (show ∀ name ∈ [ascii "X-Amz-Copy-Source", ascii "X-Amz-Date"],
    isToken name = true ∧ canonicalHeaderKey name = name by decide) name hname
  present := by
    intro name hname
    rcases List.mem_cons.mp (show name ∈ [ascii "X-Amz-Copy-Source", ascii "X-Amz-Date"] from hname)
      with rfl | hname
    · exact List.cons_ne_nil source []
    · rw [List.mem_singleton.mp hname]
      exact List.cons_ne_nil (ascii "20260101T000000Z") []
  values := by
    intro name value hvalue
    by_cases hsource : name = ascii "X-Amz-Copy-Source"
    · subst hsource
      rw [List.mem_singleton.mp (show value ∈ [source] from hvalue)]
      exact h
    · by_cases hdate : name = ascii "X-Amz-Date"
      · subst hdate
        rw [List.mem_singleton.mp (show value ∈ [ascii "20260101T000000Z"] from hvalue)]
        decide
      · have hnone : (copyFrom source).header.lookup name = none := by
          refine AList.lookup_eq_none.mpr (fun hmem => ?_)
          rcases List.mem_cons.mp
            (show name ∈ [ascii "X-Amz-Copy-Source", ascii "X-Amz-Date"] from hmem) with h | h
          · exact hsource h
          · exact hdate (List.mem_singleton.mp h)
        rw [Header.at_, hnone] at hvalue
        cases hvalue

/-- The names a copy signs. -/
def signedCopyNames : List Bytes := [ascii "host", copySourceHeader, ascii "x-amz-date"]

theorem signedBy_copyFrom (source : Bytes) : SignedBy (copyFrom source) signedCopyNames :=
  ⟨by decide, rfl, by decide⟩

theorem resolvesTo_copyFrom (source : Bytes) :
    ResolvesTo (fun _ => false) (copyFrom source) (ascii "vbk") (ascii "k") :=
  ⟨none, show Domain.lookupBaseHost (fun _ => false) (ascii "h") = .ok none by decide +kernel,
    rfl, rfl⟩

/-- Blanks in a copy source are the difference that is left: the two sources are read
    as different keys. -/
theorem signature_not_transplanted_to_spaces :
    ∃ plan₁ plan₂,
      planS3Operation (copyFrom (ascii "vbk/a b")) (ascii "vbk") (ascii "k") = .ok plan₁ ∧
      planS3Operation (copyFrom (ascii "vbk/a  b")) (ascii "vbk") (ascii "k") = .ok plan₂ ∧
      plan₁.copySource ≠ plan₂.copySource ∧ SameOperation plan₁ plan₂ := by
  have hchecks : okAnd (planS3Operation (copyFrom (ascii "vbk/a b")) (ascii "vbk") (ascii "k"))
      (fun plan => plan.copySource = some ⟨ascii "vbk", ascii "a b", []⟩) = true ∧
      okAnd (planS3Operation (copyFrom (ascii "vbk/a  b")) (ascii "vbk") (ascii "k"))
        (fun plan => plan.copySource = some ⟨ascii "vbk", ascii "a  b", []⟩) = true := by
    decide +kernel
  obtain ⟨plan₁, hplan₁, hsource₁⟩ := exists_of_okAnd hchecks.1
  obtain ⟨plan₂, hplan₂, hsource₂⟩ := exists_of_okAnd hchecks.2
  have hsame : buildCanonicalRequest (copyFrom (ascii "vbk/a b")) signedCopyNames =
      buildCanonicalRequest (copyFrom (ascii "vbk/a  b")) signedCopyNames := by
    have hlines : signedCopyNames.flatMap (canonicalHeaderLine (copyFrom (ascii "vbk/a b"))) =
        signedCopyNames.flatMap (canonicalHeaderLine (copyFrom (ascii "vbk/a  b"))) := by
      decide +kernel
    rw [buildCanonicalRequest, buildCanonicalRequest, hlines]
    rfl
  obtain ⟨-, -, -, -, -, -, hsafe⟩ := signature_not_transplanted
    (delivered_copyFrom (by decide)) (delivered_copyFrom (by decide)) hplan₁ hplan₂
    (signedBy_copyFrom _) (signedBy_copyFrom _) hsame
  refine ⟨plan₁, plan₂, hplan₁, hplan₂, ?_,
    hsafe _ (resolvesTo_copyFrom _) (resolvesTo_copyFrom _)⟩
  rw [of_decide_eq_true hsource₁, of_decide_eq_true hsource₂]
  decide +kernel

end S3
