import VBuckets.PlanProofs

/-! # The checks cover the request

    Which headers an operation accepts and which checks it lists are decided apart: the
    first by `validateHeadersForOperation`, the second by the branches of
    `planS3Operation`.  They agree: a header that changes what an operation does is only
    accepted where the check of that change is listed. -/

namespace S3

open ByteString Url Http

/-! ## Headers that change an operation -/

/-- Some spelling of a name with a property has a value. -/
def Present (headers : Header) (name : Bytes → Prop) : Prop :=
  ∃ n ∈ headers, name (toLower n) ∧ headers.at_ n ≠ []

/-- The headers that set an ACL. -/
def IsACLHeader (lower : Bytes) : Prop :=
  lower = ascii "x-amz-acl" ∨ hasPrefix lower (ascii "x-amz-grant-") = true

section
variable {headers : Header} {kind : OperationKind}

/-- A token whose lower-case spelling is asked for is found. -/
theorem hasHeader_of_present (htok : ∀ n ∈ headers, isToken n = true) {name : Bytes}
    (hname : name.all isTokenByte = true) (hlow : name.map lowerASCII = name)
    (h : Present headers (· = name)) : hasHeader headers name = true := by
  obtain ⟨n, hn, hlower, hvalues⟩ := h
  have htoken := isToken_all (htok n hn)
  have hfold : equalFold n name = true := by
    rw [equalFold_iff htoken hname, hlow, ← toLower_of_all htoken]
    exact hlower
  have hlook : headers.lookup n = some (headers.at_ n) := by
    obtain ⟨vs, hvs⟩ := Option.isSome_iff_exists.mp (AList.lookup_isSome.mpr hn)
    rw [Header.at_, hvs]
    rfl
  obtain ⟨v, vs, hv⟩ := List.exists_cons_of_ne_nil hvalues
  have hmem : v ∈ allHeaderValues headers name := by
    refine List.mem_flatMap.mpr ⟨⟨n, headers.at_ n⟩, AList.mem_lookup_iff.mp hlook, ?_⟩
    rw [if_pos hfold, hv]
    exact List.mem_cons_self
  simp only [hasHeader, decide_eq_true_eq]
  exact List.ne_nil_of_mem hmem

/-- A header with the prefix of the grants is one of them, or no operation accepts it. -/
theorem grant_of_allowed {lower : Bytes} (hg : hasPrefix lower (ascii "x-amz-grant-") = true)
    (h : amzHeaderAllowed kind lower = true) :
    knownGrantHeader lower = true ∧ allowACL kind = true := by
  -- two prefixes of one text extend one another
  have hother : ∀ p, ¬ p <+: ascii "x-amz-grant-" → ¬ ascii "x-amz-grant-" <+: p →
      hasPrefix lower p = false := by
    intro p h1 h2
    rw [Bool.eq_false_iff]
    intro hp
    rcases List.prefix_or_prefix_of_prefix (hasPrefix_iff.mp hp) (hasPrefix_iff.mp hg) with h | h
    · exact h1 h
    · exact h2 h
  have hne : ∀ name, hasPrefix name (ascii "x-amz-grant-") = false → ¬ lower = name := by
    rintro name hn rfl
    rw [hg] at hn
    exact nomatch hn
  have hlisted : ∀ names : List Bytes,
      (∀ name ∈ names, hasPrefix name (ascii "x-amz-grant-") = false) → lower ∉ names :=
    fun names hn hm => hne lower (hn lower hm) rfl
  simp only [amzHeaderAllowed, knownSSEHeader, Bool.or_eq_true, Bool.and_eq_true, beq_iff_eq,
    List.contains_iff_mem] at h
  rcases h with ((((((h | h) | h) | h) | h) | h) | h) | h
  · exact absurd h (hne _ (by decide))
  · exact absurd h (hne _ (by decide))
  · exact absurd h.1 (hne _ (by decide))
  · rcases h.1 with hacl | hgrant
    · exact absurd hacl (hne _ (by decide))
    · exact ⟨hgrant, h.2⟩
  · exact absurd h.1 (hne _ (by decide))
  · rcases h.1 with hd | hd
    · exact absurd hd (hne _ (by decide))
    · exact absurd hd (hne _ (by decide))
  · rcases h.1 with (hmeta | hclass) | hsse | hsse
    · rw [hother _ (by decide) (by decide)] at hmeta
      exact nomatch hmeta
    · exact absurd hclass (hne _ (by decide))
    · exact absurd hsse (hne _ (by decide))
    · exact absurd hsse (hlisted _ (by decide))
  · simp only [knownChecksumHeader, knownChecksumValueHeader, Bool.or_eq_true, beq_iff_eq,
      List.any_eq_true] at h
    rcases h.1 with ((⟨e, he, hvalue⟩ | hc) | hc) | hc
    · exact absurd (List.mem_map.mpr ⟨e, he, hvalue⟩)
        (hlisted (checksumValueAlgorithms.map Prod.fst) (by decide))
    · exact absurd hc (hne _ (by decide))
    · exact absurd hc (hne _ (by decide))
    · exact absurd hc (hne _ (by decide))

theorem acl_of_allowed (h : amzHeaderAllowed kind (ascii "x-amz-acl") = true) :
    allowACL kind = true := by
  simp only [amzHeaderAllowed, copySourceHeader, knownSSEHeader, sseHeader, sseCustomerHeaders,
    knownChecksumHeader, knownChecksumValueHeader, checksumValueAlgorithms, Bool.or_eq_true,
    Bool.and_eq_true] at h
  repeat rw [ascii_ofList] at h
  rcases h with ((((((h | h) | h) | h) | h) | h) | h) | h
  · exact nomatch h
  · exact nomatch h
  · exact nomatch h.1
  · exact h.2
  · exact nomatch h.1
  · exact absurd h.1 (by decide)
  · exact absurd h.1 (by decide)
  · exact absurd h.1 (by decide)

theorem tagging_of_allowed (h : amzHeaderAllowed kind (ascii "x-amz-tagging") = true) :
    allowPutHeaders kind = true := by
  simp only [amzHeaderAllowed, copySourceHeader, knownGrantHeader, knownChecksumHeader,
    knownChecksumValueHeader, checksumValueAlgorithms, Bool.or_eq_true, Bool.and_eq_true] at h
  repeat rw [ascii_ofList] at h
  rcases h with ((((((h | h) | h) | h) | h) | h) | h) | h
  · exact nomatch h
  · exact nomatch h
  · exact nomatch h.1
  · exact absurd h.1 (by decide)
  · exact h.2
  · exact absurd h.1 (by decide)
  · exact h.2
  · exact absurd h.1 (by decide)

/-- A header that sets an ACL is accepted where an ACL is allowed, and seen. -/
theorem acl_of_present (htok : ∀ n ∈ headers, isToken n = true)
    (hvalid : validateHeadersForOperation headers kind = .ok ())
    (h : Present headers IsACLHeader) :
    allowACL kind = true ∧ requestUsesACLHeaders headers = true := by
  obtain ⟨n, hn, hname, hvalues⟩ := h
  have hamz : hasPrefix (toLower n) (ascii "x-amz-") = true := by
    rcases hname with hacl | hgrant
    · rw [hacl]
      decide
    · have hp : ascii "x-amz-" <+: ascii "x-amz-grant-" := by decide
      exact hasPrefix_iff.mpr (hp.trans (hasPrefix_iff.mp hgrant))
  have hallowed := amzHeaderAllowed_of_valid hvalid hn hamz
  rw [requestUsesACLHeaders, Bool.or_eq_true]
  rcases hname with hacl | hgrant
  · rw [hacl] at hallowed
    exact ⟨acl_of_allowed hallowed,
      Or.inl (hasHeader_of_present htok (by decide) (by decide) ⟨n, hn, hacl, hvalues⟩)⟩
  · obtain ⟨hknown, hacl⟩ := grant_of_allowed hgrant hallowed
    exact ⟨hacl, Or.inr (List.any_eq_true.mpr ⟨n, AList.mem_keys.mp hn, hknown⟩)⟩

/-- Tags are accepted where an object is created, and seen. -/
theorem tagging_of_present (htok : ∀ n ∈ headers, isToken n = true)
    (hvalid : validateHeadersForOperation headers kind = .ok ())
    (h : Present headers (· = ascii "x-amz-tagging")) :
    allowPutHeaders kind = true ∧ hasHeader headers (ascii "x-amz-tagging") = true := by
  obtain ⟨n, hn, hname, hvalues⟩ := h
  have hallowed := amzHeaderAllowed_of_valid hvalid hn (by rw [hname]; decide)
  rw [hname] at hallowed
  exact ⟨tagging_of_allowed hallowed,
    hasHeader_of_present htok (by decide) (by decide) ⟨n, hn, hname, hvalues⟩⟩

end

/-! ## The checks of a plan -/

section
variable {r : Request} {bucket objectKey : Bytes} {plan : S3OperationPlan}

/-- The checks that headers add, where they are added. -/
theorem putHeaderChecks_subset {kind : OperationKind} (hkind : allowPutHeaders kind = true)
    (headers : Header) (bucket objectKey : Bytes) (source : Option CopySource) :
    putHeaderChecks headers (s3ObjectARN bucket objectKey) ⊆
      iamChecksFor kind headers bucket objectKey source := by
  intro check hcheck
  cases kind with
  | putObject | createMultipartUpload => exact List.mem_cons_of_mem _ hcheck
  | copyObject => exact List.mem_cons_of_mem _ (List.mem_append_right _ hcheck)
  | _ => exact absurd hkind (by decide)

theorem mem_putHeaderChecks {headers : Header} {resource : Bytes} {check : Iam.Request}
    (h : check ∈ putHeaderChecks headers resource) : check.resource = resource := by
  rcases List.mem_append.mp h with h | h
  · split at h
    · rw [List.mem_singleton.mp h]
      rfl
    · exact nomatch h
  · split at h
    · rw [List.mem_singleton.mp h]
      rfl
    · exact nomatch h

/-- What each check is about. -/
theorem mem_iamChecksFor {kind : OperationKind} (hkind : kind ≠ .listBuckets)
    {headers : Header} {bucket objectKey : Bytes} {source : Option CopySource}
    {check : Iam.Request} (h : check ∈ iamChecksFor kind headers bucket objectKey source) :
    check.resource = s3BucketARN bucket ∨ check.resource = s3ObjectARN bucket objectKey ∨
      ∃ s, source = some s ∧
        check = newIAMRequest (copySourceAction s) (s3ObjectARN bucket s.key) := by
  -- the operation's own resource; the checks of upload headers have the same one
  have hown : kind.resource bucket objectKey = s3BucketARN bucket ∨
      kind.resource bucket objectKey = s3ObjectARN bucket objectKey := by
    cases kind with
    | listBuckets => exact absurd rfl hkind
    | createBucket | headBucket | listObjects | listObjectsV2 | listMultipartUploads =>
        exact Or.inl rfl
    | _ => exact Or.inr rfl
  have hput : check ∈ putHeaderChecks headers (kind.resource bucket objectKey) →
      check.resource = s3BucketARN bucket ∨ check.resource = s3ObjectARN bucket objectKey ∨
      ∃ s, source = some s ∧
        check = newIAMRequest (copySourceAction s) (s3ObjectARN bucket s.key) := by
    intro hc
    rw [mem_putHeaderChecks hc]
    exact hown.imp_right Or.inl
  rcases List.mem_cons.mp h with rfl | h
  · exact hown.imp_right Or.inl
  · cases kind with
    | putObject | createMultipartUpload => exact hput h
    | copyObject =>
        rcases List.mem_append.mp h with h | h
        · cases source with
          | none => exact nomatch h
          | some s => exact Or.inr (Or.inr ⟨s, rfl, List.mem_singleton.mp h⟩)
        · exact hput h
    | _ => exact nomatch h

/-- A copy source has a version exactly when it carries a query. -/
theorem copySource_version_iff {raw expected : Bytes} {source : CopySource}
    (h : parseCopySource raw expected = .ok source) :
    source.versionID = [] ↔ copySourceQuery raw = [] := by
  have hversion := (parseCopySource_ok h).version
  rw [copySourceVersion] at hversion
  split at hversion
  · next hempty => exact ⟨fun _ => hempty, fun _ => (Except.ok.inj hversion).symm⟩
  · next hne =>
      refine ⟨fun hnil => ?_, fun he => absurd he hne⟩
      -- an accepted version is not empty
      exfalso
      split at hversion
      · exact nomatch hversion
      · split at hversion
        · exact nomatch hversion
        · split at hversion
          · split at hversion
            · exact nomatch hversion
            · next hv => exact hv ((Except.ok.inj hversion).trans hnil)
          · exact nomatch hversion

/-- **COVERAGE**: every accepted request is checked.  The checks are about the plan's own
    bucket, its own key and the key of its copy source; a header that sets an ACL or tags,
    or names a copy source, brings the check of that; and the policy must allow every
    check in the context of the same request. -/
theorem checks_cover_request (hplan : planS3Operation r bucket objectKey = .ok plan) :
    plan.iamChecks ≠ [] ∧
    (plan.kind ≠ .listBuckets → ∀ check ∈ plan.iamChecks,
      check.resource = s3BucketARN plan.bucket ∨
      check.resource = s3ObjectARN plan.bucket plan.objectKey ∨
      ∃ source, plan.copySource = some source ∧
        check = newIAMRequest (copySourceAction source) (s3ObjectARN plan.bucket source.key)) ∧
    (Present r.header IsACLHeader →
      newIAMRequest (ascii "s3:PutObjectAcl") (s3ObjectARN plan.bucket plan.objectKey) ∈
        plan.iamChecks) ∧
    (Present r.header (· = ascii "x-amz-tagging") →
      newIAMRequest (ascii "s3:PutObjectTagging") (s3ObjectARN plan.bucket plan.objectKey) ∈
        plan.iamChecks) ∧
    (Present r.header (· = copySourceHeader) → plan.kind = .copyObject ∧
      ∃ source, plan.copySource = some source ∧
        parseCopySource (singleHeaderValue r.header copySourceHeader) plan.bucket = .ok source ∧
        newIAMRequest
          (if copySourceQuery (singleHeaderValue r.header copySourceHeader) = [] then
            ascii "s3:GetObject" else ascii "s3:GetObjectVersion")
          (s3ObjectARN plan.bucket source.key) ∈ plan.iamChecks) ∧
    plan.iamContext = buildS3IAMWireContext plan.kind r.tls (parseQuery r.url.rawQuery).1
      (canonicalHeaderClone r.header) ∧
    ∀ (m : Iam.Matchers) (policy : Option Iam.Policy),
      authorizeS3Plan m policy plan ≠ .ok () ∧
      ∀ (locationConstraint : Bytes) (now : Time.Instant),
        authorizeS3Plan m policy (plan.withAuthorizationContext locationConstraint now) =
          .ok () →
        ∀ check ∈ plan.iamChecks, Iam.authorize m policy
          { check with context := plan.authorizationContext locationConstraint now } = .ok () := by
  have h := plan_spec hplan
  rw [h.iamChecks_eq]
  refine ⟨List.cons_ne_nil _ _, fun hkind check hcheck => mem_iamChecksFor hkind hcheck,
    ?_, ?_, ?_, ?_, ?_⟩
  · intro hacl
    -- a header the operation does not take would have been refused
    obtain ⟨hallow, hused⟩ := acl_of_present r.tokens h.headers hacl
    have hadded : newIAMRequest (ascii "s3:PutObjectAcl")
        (s3ObjectARN plan.bucket plan.objectKey) ∈
        putHeaderChecks r.header (s3ObjectARN plan.bucket plan.objectKey) := by
      rw [putHeaderChecks, if_pos hused]
      exact List.mem_append_left _ List.mem_cons_self
    rw [allowACL, Bool.or_eq_true, decide_eq_true_eq] at hallow
    rcases hallow with hput | hkind
    · exact putHeaderChecks_subset hput _ _ _ _ hadded
    · -- the operation itself is the check
      rw [hkind]
      exact List.mem_cons_self
  · intro htagging
    obtain ⟨hallow, hused⟩ := tagging_of_present r.tokens h.headers htagging
    refine putHeaderChecks_subset hallow _ _ _ _ ?_
    rw [putHeaderChecks, if_pos hused]
    exact List.mem_append_right _ List.mem_cons_self
  · rintro ⟨n, hn, hname, -⟩
    have hkind := copyObject_of_copySource h.headers hn hname
    obtain ⟨source, hsource⟩ := h.exists_copySource hkind
    have hparse := (h.copySource_spec hsource).2
    refine ⟨hkind, source, hsource, h.bucket_eq ▸ hparse, ?_⟩
    -- the source has a version exactly if its text has a query
    have haction : copySourceAction source =
        if copySourceQuery (singleHeaderValue r.header copySourceHeader) = [] then
          ascii "s3:GetObject" else ascii "s3:GetObjectVersion" := by
      rw [copySourceAction]
      by_cases hv : source.versionID = []
      · rw [if_neg (fun hne => hne hv), if_pos ((copySource_version_iff hparse).mp hv)]
      · rw [if_pos hv, if_neg (fun he => hv ((copySource_version_iff hparse).mpr he))]
    rw [← haction, hkind, hsource]
    exact List.mem_cons_of_mem _ List.mem_cons_self
  · rw [h.iamContext_eq, h.query]
  · intro m policy
    refine ⟨?_, ?_⟩
    -- the planner leaves a plan unsealed
    · have hready : plan.authorizationReady = false := by
        rw [h.fields]
        rfl
      rw [authorizeS3Plan, hready]
      exact fun hc => nomatch hc
    · intro locationConstraint now hok check hcheck
      refine authorizeAll_ok_iff.mp hok _ ?_
      rw [← h.iamChecks_eq] at hcheck
      exact List.mem_map_of_mem hcheck

end

/-- A copy of one version with an ACL and tags. -/
def sampleCopy : Request where
  method := methodPut
  host := ascii "h"
  url := { path := ascii "/vbk/k" }
  header := ⟨[⟨ascii "X-Amz-Copy-Source", [ascii "vbk/s?versionId=v"]⟩,
    ⟨ascii "X-Amz-Acl", [ascii "private"]⟩, ⟨ascii "X-Amz-Tagging", [ascii "a=b"]⟩],
    show (List.keys _).Nodup by decide⟩
  contentLength := 0
  transferEncoding := []
  tls := true
  body := none
  tokens := fun name h => (show ∀ name ∈ List.keys _, isToken name = true by decide) name h

theorem checks_cover_request_of_copy :
    ∃ plan, planS3Operation sampleCopy (ascii "vbk") (ascii "k") = .ok plan ∧
      newIAMRequest (ascii "s3:PutObjectAcl") (ascii "arn:aws:s3:::vbk/k") ∈ plan.iamChecks ∧
      newIAMRequest (ascii "s3:PutObjectTagging") (ascii "arn:aws:s3:::vbk/k") ∈
        plan.iamChecks ∧
      newIAMRequest (ascii "s3:GetObjectVersion") (ascii "arn:aws:s3:::vbk/s") ∈
        plan.iamChecks := by
  have hcheck : okAnd (planS3Operation sampleCopy (ascii "vbk") (ascii "k")) (fun plan =>
      plan.copySource = some ⟨ascii "vbk", ascii "s", ascii "v"⟩) = true := by
    decide +kernel
  obtain ⟨plan, hplan, hsource⟩ := exists_of_okAnd hcheck
  have h := plan_spec hplan
  obtain ⟨-, -, hacl, htagging, hcopy, -⟩ := checks_cover_request hplan
  have hobject : s3ObjectARN (ascii "vbk") (ascii "k") = ascii "arn:aws:s3:::vbk/k" := by decide +kernel
  have hfrom : s3ObjectARN (ascii "vbk") (ascii "s") = ascii "arn:aws:s3:::vbk/s" := by decide +kernel
  have hversion : ¬ copySourceQuery (singleHeaderValue sampleCopy.header copySourceHeader) =
      [] := by
    decide +kernel
  have haclPresent : Present sampleCopy.header IsACLHeader :=
    ⟨ascii "X-Amz-Acl", by decide +kernel, Or.inl (by decide +kernel), by decide +kernel⟩
  have htaggingPresent : Present sampleCopy.header (· = ascii "x-amz-tagging") :=
    ⟨ascii "X-Amz-Tagging", by decide +kernel, by decide +kernel, by decide +kernel⟩
  have hcopyPresent : Present sampleCopy.header (· = copySourceHeader) :=
    ⟨ascii "X-Amz-Copy-Source", by decide +kernel, by decide +kernel, by decide +kernel⟩
  have hput := hacl haclPresent
  have htag := htagging htaggingPresent
  obtain ⟨-, source, hs, -, hget⟩ := hcopy hcopyPresent
  cases hs.symm.trans (of_decide_eq_true hsource)
  rw [h.bucket_eq, h.objectKey_eq, hobject] at hput htag
  rw [if_neg hversion, h.bucket_eq, hfrom] at hget
  exact ⟨plan, hplan, hput, htag, hget⟩

end S3
