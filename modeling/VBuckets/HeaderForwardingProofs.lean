import VBuckets.OutboundProofs

/-! # Approved headers are the forwarded headers

    The policy is asked about a copy of the request's headers; what reaches the origin
    are those left by `copyOutboundRequestHeaders`, which drops whatever the client's
    `Connection` headers nominate.  An accepted request nominates nothing that is
    forwarded, so the two agree on every header that is safe to forward, and each
    condition key holds exactly the values sent. -/

namespace S3

open ByteString Url Http

/-! ## Conditions of headers -/

/-- What a header with these values leaves in the context. -/
def conditionValues (values : List Bytes) : Option (List Bytes) :=
  if values = [] then none else some values

theorem lookup_addHeaderCondition (headers : Header) (ctx : Iam.Context) (hk : Bytes × Bytes)
    (k : Bytes) :
    (addHeaderCondition headers ctx hk).lookup k =
      if k = hk.2 then (conditionValues (allHeaderValues headers hk.1)).or (ctx.lookup k)
      else ctx.lookup k := by
  rw [addHeaderCondition, conditionValues]
  by_cases hempty : allHeaderValues headers hk.1 = []
  · rw [if_pos hempty, if_pos hempty, Option.none_or, ite_self]
  · rw [if_neg hempty, if_neg hempty, Option.some_or]
    by_cases hkey : k = hk.2
    · rw [if_pos hkey, hkey, AList.lookup_insert]
    · rw [if_neg hkey, AList.lookup_insert_ne hkey]

theorem lookup_foldl_other (headers : Header) {k : Bytes} {keys : List (Bytes × Bytes)}
    (hk : k ∉ keys.map Prod.snd) (ctx : Iam.Context) :
    (keys.foldl (addHeaderCondition headers) ctx).lookup k = ctx.lookup k := by
  induction keys generalizing ctx with
  | nil => rfl
  | cons hk' keys ih =>
      rw [List.map_cons, List.mem_cons, not_or] at hk
      rw [List.foldl_cons, ih hk.2, lookup_addHeaderCondition, if_neg hk.1]

/-- With distinct condition keys, each holds the values of its own header. -/
theorem lookup_foldl_condition (headers : Header) {keys : List (Bytes × Bytes)}
    (hnodup : (keys.map Prod.snd).Nodup) {hk : Bytes × Bytes} (hmem : hk ∈ keys)
    {ctx : Iam.Context} (hctx : ctx.lookup hk.2 = none) :
    (keys.foldl (addHeaderCondition headers) ctx).lookup hk.2 =
      conditionValues (allHeaderValues headers hk.1) := by
  induction keys generalizing ctx with
  | nil => exact nomatch hmem
  | cons hk' keys ih =>
      rw [List.map_cons, List.nodup_cons] at hnodup
      rw [List.foldl_cons]
      rcases List.mem_cons.mp hmem with rfl | htail
      · rw [lookup_foldl_other headers hnodup.1, lookup_addHeaderCondition, if_pos rfl, hctx,
          Option.or_none]
      · -- the key of another header is another key
        have hne : hk.2 ≠ hk'.2 := fun he =>
          hnodup.1 (he ▸ List.mem_map_of_mem htail)
        refine ih hnodup.2 htail ?_
        rw [lookup_addHeaderCondition, if_neg hne, hctx]

/-- The conditions of a listing are its three keys. -/
theorem lookup_addListConditions (kind : OperationKind) (query : Values) (ctx : Iam.Context)
    {k : Bytes} (hk : k ∉ [ascii "s3:prefix", ascii "s3:delimiter", ascii "s3:max-keys"]) :
    (addListConditions kind query ctx).lookup k = ctx.lookup k := by
  simp only [List.mem_cons, List.not_mem_nil, or_false, not_or] at hk
  obtain ⟨hstart, hdelimiter, hmax⟩ := hk
  rw [addListConditions]
  split
  · cases query.lookup (ascii "delimiter") <;> cases query.lookup (ascii "max-keys") <;>
      simp only [AList.lookup_insert_ne hmax, AList.lookup_insert_ne hdelimiter,
        AList.lookup_insert_ne hstart]
  · rfl

theorem conditionKeys_nodup : (s3HeaderConditionKeys.map Prod.snd).Nodup := by
  decide +kernel

/-- The wire context holds, under the key of each header, that header's values. -/
theorem lookup_wireContext (kind : OperationKind) (tls : Bool) (query : Values)
    (headers : Header) {hk : Bytes × Bytes} (hmem : hk ∈ s3HeaderConditionKeys) :
    (buildS3IAMWireContext kind tls query headers).lookup hk.2 =
      conditionValues (allHeaderValues headers hk.1) := by
  have hkeys : ∀ hk ∈ s3HeaderConditionKeys,
      hk.2 ∉ [ascii "s3:prefix", ascii "s3:delimiter", ascii "s3:max-keys"] ∧
      hk.2 ≠ ascii "aws:securetransport" ∧ hk.2 ≠ ascii "s3:signatureversion" ∧
      hk.2 ≠ ascii "s3:authtype" := by
    decide +kernel
  obtain ⟨hlist, htransport, hversion, htype⟩ := hkeys hk hmem
  rw [buildS3IAMWireContext]
  refine lookup_foldl_condition headers conditionKeys_nodup hmem ?_
  rw [lookup_addListConditions kind query _ hlist, AList.lookup_insert_ne htransport,
    AList.lookup_insert_ne hversion, AList.lookup_insert_ne htype, AList.lookup_empty]

/-- What sealing adds beside the time. -/
theorem lookup_sealed (plan : S3OperationPlan) (locationConstraint : Bytes) (now : Time.Instant)
    {k : Bytes} (hage : k ≠ ascii "s3:signatureage") (hlocation : k ≠ ascii "s3:locationconstraint") :
    (plan.authorizationContext locationConstraint now).lookup k =
      ((plan.iamContext.insert (ascii "aws:currenttime") [Time.formatRFC3339 now]).insert
        (ascii "aws:epochtime") [Time.formatInt (Time.unix now)]).lookup k := by
  have hbase : ∀ ctx : Iam.Context,
      (if locationConstraint ≠ [] then
        ctx.insert (ascii "s3:locationconstraint") [locationConstraint] else ctx).lookup k =
        ctx.lookup k := by
    intro ctx
    split
    · exact AList.lookup_insert_ne hlocation
    · rfl
  rw [S3OperationPlan.authorizationContext]
  split
  · rw [AList.lookup_insert_ne hage, hbase]
  · rw [hbase]

/-- Sealing adds the time and the location. -/
theorem lookup_authorizationContext (plan : S3OperationPlan) (locationConstraint : Bytes)
    (now : Time.Instant) {k : Bytes}
    (hk : k ∉ [ascii "aws:currenttime", ascii "aws:epochtime", ascii "s3:locationconstraint",
      ascii "s3:signatureage"]) :
    (plan.authorizationContext locationConstraint now).lookup k = plan.iamContext.lookup k := by
  simp only [List.mem_cons, List.not_mem_nil, or_false, not_or] at hk
  obtain ⟨hcurrent, hepoch, hlocation, hage⟩ := hk
  rw [lookup_sealed _ _ _ hage hlocation, AList.lookup_insert_ne hepoch,
    AList.lookup_insert_ne hcurrent]

/-! ## Forwarding -/

section
variable {r : Request} {bucket objectKey : Bytes} {plan : S3OperationPlan}

/-- The copy of the headers nominates what the request does. -/
theorem nominations_clone {headers : Header} (hc : headers.Canonical) :
    nominations (canonicalHeaderClone headers) = nominations headers := by
  have hvalues : (canonicalHeaderClone headers).values (ascii "Connection") =
      headers.values (ascii "Connection") :=
    canonicalHeaderClone_at hc _
  rw [nominations, nominations, hvalues]

/-- No header that is safe to forward is dropped. -/
theorem forwarded_at (hc : r.header.Canonical) (h : Planned r bucket objectKey plan)
    {name : Bytes} (hsafe : safeOutboundRequestHeader name plan.kind = true) :
    (copyOutboundRequestHeaders plan.forwardHeaders ∅ plan.kind).at_ name =
      plan.forwardHeaders.at_ name := by
  rw [h.forwardHeaders_eq]
  have hkept : name ∉ hopByHopHeaderSet (canonicalHeaderClone r.header) := by
    rw [hopByHopHeaderSet, nominations_clone hc]
    intro hname
    rw [nominated_not_safe h.headers hname] at hsafe
    exact nomatch hsafe
  rw [copyOutboundRequestHeaders_at (canonicalHeaderClone_canonical hc), hsafe, Bool.and_true,
    if_pos (by simpa using hkept)]
  rfl

/-- A header with a condition key is a token that is safe to forward, and no header of a
    signature. -/
theorem conditionHeader_spec {hk : Bytes × Bytes} (hmem : hk ∈ s3HeaderConditionKeys)
    (kind : OperationKind) :
    isToken hk.1 = true ∧ safeOutboundRequestHeader (canonicalHeaderKey hk.1) kind = true ∧
      canonicalHeaderKey hk.1 ∉
        [ascii "Authorization", ascii "X-Amz-Date", ascii "X-Amz-Content-Sha256"] ∧
      (hk.1 ≠ copySourceHeader →
        canonicalHeaderKey hk.1 ≠ canonicalHeaderKey copySourceHeader) := by
  have htable : ∀ hk ∈ s3HeaderConditionKeys, isToken hk.1 = true ∧
      hasPrefix (toLower (canonicalHeaderKey hk.1)) (ascii "x-amz-") = true ∧
      canonicalHeaderKey hk.1 ∉
        [ascii "Authorization", ascii "X-Amz-Date", ascii "X-Amz-Content-Sha256"] ∧
      (hk.1 ≠ copySourceHeader →
        canonicalHeaderKey hk.1 ≠ canonicalHeaderKey copySourceHeader) := by
    decide +kernel
  obtain ⟨htoken, hamz, hother⟩ := htable hk hmem
  exact ⟨htoken, by rw [safeOutboundRequestHeader, if_pos hamz], hother⟩

/-- **FORWARDED AS APPROVED**: for a request with canonical header names, every header of
    the plan that is safe to forward is forwarded with its values in their order; and each
    condition key except the copy source's, in the wire context and in the sealed one,
    holds the values the outbound request has, or is absent when it has none. -/
theorem approved_headers_forwarded (hc : r.header.Canonical)
    (hplan : planS3Operation r bucket objectKey = .ok plan) :
    (∀ name, plan.forwardHeaders.at_ name = r.header.at_ name) ∧
    (∀ name, safeOutboundRequestHeader name plan.kind = true →
      (copyOutboundRequestHeaders plan.forwardHeaders ∅ plan.kind).at_ name =
        plan.forwardHeaders.at_ name) ∧
    ∀ hk ∈ s3HeaderConditionKeys, hk.1 ≠ copySourceHeader →
      plan.iamContext.lookup hk.2 = conditionValues
        ((copyOutboundRequestHeaders plan.forwardHeaders ∅ plan.kind).values hk.1) ∧
      (∀ (cr : Mapping.Crypto) (cfg : Mapping.VBucketConfig) (header : Header),
        outboundHeaders cr cfg plan = .ok header →
        plan.iamContext.lookup hk.2 = conditionValues (header.values hk.1)) ∧
      ∀ (locationConstraint : Bytes) (now : Time.Instant),
        (plan.withAuthorizationContext locationConstraint now).iamContext.lookup hk.2 =
          plan.iamContext.lookup hk.2 := by
  have h := plan_spec hplan
  refine ⟨?_, fun name hsafe => forwarded_at hc h hsafe, ?_⟩
  · intro name
    rw [h.forwardHeaders_eq]
    exact canonicalHeaderClone_at hc name
  · intro hk hmem hne
    obtain ⟨htoken, hsafe, hsig, hother⟩ := conditionHeader_spec hmem plan.kind
    -- the policy saw the canonical clone, and that is what is copied
    have hcontext : plan.iamContext.lookup hk.2 = conditionValues
        ((copyOutboundRequestHeaders plan.forwardHeaders ∅ plan.kind).values hk.1) := by
      have hsame : (copyOutboundRequestHeaders plan.forwardHeaders ∅ plan.kind).values hk.1 =
          (canonicalHeaderClone r.header).values hk.1 :=
        (forwarded_at hc h hsafe).trans (by rw [h.forwardHeaders_eq]; rfl)
      rw [h.iamContext_eq, lookup_wireContext _ _ _ _ hmem, hsame,
        allHeaderValues_canonical (canonicalHeaderClone_canonical hc) htoken]
    refine ⟨hcontext, ?_, ?_⟩
    · intro cr cfg header hheader
      rcases outboundHeaders_at hheader hsig with ⟨-, hcopy, -⟩ | ⟨-, hkept⟩
      · exact absurd hcopy (hother hne)
      · rw [hcontext]
        exact congrArg conditionValues hkept.symm
    · intro locationConstraint now
      -- sealing writes keys of its own only
      have hkeys : ∀ hk ∈ s3HeaderConditionKeys, hk.2 ∉ [ascii "aws:currenttime",
          ascii "aws:epochtime", ascii "s3:locationconstraint", ascii "s3:signatureage"] := by
        decide +kernel
      exact lookup_authorizationContext plan locationConstraint now (hkeys hk hmem)

end

/-- A private object whose connection nominates two names of its own. -/
def samplePut : Request where
  method := methodPut
  host := ascii "h"
  url := { path := ascii "/vbk/k" }
  header := ⟨[⟨ascii "Connection", [ascii "close, x-trace", ascii "Te"]⟩,
    ⟨ascii "X-Amz-Acl", [ascii "private"]⟩],
    show (List.keys _).Nodup by decide⟩
  contentLength := 0
  transferEncoding := []
  tls := true
  body := none
  tokens := fun name h => (show ∀ name ∈ List.keys _, isToken name = true by decide) name h

theorem approved_headers_forwarded_of_put :
    ∃ plan, planS3Operation samplePut (ascii "vbk") (ascii "k") = .ok plan ∧
      (copyOutboundRequestHeaders plan.forwardHeaders ∅ plan.kind).at_ (ascii "X-Amz-Acl") =
        [ascii "private"] ∧
      plan.iamContext.lookup (ascii "s3:x-amz-acl") = conditionValues
        ((copyOutboundRequestHeaders plan.forwardHeaders ∅ plan.kind).values
          (ascii "x-amz-acl")) := by
  have hcheck : okAnd (planS3Operation samplePut (ascii "vbk") (ascii "k")) (fun plan =>
      plan.kind = .putObject) = true := by
    decide +kernel
  obtain ⟨plan, hplan, hkind⟩ := exists_of_okAnd hcheck
  have hnames : ∀ name ∈ samplePut.header.keys,
      isToken name = true ∧ canonicalHeaderKey name = name := by
    decide +kernel
  obtain ⟨hclone, hforward, hcontext⟩ := approved_headers_forwarded
    (fun name hname => hnames name (AList.mem_keys.mp hname)) hplan
  have hsafe : safeOutboundRequestHeader (ascii "X-Amz-Acl") .putObject = true := by
    decide +kernel
  have hvalues : samplePut.header.at_ (ascii "X-Amz-Acl") = [ascii "private"] := by
    decide +kernel
  have hkey : (ascii "x-amz-acl", ascii "s3:x-amz-acl") ∈ s3HeaderConditionKeys := by
    decide +kernel
  have hne : ascii "x-amz-acl" ≠ copySourceHeader := by
    decide +kernel
  refine ⟨plan, hplan, ?_, (hcontext _ hkey hne).1⟩
  rw [hforward _ (by rw [of_decide_eq_true hkind]; exact hsafe), hclone, hvalues]

end S3
