import VBuckets.CoverageProofs
import VBuckets.SigningProofs
import VBuckets.TenancyProofs

/-! # Copy sources

    A copy names its source in a header the client spells freely: an optional slash, any
    mixture of escapes, a `?` or a `%` inside the key.  The proxy decodes it once, asks
    for the permission to read it, and writes a header of its own for the origin.

    The origin's reader (`readOriginSource`) is written apart from the proxy's.  What it
    reads is the bucket and the prefix of the mapping and the key that was authorized:
    `escape` leaves the slash after the bucket as the first one and no question mark
    before the version. -/

namespace S3

open ByteString Url Http Mapping Path

/-! ## The origin's reader -/

/-- A copy source as the origin reads it. -/
structure OriginSource where
  bucket : Bytes
  key : Bytes
  query : Values

/-- Cut at the first `?`, split at the first `/`, decode both parts, parse the query. -/
def readOriginSource (text : Bytes) : Option OriginSource :=
  let (pathPart, rawQuery, _) := cut 63 text
  let (bucketPart, keyPart, found) := cut 47 pathPart
  if !found then none
  else
    match pathUnescape bucketPart, pathUnescape keyPart, parseQuery rawQuery with
    | some bucket, some key, (query, true) => some { bucket := bucket, key := key, query := query }
    | _, _, _ => none

/-- The query that names a version.  An empty version is no version: a token of the empty
    identifier would decode to it, but none is ever issued. -/
def originVersion (version : Bytes) : Values :=
  if version = [] then ∅ else Values.setOne ∅ (ascii "versionId") version

theorem encode_single (key value : Bytes) :
    (Values.setOne (∅ : Values) key value).encode = encodePair key value := by
  have hsingle : (Values.setOne (∅ : Values) key value).Single := by
    intro k vs hk
    by_cases hkey : k = key
    · subst hkey
      rw [Values.setOne, AList.lookup_insert] at hk
      exact ⟨value, (Option.some.inj hk).symm⟩
    · rw [Values.setOne, AList.lookup_insert_ne hkey, AList.lookup_empty] at hk
      cases hk
  have hget : (Values.setOne (∅ : Values) key value).get key = value :=
    Values.get_of_lookup (AList.lookup_insert _)
  have hkeys : (Values.setOne (∅ : Values) key value).keys.mergeSort bytesLE = [key] := by
    rw [Values.setOne, AList.keys_insert]
    exact List.mergeSort_singleton key
  rw [hsingle.encode, hkeys, List.map_singleton, hget]
  rfl

/-- One written pair is one read pair. -/
theorem parseQuery_encodePair (key value : Bytes) :
    parseQuery (encodePair key value) = (Values.setOne ∅ key value, true) := by
  have hamp : (38 : UInt8) ∉ encodePair key value :=
    notMem_encodePair (by decide) (by decide) (by decide) rfl key value
  have hne : ¬ encodePair key value = [] := by simp [encodePair]
  rw [parseQuery, if_neg hne, split_of_notMem hamp, parsePieces_encodePair]
  rfl

/-- **ROUND TRIP**: the origin reads the parts a copy source is built from. -/
theorem readOriginSource_build {bucket : Bytes} (hbucket : (47 : UInt8) ∉ bucket)
    (key version : Bytes) :
    readOriginSource (buildCopySource bucket key version) =
      some { bucket := bucket, key := key, query := originVersion version } := by
  -- the slash between bucket and key is not escaped, and no question mark is left unescaped
  have hescaped : trimPrefix
      ({ path := ascii "/" ++ bucket ++ ascii "/" ++ key : URL }).escapedPath (ascii "/") =
      escape bucket .path ++ 47 :: escape key .path := by
    have hpath : ascii "/" ++ bucket ++ ascii "/" ++ key = 47 :: (bucket ++ 47 :: key) := by
      simp [ascii]
    rw [escapedPath_plain rfl (Or.inr ⟨_, hpath⟩), hpath, escape_slash, escape_append, escape_slash]
    rfl
  have hquestion : (63 : UInt8) ∉ escape bucket .path ++ 47 :: escape key .path := by
    rw [List.mem_append, List.mem_cons, not_or, not_or]
    exact ⟨notMem_escape (by decide) (by decide) rfl bucket, by decide,
      notMem_escape (by decide) (by decide) rfl key⟩
  -- the first question mark is where the version begins
  have hcut : ∃ found, cut 63 (buildCopySource bucket key version) =
      (escape bucket .path ++ 47 :: escape key .path,
        if version = [] then [] else encodePair (ascii "versionId") version, found) := by
    rw [buildCopySource]
    simp only [hescaped]
    by_cases hversion : version = []
    · rw [if_pos hversion, if_pos hversion, cut_of_notMem hquestion]
      exact ⟨false, rfl⟩
    · rw [if_neg hversion, if_neg hversion, encode_single, List.append_assoc,
        show ascii "?" = [63] from rfl, List.singleton_append, cut_append hquestion]
      exact ⟨true, rfl⟩
  have hquery : parseQuery (if version = [] then [] else encodePair (ascii "versionId") version) =
      (originVersion version, true) := by
    rw [originVersion]
    split
    · rfl
    · exact parseQuery_encodePair _ _
  obtain ⟨found, hcut⟩ := hcut
  rw [readOriginSource, hcut]
  simp only [cut_append (slash_notMem_escape hbucket), hquery, pathUnescape,
    unescape_escape (show Mode.path ≠ .host by decide)]
  rfl

/-! ## The header that is sent -/

/-- The version of the origin a copy source stands for, if its token decodes. -/
def sourceVersion (cr : Crypto) (cfg : VBucketConfig) (source : CopySource) :
    Except Message Bytes :=
  if source.versionID = [] then .ok []
  else decodeOpaqueToken cr cfg .version source.versionID

section
variable {hp : HostParser} {cr : Crypto} {cfg : VBucketConfig} {source : CopySource}
  {version : Bytes}

theorem outboundCopySource_ok (h : Normalized hp cfg)
    (hversion : sourceVersion cr cfg source = .ok version) :
    outboundCopySource cr cfg source =
      .ok (buildCopySource cfg.realBucket (cfg.realPrefix ++ source.key) version) := by
  rw [outboundCopySource, normalizedPrefix_eq h]
  rw [sourceVersion] at hversion
  split at hversion
  · next hnone =>
      cases hversion
      rw [if_pos hnone]
  · next hsome =>
      rw [if_neg hsome, hversion]

end

section
variable {hp : HostParser} {cr : Crypto} {cfg : VBucketConfig} {r : Request}
  {bucket objectKey : Bytes} {plan : S3OperationPlan} {source : CopySource}

/-- The check of a copy that is about reading is the one for its source. -/
theorem Planned.source_check (h : Planned r bucket objectKey plan)
    (hkind : plan.kind = .copyObject) (hs : plan.copySource = some source) :
    newIAMRequest (copySourceAction source) (s3ObjectARN bucket source.key) ∈ plan.iamChecks ∧
    ∀ check ∈ plan.iamChecks,
      check.action = ascii "s3:GetObject" ∨ check.action = ascii "s3:GetObjectVersion" →
      check = newIAMRequest (copySourceAction source) (s3ObjectARN bucket source.key) := by
  have hchecks := h.iamChecks_eq
  rw [hkind, hs, h.bucket_eq] at hchecks
  rw [hchecks]
  refine ⟨List.mem_cons_of_mem _ (List.mem_append_left _ (List.mem_singleton.mpr rfl)), ?_⟩
  intro check hcheck haction
  rcases List.mem_cons.mp hcheck with rfl | hcheck
  · exact absurd haction (show ¬ (ascii "s3:PutObject" = ascii "s3:GetObject" ∨
      ascii "s3:PutObject" = ascii "s3:GetObjectVersion") by decide +kernel)
  rcases List.mem_append.mp hcheck with hcheck | hcheck
  · exact List.mem_singleton.mp hcheck
  -- the checks for the headers are about writing
  · rcases List.mem_append.mp hcheck with hcheck | hcheck
    · split at hcheck
      · rw [List.mem_singleton.mp hcheck] at haction
        exact absurd haction (show ¬ (ascii "s3:PutObjectAcl" = ascii "s3:GetObject" ∨
          ascii "s3:PutObjectAcl" = ascii "s3:GetObjectVersion") by decide +kernel)
      · exact nomatch hcheck
    · split at hcheck
      · rw [List.mem_singleton.mp hcheck] at haction
        exact absurd haction (show ¬ (ascii "s3:PutObjectTagging" = ascii "s3:GetObject" ∨
          ascii "s3:PutObjectTagging" = ascii "s3:GetObjectVersion") by decide +kernel)
      · exact nomatch hcheck

/-- Signing adds no copy source and changes none. -/
theorem values_copySource_signed {accessKey secretKey region : Bytes} {now : Time.Instant} :
    (signRequest cr r accessKey secretKey region now).header.values copySourceHeader =
      r.header.values copySourceHeader := by
  rw [values_signRequest (by decide +kernel), datedRequest, values_setHeader _ (by decide +kernel),
    values_setHeader _ (by decide +kernel)]

/-- The copy source of a copy is the only one that is sent. -/
theorem Sent.values_copySource {mapping : Option VBucketConfig} {out : OutboundRequest}
    {text : Bytes} (h : Sent hp cr r plan mapping cfg out) (hkind : plan.kind = .copyObject)
    (hs : plan.copySource = some source) (htext : outboundCopySource cr cfg source = .ok text) :
    out.header.values copySourceHeader = [text] := by
  rcases outboundHeaders_at h.header copySourceHeader_unsigned
    with ⟨-, -, source', text', hsource, hbuilt, hat⟩ | ⟨hcopy, -⟩
  · cases hs.symm.trans hsource
    cases htext.symm.trans hbuilt
    exact hat
  · exact absurd rfl (hcopy hkind)

end

/-- **THE SOURCE READ IS THE SOURCE AUTHORIZED**: for every copy source that is accepted and
    every normalised mapping its version decodes under, the origin reads the mapping's
    bucket, its prefix and the accepted key, and the decoded version.  That key has no dot
    segments, it is the one in the plan's only check for reading, and the header with it is
    the only copy source of the signed request.

    `sent` is the plan when the request is built: later stages keep its kind and source. -/
theorem copy_source_read {hp : HostParser} {cr : Crypto} {raw bucket : Bytes}
    {source : CopySource} {mapping : Option VBucketConfig} {cfg : VBucketConfig}
    {version : Bytes} (hraw : parseCopySource raw bucket = .ok source)
    (hcfg : normalizeVBucketConfig hp cr mapping = .ok cfg)
    (hversion : sourceVersion cr cfg source = .ok version) :
    ∃ text, outboundCopySource cr cfg source = .ok text ∧
      readOriginSource text = some
        { bucket := cfg.realBucket
          key := cfg.realPrefix ++ source.key
          query := originVersion version } ∧
      NoDots source.key ∧
      ∀ (r : Request) (objectKey : Bytes) (plan : S3OperationPlan),
        planS3Operation r bucket objectKey = .ok plan → plan.kind = .copyObject →
        singleHeaderValue r.header copySourceHeader = raw →
        newIAMRequest (copySourceAction source) (s3ObjectARN bucket source.key) ∈
          plan.iamChecks ∧
        (∀ check ∈ plan.iamChecks,
          check.action = ascii "s3:GetObject" ∨ check.action = ascii "s3:GetObjectVersion" →
          check = newIAMRequest (copySourceAction source) (s3ObjectARN bucket source.key)) ∧
        ∀ (sent : S3OperationPlan) (out : OutboundRequest), sent.kind = plan.kind →
          sent.copySource = plan.copySource → outboundRequest hp cr r sent mapping = .ok out →
          ∀ (tokens : ∀ name ∈ out.header, isToken name = true) (now : Time.Instant),
            (signRequest cr (out.request tokens) cfg.realAccessKey cfg.realSecretKey
              cfg.realRegion now).header.values copySourceHeader = [text] := by
  have hn := normalize_spec hcfg
  have htext := outboundCopySource_ok hn hversion
  refine ⟨_, htext, ?_, noDots_of_valid (parseCopySource_ok hraw).valid, ?_⟩
  · exact readOriginSource_build (slash_notMem_of_isValidBucketName hn.bucket) _ _
  · intro r objectKey plan hplan hkind hheader
    have hplanned := plan_spec hplan
    obtain ⟨source', hsource⟩ := hplanned.exists_copySource hkind
    have hread := (hplanned.copySource_spec hsource).2
    rw [hheader] at hread
    cases hraw.symm.trans hread
    obtain ⟨hmem, honly⟩ := hplanned.source_check hkind hsource
    refine ⟨hmem, honly, ?_⟩
    intro sent out hsameKind hsameSource hout tokens now
    obtain ⟨cfg', hsent⟩ := outboundRequest_spec hout
    cases hcfg.symm.trans hsent.mapping
    rw [values_copySource_signed]
    exact hsent.values_copySource (hsameKind.trans hkind) (hsameSource.trans hsource) htext

/-- A version of a key with a question mark. -/
def questionSource : Bytes := ascii "/vbk/a%3Fb?" ++ versionQuery

theorem copy_source_read_of_question :
    ∃ source text, parseCopySource questionSource (ascii "vbk") = .ok source ∧
      source.key = ascii "a?b" ∧
      outboundCopySource sampleCrypto (sampleConfig (ascii "t")) source = .ok text ∧
      readOriginSource text = some
        { bucket := ascii "abc", key := ascii "t/" ++ ascii "a?b"
          query := originVersion (ascii "x") } := by
  have hcheck : okAnd (parseCopySource questionSource (ascii "vbk")) (fun source =>
      source.key = ascii "a?b" &&
      sourceVersion sampleCrypto (sampleConfig (ascii "t")) source = .ok (ascii "x")) = true := by
    decide +kernel
  obtain ⟨source, hsource, htest⟩ := exists_of_okAnd hcheck
  simp only [Bool.and_eq_true, decide_eq_true_eq] at htest
  have hcfg : normalizeVBucketConfig sampleHosts sampleCrypto
      (some (sampleConfig (ascii "t"))) = .ok (sampleConfig (ascii "t")) := by
    decide +kernel
  obtain ⟨text, htext, hread, -, -⟩ := copy_source_read hsource hcfg htest.2
  rw [htest.1, show (sampleConfig (ascii "t")).realPrefix = ascii "t/" by decide +kernel] at hread
  exact ⟨source, text, hsource, htest.1, htext, hread⟩

end S3
