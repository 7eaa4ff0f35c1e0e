import VBuckets.PlanProofs
import VBuckets.NormalizationProofs

/-! # Outbound requests

    `proxyS3Request` (`http_server/s3_proxy.go`) up to signing: the query rewrite of
    `http_server/s3_list_rewrite.go`, the URL, and the forwarded headers with the copy
    source of `http_server/s3_copy.go`.

    Each piece has one lemma that says what reading it back gives. -/

namespace S3

open ByteString Url Http Mapping

/-! ## Transforms -/

inductive RequestTransform where
  | bucketRoot | listQuery | objectPath
  deriving DecidableEq

/-- Where the prefix goes, into the query of a listing or into the path of an object.  Every
    kind has a transform. -/
def classifyS3RequestTransform : OperationKind → RequestTransform
  | .listBuckets | .createBucket | .headBucket => .bucketRoot
  | .listObjects | .listObjectsV2 | .listMultipartUploads => .listQuery
  | .getObject | .headObject | .getObjectVersion | .headObjectVersion | .putObject
  | .putObjectACL | .putObjectTagging | .copyObject | .deleteObject | .deleteObjectVersion
  | .createMultipartUpload | .uploadPart | .listParts | .completeMultipartUpload
  | .abortMultipartUpload => .objectPath

/-! ## The query -/

/-- The marker of a listing. -/
def keyFields : OperationKind → List Bytes
  | .listObjects => [ascii "marker"]
  | .listObjectsV2 => [ascii "start-after"]
  | .listMultipartUploads => [ascii "key-marker"]
  | _ => []

/-- The parameters that carry a routing token, in the order they are decoded. -/
def tokenFields : List (Bytes × TokenKind) :=
  [(ascii "continuation-token", .continuation), (ascii "upload-id-marker", .upload),
    (ascii "uploadId", .upload), (ascii "versionId", .version)]

/-- Put a prefix before a non-empty marker. -/
def prefixMarker (pathPrefix : Bytes) (q : Values) (field : Bytes) : Values :=
  if q.get field ≠ [] ∧ pathPrefix ≠ [] then q.setOne field (pathPrefix ++ q.get field) else q

/-- Replace each non-empty token by the identifier it stands for. -/
def decodeFields (cr : Crypto) (cfg : VBucketConfig) :
    List (Bytes × TokenKind) → Values → Except Message Values
  | [], q => .ok q
  | (name, kind) :: fields, q =>
      if q.get name = [] then decodeFields cr cfg fields q
      else
        match decodeOpaqueToken cr cfg kind (q.get name) with
        | .error e => .error e
        | .ok decoded => decodeFields cr cfg fields (q.setOne name decoded)

/-- Put a prefix before the prefix of a listing.  It is set even where the client asks
    for none, since the listing must not leave the namespace. -/
def prefixList (pathPrefix : Bytes) (prefixKeyFields : Bool) (q : Values) : Values :=
  if prefixKeyFields = true ∧ pathPrefix ≠ [] then
    q.setOne (ascii "prefix") (pathPrefix ++ q.get (ascii "prefix"))
  else q

/-- The query with its prefix and marker realised. -/
def realizeQuery (kind : OperationKind) (q : Values) (pathPrefix : Bytes)
    (prefixKeyFields : Bool) : Values :=
  (keyFields kind).foldl (prefixMarker pathPrefix) (prefixList pathPrefix prefixKeyFields q)

def rewriteOutboundQuery (cr : Crypto) (kind : OperationKind) (rawQuery pathPrefix : Bytes)
    (prefixKeyFields : Bool) (cfg : Option VBucketConfig) : Except Message Bytes :=
  let q := realizeQuery kind (parseQuery rawQuery).1 pathPrefix prefixKeyFields
  match cfg with
  | none => .ok q.encode
  | some cfg =>
      match decodeFields cr cfg tokenFields q with
      | .error e => .error e
      | .ok q => .ok q.encode

/-! ## The URL -/

/-- `parseEndpoint`; a text that does not parse gives no URL. -/
def parseEndpoint (hp : HostParser) (endpoint : Bytes) : Option URL :=
  parse hp
    (if contains endpoint (ascii "://") then endpoint else ascii "https://" ++ endpoint)

/-- The path of the real request.  With path style the bucket is its first segment, and
    the bucket itself has no slash after it. -/
def outboundPath (cfg : VBucketConfig) (objectKey : Bytes) : Bytes :=
  if cfg.realUsePathStyle then
    ascii "/" ++ cfg.realBucket ++ (if objectKey ≠ [] then ascii "/" ++ objectKey else [])
  else ascii "/" ++ objectKey

/-- The host of the real request: the bucket comes first unless it is in the path. -/
def outboundHost (cfg : VBucketConfig) (host : Bytes) : Bytes :=
  if cfg.realUsePathStyle then host else cfg.realBucket ++ ascii "." ++ host

/-- `buildOutboundURL`; without a URL for the endpoint it dereferences nil. -/
def buildOutboundURL (hp : HostParser) (cfg : VBucketConfig) (objectKey rawQuery : Bytes) :
    Option Bytes :=
  (parseEndpoint hp cfg.realEndpoint).map (fun u =>
    { u with
      host := outboundHost cfg u.host
      path := outboundPath cfg objectKey
      rawQuery := rawQuery }.string)

/-! ## The copy source -/

def buildCopySource (bucket key versionID : Bytes) : Bytes :=
  let u : URL := { path := ascii "/" ++ bucket ++ ascii "/" ++ key }
  let escaped := trimPrefix u.escapedPath (ascii "/")
  if versionID = [] then escaped
  else
    escaped ++ ascii "?" ++
      (Values.setOne (∅ : Values) (ascii "versionId") versionID).encode

/-! ## The request -/

/-- An error document: status, code and message. -/
structure S3Error where
  status : Nat
  code : String
  message : String
  deriving DecidableEq

/-- How the proxy can end without sending a request. -/
inductive ProxyFailure where
  | response (error : S3Error)
  | nilDereference
  deriving DecidableEq

/-- The request before it is signed. -/
structure OutboundRequest where
  method : Bytes
  url : URL
  host : Bytes
  header : Header
  contentLength : Int
  body : Option Body

def normalizedPrefix (cfg : VBucketConfig) : Bytes :=
  if cfg.pathPrefix ≠ [] then trimSuffix cfg.pathPrefix (ascii "/") ++ ascii "/" else []

/-- The key in the path: object operations put the tenant's prefix before it. -/
def outboundKey (cfg : VBucketConfig) (plan : S3OperationPlan) : Bytes :=
  if normalizedPrefix cfg ≠ [] ∧ classifyS3RequestTransform plan.kind = .objectPath then
    normalizedPrefix cfg ++ plan.objectKey
  else plan.objectKey

/-- The copy source a copy sends. -/
def outboundCopySource (cr : Crypto) (cfg : VBucketConfig) (source : CopySource) :
    Except S3Error Bytes :=
  if source.versionID = [] then
    .ok (buildCopySource cfg.realBucket (normalizedPrefix cfg ++ source.key) [])
  else
    match decodeOpaqueToken cr cfg .version source.versionID with
    | .error _ => .error ⟨400, "InvalidArgument", "Invalid source version token"⟩
    | .ok versionID =>
        .ok (buildCopySource cfg.realBucket (normalizedPrefix cfg ++ source.key) versionID)

/-- Set the copy source of a copy. -/
def setCopySource (cr : Crypto) (cfg : VBucketConfig) (plan : S3OperationPlan)
    (headers : Header) : Except ProxyFailure Header :=
  if plan.kind = .copyObject then
    match plan.copySource with
    | none => .error .nilDereference
    | some source =>
        match outboundCopySource cr cfg source with
        | .error e => .error (.response e)
        | .ok text => .ok (headers.setOne copySourceHeader text)
  else .ok headers

/-- The headers before signing: those that are passed on, with the copy source replaced
    and without the client's own signature. -/
def outboundHeaders (cr : Crypto) (cfg : VBucketConfig) (plan : S3OperationPlan) :
    Except ProxyFailure Header := do
  let headers ← setCopySource cr cfg plan
    (copyOutboundRequestHeaders plan.forwardHeaders ∅ plan.kind)
  .ok (((headers.del (ascii "Authorization")).del (ascii "X-Amz-Date")).del
    (ascii "x-amz-content-sha256"))

/-- `http.NewRequest`: the method must be a token and the text a URL. -/
def newRequestURL (hp : HostParser) (method text : Bytes) : Option URL :=
  if isToken method then parse hp text else none

/-- `proxyS3Request` up to signing: the mapping is normalised again, then query, URL
    and headers are made, each with the failure the source answers with. -/
def outboundRequest (hp : HostParser) (cr : Crypto) (r : Request) (plan : S3OperationPlan)
    (mapping : Option VBucketConfig) : Except ProxyFailure OutboundRequest :=
  match normalizeVBucketConfig hp cr mapping with
  | .error _ => .error (.response ⟨502, "InternalError", "Invalid upstream S3 mapping"⟩)
  | .ok cfg =>
      match rewriteOutboundQuery cr plan.kind plan.rawQuery (normalizedPrefix cfg)
          (classifyS3RequestTransform plan.kind = .listQuery) (some cfg) with
      | .error _ => .error (.response ⟨400, "InvalidArgument", "Invalid continuation token"⟩)
      | .ok rawQuery =>
          match buildOutboundURL hp cfg (outboundKey cfg plan) rawQuery with
          | none => .error .nilDereference
          | some text =>
              match newRequestURL hp plan.method text with
              | none =>
                  .error (.response
                    ⟨500, "InternalError", "Failed to construct upstream request"⟩)
              | some url => do
                  let header ← outboundHeaders cr cfg plan
                  match parseEndpoint hp cfg.realEndpoint with
                  | none => .error .nilDereference
                  | some endpoint =>
                      .ok
                        { method := plan.method
                          url := url
                          host := outboundHost cfg endpoint.host
                          header := header
                          contentLength := plan.contentLength
                          body :=
                            if plan.bodyKind = .completeMultipartXML then
                              some { data := plan.controlBody }
                            else r.body }

/-! ## Reading the query back -/

section
variable {q : Values}

theorem lookup_setOne (q : Values) (field value k : Bytes) :
    (q.setOne field value).lookup k = if k = field then some [value] else q.lookup k := by
  by_cases hk : k = field
  · rw [if_pos hk, hk, Values.setOne, AList.lookup_insert]
  · rw [if_neg hk, Values.setOne, AList.lookup_insert_ne hk]

theorem single_setOne (hq : q.Single) (field value : Bytes) : (q.setOne field value).Single := by
  intro k vs hvs
  rw [lookup_setOne] at hvs
  split at hvs
  · exact ⟨value, (Option.some.inj hvs).symm⟩
  · exact hq k vs hvs

theorem lookup_of_get_ne {k : Bytes} (hq : q.Single) (hk : q.get k ≠ []) :
    q.lookup k = some [q.get k] := by
  cases hl : q.lookup k with
  | none => exact absurd (by rw [Values.get, hl]; rfl) hk
  | some vs =>
      obtain ⟨x, rfl⟩ := hq k vs hl
      rw [Values.get_of_lookup hl]

theorem get_congr {q' : Values} {k : Bytes} (h : q'.lookup k = q.lookup k) :
    q'.get k = q.get k := by
  rw [Values.get, Values.get, h]

/-- Setting one field or leaving it. -/
theorem setOne_if_spec (hq : q.Single) (field value : Bytes) (c : Prop) [Decidable c] :
    (if c then q.setOne field value else q).Single ∧
      ∀ k, (if c then q.setOne field value else q).lookup k =
        if k = field ∧ c then some [value] else q.lookup k := by
  by_cases hc : c
  · rw [if_pos hc]
    refine ⟨single_setOne hq _ _, fun k => ?_⟩
    rw [lookup_setOne]
    simp [hc]
  · rw [if_neg hc]
    exact ⟨hq, fun k => by simp [hc]⟩

/-- The markers are prefixed one by one. -/
theorem prefixMarkers_spec (pathPrefix : Bytes) {fields : List Bytes} (hn : fields.Nodup)
    (hq : q.Single) :
    (fields.foldl (prefixMarker pathPrefix) q).Single ∧
      ∀ k, (fields.foldl (prefixMarker pathPrefix) q).lookup k =
        if k ∈ fields ∧ q.get k ≠ [] ∧ pathPrefix ≠ [] then some [pathPrefix ++ q.get k]
        else q.lookup k := by
  induction fields generalizing q with
  | nil => exact ⟨hq, fun k => by simp⟩
  | cons f fields ih =>
      obtain ⟨hf, hn'⟩ := List.nodup_cons.mp hn
      have hstep := setOne_if_spec hq f (pathPrefix ++ q.get f) (q.get f ≠ [] ∧ pathPrefix ≠ [])
      have hrest := ih hn' hstep.1
      refine ⟨hrest.1, fun k => ?_⟩
      rw [List.foldl_cons, prefixMarker, hrest.2 k]
      by_cases hkf : k = f
      · subst hkf
        rw [if_neg (fun hc => hf hc.1), hstep.2 k]
        simp
      · have hsame := (hstep.2 k).trans (if_neg (fun hc => hkf hc.1))
        rw [get_congr hsame, hsame]
        simp [hkf]

/-- The query after prefix and marker. -/
theorem realizeQuery_spec (kind : OperationKind) (hq : q.Single) (pathPrefix : Bytes)
    (lists : Bool) :
    (realizeQuery kind q pathPrefix lists).Single ∧
    ∀ k, (realizeQuery kind q pathPrefix lists).lookup k =
      if k = ascii "prefix" ∧ lists = true ∧ pathPrefix ≠ [] then
        some [pathPrefix ++ q.get (ascii "prefix")]
      else if k ∈ keyFields kind ∧ q.get k ≠ [] ∧ pathPrefix ≠ [] then
        some [pathPrefix ++ q.get k]
      else q.lookup k := by
  have hfields : ascii "prefix" ∉ keyFields kind ∧ (keyFields kind).Nodup := by
    cases kind <;> decide
  have hlist := setOne_if_spec hq (ascii "prefix") (pathPrefix ++ q.get (ascii "prefix"))
    (lists = true ∧ pathPrefix ≠ [])
  have hmark := prefixMarkers_spec pathPrefix hfields.2 hlist.1
  refine ⟨hmark.1, fun k => ?_⟩
  rw [realizeQuery, prefixList, hmark.2 k]
  by_cases hk : k = ascii "prefix"
  · -- the prefix is no marker
    subst hk
    rw [if_neg (fun hc => hfields.1 hc.1), hlist.2]
    simp [hfields.1]
  · have hsame := (hlist.2 k).trans (if_neg (fun hc => hk hc.1))
    rw [get_congr hsame, hsame]
    simp [hk]

/-- The query after the tokens are decoded. -/
theorem decodeFields_spec {cr : Crypto} {cfg : VBucketConfig}
    (fields : List (Bytes × TokenKind)) (hn : (fields.map Prod.fst).Nodup) {w : Values}
    (hq : q.Single) (h : decodeFields cr cfg fields q = .ok w) :
    w.Single ∧ (∀ k, k ∉ fields.map Prod.fst → w.lookup k = q.lookup k) ∧
    ∀ f ∈ fields, (q.get f.1 = [] → w.lookup f.1 = q.lookup f.1) ∧
      (q.get f.1 ≠ [] → ∃ d, decodeOpaqueToken cr cfg f.2 (q.get f.1) = .ok d ∧
        w.lookup f.1 = some [d]) := by
  induction fields generalizing q with
  | nil =>
      cases h
      exact ⟨hq, fun k _ => rfl, fun f hf => nomatch hf⟩
  | cons f fields ih =>
      obtain ⟨name, kind⟩ := f
      rw [List.map_cons, List.nodup_cons] at hn
      obtain ⟨hname, hn'⟩ := hn
      -- the rest of the fields do not touch this one
      have hcons : ∀ {q' : Values}, q'.Single → decodeFields cr cfg fields q' = .ok w →
          (∀ k, k ≠ name → q'.lookup k = q.lookup k) →
          w.Single ∧ (∀ k, k ∉ name :: fields.map Prod.fst → w.lookup k = q.lookup k) ∧
          (w.lookup name = q'.lookup name) ∧
          ∀ f ∈ fields, (q.get f.1 = [] → w.lookup f.1 = q.lookup f.1) ∧
            (q.get f.1 ≠ [] → ∃ d, decodeOpaqueToken cr cfg f.2 (q.get f.1) = .ok d ∧
              w.lookup f.1 = some [d]) := by
        intro q' hq' hdec hsame
        obtain ⟨hs, ho, hf⟩ := ih hn' hq' hdec
        refine ⟨hs, ?_, ho name hname, ?_⟩
        · intro k hk
          rw [List.mem_cons, not_or] at hk
          rw [ho k hk.2, hsame k hk.1]
        · intro f hmem
          have hne : f.1 ≠ name := by
            intro he
            exact hname (List.mem_map.mpr ⟨f, hmem, he⟩)
          have hfield := hf f hmem
          rw [get_congr (hsame f.1 hne), hsame f.1 hne] at hfield
          exact hfield
      rw [decodeFields] at h
      split at h
      · next hempty =>
          obtain ⟨hs, ho, hv, hf⟩ := hcons hq h (fun k _ => rfl)
          refine ⟨hs, ho, ?_⟩
          intro f hmem
          rcases List.mem_cons.mp hmem with rfl | hmem
          · exact ⟨fun _ => hv, fun hne => absurd hempty hne⟩
          · exact hf f hmem
      · next hne =>
          split at h
          · exact nomatch h
          · next d hd =>
              obtain ⟨hs, ho, hv, hf⟩ := hcons (single_setOne hq _ _) h
                (fun k hk => by rw [lookup_setOne, if_neg hk])
              rw [lookup_setOne, if_pos rfl] at hv
              refine ⟨hs, ho, ?_⟩
              intro f hmem
              rcases List.mem_cons.mp hmem with rfl | hmem
              · exact ⟨fun hempty => absurd hempty hne, fun _ => ⟨d, hd, hv⟩⟩
              · exact hf f hmem

/-- **THE REWRITTEN QUERY** reads back as one query with one value for each key. -/
theorem rewriteOutboundQuery_spec {cr : Crypto} {cfg : VBucketConfig} {kind : OperationKind}
    {rawQuery pathPrefix text : Bytes} {lists : Bool}
    (hq : parseQuery rawQuery = (q, true)) (hs : q.Single)
    (h : rewriteOutboundQuery cr kind rawQuery pathPrefix lists (some cfg) = .ok text) :
    ∃ w, w.Single ∧ text = w.encode ∧
      decodeFields cr cfg tokenFields (realizeQuery kind q pathPrefix lists) = .ok w := by
  rw [rewriteOutboundQuery, hq] at h
  simp only at h
  split at h
  · exact nomatch h
  · next w hw =>
      cases h
      have hreal := (realizeQuery_spec kind hs pathPrefix lists).1
      exact ⟨w, (decodeFields_spec tokenFields (by decide) hreal hw).1, rfl, hw⟩

end

/-! ## Reading the URL back -/

section
variable {hp : HostParser} {cfg : VBucketConfig}

theorem normalizedPrefix_eq (h : Normalized hp cfg) : normalizedPrefix cfg = cfg.realPrefix := by
  rw [normalizedPrefix, VBucketConfig.realPrefix, h.trimSuffix_prefix]
  by_cases hp : cfg.pathPrefix = []
  · rw [if_pos hp, if_neg (fun h => h hp)]
  · rw [if_neg hp, if_pos hp]

/-- A normalised endpoint is its scheme and its host. -/
theorem parseEndpoint_spec (h : Normalized hp cfg) :
    ∃ scheme host, (scheme = ascii "http" ∨ scheme = ascii "https") ∧
      parseEndpoint hp cfg.realEndpoint = some { scheme := scheme, host := host } ∧
      hp.parseHost scheme (escape host .host) = some host := by
  obtain ⟨scheme, host, hs, hend, hhost⟩ := h.endpoint
  refine ⟨scheme, host, hs, ?_, hhost⟩
  have hsep : contains cfg.realEndpoint (ascii "://") = true := by
    rw [hend]
    rcases hs with rfl | rfl
    · rfl
    · rfl
  have habs := parse_absolute hp hs (isPlain_host host) (p := []) (q := [])
    (fun b hb => nomatch hb) (Or.inl rfl) (fun b hb => nomatch hb)
  rw [hhost] at habs
  rw [parseEndpoint, if_pos hsep, hend]
  simpa [queryPart, setPath, unescape, escape] using habs

theorem outboundPath_absolute (cfg : VBucketConfig) (objectKey : Bytes) :
    ∃ t, outboundPath cfg objectKey = 47 :: t := by
  rw [outboundPath]
  split
  · exact ⟨_, rfl⟩
  · exact ⟨_, rfl⟩

/-- **THE OUTBOUND URL**: its text, and what parsing it gives. -/
theorem buildOutboundURL_spec (h : Normalized hp cfg) (objectKey : Bytes) {rawQuery : Bytes}
    (hq : ∀ b ∈ rawQuery, IsPlain b) :
    ∃ scheme host, (scheme = ascii "http" ∨ scheme = ascii "https") ∧
      parseEndpoint hp cfg.realEndpoint = some { scheme := scheme, host := host } ∧
      hp.parseHost scheme (escape host .host) = some host ∧
      buildOutboundURL hp cfg objectKey rawQuery =
        some (scheme ++ ascii "://" ++ escape (outboundHost cfg host) .host ++
          escape (outboundPath cfg objectKey) .path ++ queryPart rawQuery) ∧
      parse hp (scheme ++ ascii "://" ++ escape (outboundHost cfg host) .host ++
          escape (outboundPath cfg objectKey) .path ++ queryPart rawQuery) =
        (hp.parseHost scheme (escape (outboundHost cfg host) .host)).map (fun host =>
          { scheme := scheme, host := host, path := outboundPath cfg objectKey
            rawQuery := rawQuery }) := by
  obtain ⟨scheme, host, hs, hparse, hhost⟩ := parseEndpoint_spec h
  obtain ⟨t, ht⟩ := outboundPath_absolute cfg objectKey
  refine ⟨scheme, host, hs, hparse, hhost, ?_, ?_⟩
  · rw [buildOutboundURL, hparse, Option.map_some, string_plain rfl (Or.inr ⟨t, ht⟩) rfl rfl]
  · rw [parse_absolute hp hs (isPlain_host _) (isPlain_escape rfl rfl)
      (Or.inr ⟨escape t .path, by rw [ht, escape_slash]⟩) hq]
    cases hp.parseHost scheme (escape (outboundHost cfg host) .host) with
    | none => rfl
    | some host => exact setPath_escape _ _

end

/-! ## Reading the copy source back -/

/-- Up to the first question mark a built copy source is the escaped bucket and key. -/
theorem buildCopySource_path (bucket key versionID : Bytes) :
    unescape (cut 63 (buildCopySource bucket key versionID)).1 .path =
      some (bucket ++ ascii "/" ++ key) := by
  have hesc : trimPrefix
      ({ path := ascii "/" ++ bucket ++ ascii "/" ++ key : URL }).escapedPath (ascii "/") =
      escape (bucket ++ ascii "/" ++ key) .path := by
    have hstar : ¬ ascii "/" ++ bucket ++ ascii "/" ++ key = ascii "*" :=
      fun h => absurd (List.cons.inj h).1 (by decide)
    rw [URL.escapedPath, if_neg (fun h => h.1 rfl), if_neg hstar]
    have hpath : ascii "/" ++ bucket ++ ascii "/" ++ key = 47 :: (bucket ++ ascii "/" ++ key) := by
      simp [ascii]
    rw [hpath, escape_slash]
    rfl
  have hq : (63 : UInt8) ∉ escape (bucket ++ ascii "/" ++ key) .path :=
    notMem_escape (by decide) (by decide) rfl _
  have hcut : (cut 63 (buildCopySource bucket key versionID)).1 =
      escape (bucket ++ ascii "/" ++ key) .path := by
    rw [buildCopySource]
    simp only [hesc]
    split
    · rw [cut_of_notMem hq]
    · rw [List.append_assoc, show ascii "?" = [63] from rfl, List.singleton_append, cut_append hq]
  rw [hcut]
  exact unescape_escape (by decide) _

/-! ## Inversion -/

section
variable {hp : HostParser} {cr : Crypto} {r : Request} {plan : S3OperationPlan}
  {mapping : Option VBucketConfig} {out : OutboundRequest}

/-- Everything that went into an outbound request. -/
structure Sent (hp : HostParser) (cr : Crypto) (r : Request) (plan : S3OperationPlan)
    (mapping : Option VBucketConfig) (cfg : VBucketConfig) (out : OutboundRequest) : Prop where
  mapping : normalizeVBucketConfig hp cr mapping = .ok cfg
  query : ∃ rawQuery text, rewriteOutboundQuery cr plan.kind plan.rawQuery
      (normalizedPrefix cfg) (classifyS3RequestTransform plan.kind = .listQuery) (some cfg) =
      .ok rawQuery ∧
    buildOutboundURL hp cfg (outboundKey cfg plan) rawQuery = some text ∧
    parse hp text = some out.url
  header : outboundHeaders cr cfg plan = .ok out.header
  method : out.method = plan.method

theorem outboundRequest_spec (h : outboundRequest hp cr r plan mapping = .ok out) :
    ∃ cfg, Sent hp cr r plan mapping cfg out := by
  rw [outboundRequest] at h
  split at h
  · exact nomatch h
  · next cfg hcfg =>
      split at h
      · exact nomatch h
      · next rawQuery hraw =>
          split at h
          · exact nomatch h
          · next text htext =>
              split at h
              · exact nomatch h
              · next u hu =>
                  rw [newRequestURL] at hu
                  split at hu
                  · obtain ⟨header, hheader, h⟩ := bind_ok h
                    split at h
                    · exact nomatch h
                    · cases h
                      exact ⟨cfg, hcfg, ⟨rawQuery, text, hraw, htext, hu⟩, hheader, rfl⟩
                  · exact nomatch hu

theorem copySourceHeader_unsigned : canonicalHeaderKey copySourceHeader ∉
    [ascii "Authorization", ascii "X-Amz-Date", ascii "X-Amz-Content-Sha256"] := by
  decide

/-- The outbound headers: the forwarded ones, the copy source of a copy, and nothing of
    the client's signature. -/
theorem outboundHeaders_at {cfg : VBucketConfig} {header : Header}
    (h : outboundHeaders cr cfg plan = .ok header) {name : Bytes}
    (hsig : name ∉ [ascii "Authorization", ascii "X-Amz-Date", ascii "X-Amz-Content-Sha256"]) :
    (plan.kind = .copyObject ∧ name = canonicalHeaderKey copySourceHeader ∧
      ∃ source text, plan.copySource = some source ∧ outboundCopySource cr cfg source = .ok text ∧
        header.at_ name = [text]) ∨
    ((plan.kind = .copyObject → name ≠ canonicalHeaderKey copySourceHeader) ∧
      header.at_ name =
        (copyOutboundRequestHeaders plan.forwardHeaders ∅ plan.kind).at_ name) := by
  obtain ⟨headers, hset, h⟩ := bind_ok h
  cases h
  -- the signing headers are other names
  have hdel : (((headers.del (ascii "Authorization")).del (ascii "X-Amz-Date")).del
      (ascii "x-amz-content-sha256")).at_ name = headers.at_ name := by
    have hcanon : canonicalHeaderKey (ascii "Authorization") = ascii "Authorization" ∧
        canonicalHeaderKey (ascii "X-Amz-Date") = ascii "X-Amz-Date" ∧
        canonicalHeaderKey (ascii "x-amz-content-sha256") = ascii "X-Amz-Content-Sha256" := by
      decide
    simp only [List.mem_cons, List.not_mem_nil, or_false, not_or] at hsig
    rw [Header.at_del, Header.at_del, Header.at_del, hcanon.1, hcanon.2.1, hcanon.2.2,
      if_neg hsig.2.2, if_neg hsig.2.1, if_neg hsig.1]
  rw [hdel]
  rw [setCopySource] at hset
  split at hset
  · next hcopy =>
      split at hset
      · exact nomatch hset
      · next source hsource =>
          split at hset
          · exact nomatch hset
          · next text htext =>
              cases hset
              rw [Header.at_setOne]
              by_cases hname : name = canonicalHeaderKey copySourceHeader
              · rw [if_pos hname]
                exact Or.inl ⟨hcopy, hname, source, text, hsource, htext, rfl⟩
              · rw [if_neg hname]
                exact Or.inr ⟨fun _ => hname, rfl⟩
  · next hcopy =>
      cases hset
      exact Or.inr ⟨fun hc => absurd hc hcopy, rfl⟩

end

end S3
