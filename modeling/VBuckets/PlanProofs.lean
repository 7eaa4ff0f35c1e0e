import VBuckets.HeaderRulesProofs
import VBuckets.IamProofs
import VBuckets.TimeProofs

/-! # Operation plans

    `planS3Operation` and what is sealed into its plan: the copy source
    (`http_server/s3_copy.go`), the IAM checks and their context
    (`http_server/iam.go`), and `AuthorizeS3Plan`.

    `plan_spec` inverts the planner once; every fact about accepted plans is read off
    it. -/

namespace S3

open ByteString Url Http

/-! ## Requests -/

/-- A body: the bytes it yields and whether reading them ends in a failure. -/
structure Body where
  data : Bytes
  fails : Bool := false

/-- `http.Request` as the server delivers it, with the fields that are read.  The
    parser of the server lets through header names that are tokens only. -/
structure Request where
  method : Bytes
  host : Bytes
  url : URL
  header : Header
  trailer : Header := ∅
  contentLength : Int
  transferEncoding : List Bytes
  tls : Bool
  body : Option Body
  tokens : ∀ name ∈ header, isToken name = true

theorem isToken_of_mem_empty : ∀ name ∈ (∅ : Header), isToken name = true :=
  fun name h => absurd h (AList.notMem_empty name)

/-- Whether a request is not understood or not supported; the two are answered with
    different codes. -/
inductive ErrorClass where
  | malformed | unsupported
  deriving DecidableEq

/-- An error of the planner: `ErrMalformedS3Request` or `ErrUnsupportedS3Operation`, the
    method and target it quotes, and the reason. -/
structure PlanError where
  errorClass : ErrorClass
  target : Option (Bytes × Bytes) := none
  reason : Option Reason := none
  deriving DecidableEq

/-- An error about a request that cannot be read. -/
def malformedS3Request (r : Request) (reason : Reason) : PlanError :=
  { errorClass := .malformed, target := some (r.method, r.url.requestURI), reason := reason }

/-- An error about a request that is read and refused, with a reason. -/
def unsupportedS3OperationReason (r : Request) (reason : Reason) : PlanError :=
  { errorClass := .unsupported, target := some (r.method, r.url.requestURI), reason := reason }

/-- The same without one, for requests no row of the grammar matches. -/
def unsupportedS3Operation (r : Request) : PlanError :=
  { errorClass := .unsupported, target := some (r.method, r.url.requestURI) }

/-! ## Copy sources -/

/-- The object a copy is made of.  Without a version its identifier is empty. -/
structure CopySource where
  bucket : Bytes
  key : Bytes
  versionID : Bytes
  deriving DecidableEq

/-- The version in the query of a copy source. -/
def copySourceVersion (rawQuery : Bytes) : Except Reason Bytes :=
  if rawQuery = [] then .ok []
  else
    match parseQuery rawQuery with
    | (_, false) => .error { format := "parse copy source query: %w", args := [rawQuery] }
    | (query, true) =>
        match query.keys.find? (· != ascii "versionId") with
        | some key =>
            .error { format := "unsupported copy source query parameter %q", args := [key] }
        | none =>
            match query.lookup (ascii "versionId") with
            | some [versionID] =>
                if versionID = [] then
                  .error { format := "copy source versionId must not be empty" }
                else .ok versionID
            | _ => .error { format := "copy source must include exactly one versionId" }

/-- A path of bucket and key, with at most a version behind it.  The bucket has to be the one
    the request names, so copies never cross buckets. -/
def parseCopySource (raw expectedBucket : Bytes) : Except Reason CopySource :=
  let raw := trimSpace raw
  if raw = [] then .error { format := "copy source is required" }
  else if contains (toLower raw) (ascii "://") || hasPrefix (toLower raw) (ascii "arn:") then
    .error { format := "copy source must be a bucket/key path" }
  else
    let raw := trimPrefix raw (ascii "/")
    let (pathPart, rawQuery, _) := cut 63 raw
    if pathPart = [] then .error { format := "copy source path is required" }
    else
      let (bucketPart, keyPart, found) := cut 47 pathPart
      if !found || keyPart = [] then
        .error { format := "copy source must include bucket and key" }
      else if bucketPart.contains 58 then .error { format := "copy source bucket is invalid" }
      else
        match pathUnescape bucketPart, pathUnescape keyPart with
        | none, _ => .error { format := "decode copy source bucket: %w", args := [bucketPart] }
        | some _, none => .error { format := "decode copy source key: %w", args := [keyPart] }
        | some bucket, some key =>
            match validateVirtualObjectKey key with
            | .error e => .error (e.within "copy source key is unsafe: " [])
            | .ok () =>
                if bucket ≠ expectedBucket then
                  .error
                    { format :=
                        "copy source bucket %q does not match destination bucket %q"
                      args := [bucket, expectedBucket] }
                else
                  match copySourceVersion rawQuery with
                  | .error e => .error e
                  | .ok versionID => .ok { bucket := bucket, key := key, versionID := versionID }

/-- Reading a version needs a permission of its own. -/
def copySourceAction (source : CopySource) : Bytes :=
  if source.versionID ≠ [] then ascii "s3:GetObjectVersion" else ascii "s3:GetObject"

/-! ## IAM checks -/

/-- A check without context; the context is added when the plan is sealed. -/
def newIAMRequest (action resource : Bytes) : Iam.Request :=
  { action := action, resource := resource, context := ∅ }

/-- The resource name of a virtual bucket. -/
def s3BucketARN (bucket : Bytes) : Bytes := ascii "arn:aws:s3:::" ++ bucket

/-- The resource name of an object in one.  Policies name virtual buckets and keys
    only. -/
def s3ObjectARN (bucket key : Bytes) : Bytes := ascii "arn:aws:s3:::" ++ bucket ++ ascii "/" ++ key

/-- The action of an operation itself.  Further checks for headers and copy sources
    come on top of it. -/
def OperationKind.action : OperationKind → Bytes
  | .listBuckets => ascii "s3:ListAllMyBuckets"
  | .createBucket => ascii "s3:CreateBucket"
  | .headBucket | .listObjects | .listObjectsV2 => ascii "s3:ListBucket"
  | .listMultipartUploads => ascii "s3:ListBucketMultipartUploads"
  | .getObject | .headObject => ascii "s3:GetObject"
  | .getObjectVersion | .headObjectVersion => ascii "s3:GetObjectVersion"
  | .putObject | .copyObject | .createMultipartUpload | .uploadPart
  | .completeMultipartUpload => ascii "s3:PutObject"
  | .putObjectACL => ascii "s3:PutObjectAcl"
  | .putObjectTagging => ascii "s3:PutObjectTagging"
  | .deleteObject => ascii "s3:DeleteObject"
  | .deleteObjectVersion => ascii "s3:DeleteObjectVersion"
  | .listParts => ascii "s3:ListMultipartUploadParts"
  | .abortMultipartUpload => ascii "s3:AbortMultipartUpload"

/-- The resource of an operation itself. -/
def OperationKind.resource (kind : OperationKind) (bucket objectKey : Bytes) : Bytes :=
  match kind.pathClass with
  | .service => ascii "*"
  | .bucket => s3BucketARN bucket
  | .object => s3ObjectARN bucket objectKey

/-- `appendPutHeaderChecks`: an upload that sets an access control list or tags needs
    the permissions to do so. -/
def putHeaderChecks (headers : Header) (resource : Bytes) : List Iam.Request :=
  (if requestUsesACLHeaders headers then [newIAMRequest (ascii "s3:PutObjectAcl") resource]
    else []) ++
  (if hasHeader headers (ascii "x-amz-tagging") then
      [newIAMRequest (ascii "s3:PutObjectTagging") resource]
    else [])

/-- The checks each branch of `planS3Operation` lists: the operation itself, the source
    of a copy, and what the headers of an upload ask for. -/
def iamChecksFor (kind : OperationKind) (headers : Header) (bucket objectKey : Bytes)
    (source : Option CopySource) : List Iam.Request :=
  let resource := kind.resource bucket objectKey
  newIAMRequest kind.action resource ::
    (match kind with
    | .copyObject =>
        (match source with
        | some source =>
            [newIAMRequest (copySourceAction source) (s3ObjectARN bucket source.key)]
        | none => []) ++ putHeaderChecks headers resource
    | .putObject | .createMultipartUpload => putHeaderChecks headers resource
    | _ => [])

/-! ## Plans -/

/-- `S3ResponseProfile`, under the names of its constants. -/
inductive ResponseProfile where
  | listBuckets | createBucket | safeHeaders | streamObject | listObjects
  | listMultipartUploads | createMultipart | listParts | completeMultipart | copyObject
  deriving DecidableEq

/-- The response profile of each operation. -/
def OperationKind.responseProfile : OperationKind → ResponseProfile
  | .listBuckets => .listBuckets
  | .createBucket => .createBucket
  | .listObjects | .listObjectsV2 => .listObjects
  | .listMultipartUploads => .listMultipartUploads
  | .getObject | .getObjectVersion => .streamObject
  | .createMultipartUpload => .createMultipart
  | .listParts => .listParts
  | .completeMultipartUpload => .completeMultipart
  | .copyObject => .copyObject
  | _ => .safeHeaders

/-- What the body of an operation is for. -/
inductive BodyKind where
  | empty | streaming | createBucketConfiguration | completeMultipartXML
  deriving DecidableEq

/-- Operations that are not listed take no body. -/
def bodyKindForOperation : OperationKind → BodyKind
  | .putObject | .putObjectACL | .putObjectTagging | .uploadPart => .streaming
  | .createBucket => .createBucketConfiguration
  | .completeMultipartUpload => .completeMultipartXML
  | _ => .empty

/-- A body where none is taken is refused, also one of unknown length. -/
def validateBodyForOperation (r : Request) (kind : BodyKind) : Except Reason Unit :=
  refuseIf (kind = .empty && (r.contentLength != 0 || r.transferEncoding != []))
    { format := "%s requires an empty body", args := [r.method] }

/-- What is decided about a request before it is authorized, and all that is forwarded
    of it. -/
structure S3OperationPlan where
  kind : OperationKind
  bucket : Bytes
  objectKey : Bytes
  rawQuery : Bytes
  responseProfile : ResponseProfile
  iamChecks : List Iam.Request
  copySource : Option CopySource
  isVHost : Bool := false
  locationConstraint : Bytes := []
  bodyKind : BodyKind
  controlBody : Bytes := []
  method : Bytes
  contentLength : Int
  forwardHeaders : Header
  query : Values
  secureTransport : Bool
  signedAt : Bytes
  iamContext : Iam.Context
  authorizationReady : Bool := false

/-! ## The wire context -/

/-- `s3HeaderConditionKeys`. -/
def s3HeaderConditionKeys : List (Bytes × Bytes) :=
  [(ascii "x-amz-acl", ascii "s3:x-amz-acl"),
    (ascii "x-amz-copy-source", ascii "s3:x-amz-copy-source"),
    (ascii "x-amz-grant-full-control", ascii "s3:x-amz-grant-full-control"),
    (ascii "x-amz-grant-read", ascii "s3:x-amz-grant-read"),
    (ascii "x-amz-grant-read-acp", ascii "s3:x-amz-grant-read-acp"),
    (ascii "x-amz-grant-write", ascii "s3:x-amz-grant-write"),
    (ascii "x-amz-grant-write-acp", ascii "s3:x-amz-grant-write-acp"),
    (ascii "x-amz-metadata-directive", ascii "s3:x-amz-metadata-directive"),
    (ascii "x-amz-server-side-encryption", ascii "s3:x-amz-server-side-encryption"),
    (ascii "x-amz-storage-class", ascii "s3:x-amz-storage-class"),
    (ascii "x-amz-tagging", ascii "s3:x-amz-tagging"),
    (ascii "x-amz-tagging-directive", ascii "s3:x-amz-tagging-directive")]

/-- Add the values of one header under its condition key. -/
def addHeaderCondition (headers : Header) (ctx : Iam.Context) (hk : Bytes × Bytes) :
    Iam.Context :=
  if allHeaderValues headers hk.1 = [] then ctx
  else ctx.insert hk.2 (allHeaderValues headers hk.1)

/-- The conditions of a listing.  The prefix has a default, so a policy that restricts
    it also restricts listings without one; delimiter and page size are absent unless
    given. -/
def addListConditions (kind : OperationKind) (query : Values) (ctx : Iam.Context) :
    Iam.Context :=
  if kind.lists then
    let ctx := ctx.insert (ascii "s3:prefix") ((query.lookup (ascii "prefix")).getD [[]])
    let ctx :=
      match query.lookup (ascii "delimiter") with
      | some values => ctx.insert (ascii "s3:delimiter") values
      | none => ctx
    match query.lookup (ascii "max-keys") with
    | some values => ctx.insert (ascii "s3:max-keys") values
    | none => ctx
  else ctx

/-- The condition keys that are known from the request itself.  Time and location are
    added when the plan is sealed. -/
def buildS3IAMWireContext (kind : OperationKind) (secureTransport : Bool) (query : Values)
    (forwardHeaders : Header) : Iam.Context :=
  let ctx : Iam.Context :=
    ((AList.insert (ascii "s3:authtype") [ascii "REST-HEADER"] ∅).insert
      (ascii "s3:signatureversion") [ascii "AWS4-HMAC-SHA256"]).insert
      (ascii "aws:securetransport") [if secureTransport then ascii "true" else ascii "false"]
  s3HeaderConditionKeys.foldl (addHeaderCondition forwardHeaders)
    (addListConditions kind query ctx)

/-! ## The planner -/

/-- The checks of the target before anything else is read: the key has to be one the
    proxy can address, and an empty one after a slash is refused. -/
def checkTarget (r : Request) (bucket objectKey : Bytes) : Except PlanError Unit :=
  if objectKey ≠ [] then
    match validateVirtualObjectKey objectKey with
    | .ok () => .ok ()
    | .error e => .error (malformedS3Request r (e.within "invalid object key: " []))
  else if bucket ≠ [] ∧ hasSuffix r.url.path (ascii "/") = true ∧ r.url.path ≠ ascii "/" then
    .error (malformedS3Request r
      { format := "trailing-slash empty object keys are not supported" })
  else .ok ()

/-- The query, every parameter of which occurs once. -/
def readQuery (r : Request) : Except PlanError Values :=
  match parseQuery r.url.rawQuery with
  | (_, false) => .error (malformedS3Request r { format := "invalid query encoding: %v" })
  | (query, true) =>
      match query.entries.find? (fun e => e.2.length != 1) with
      | some e =>
          .error (unsupportedS3OperationReason r
            { format := "query parameter %q must occur exactly once", args := [e.1] })
      | none => .ok query

/-- The copy source of a copy. -/
def readCopySource (r : Request) (bucket : Bytes) (kind : OperationKind) :
    Except PlanError (Option CopySource) :=
  if kind = .copyObject then
    match parseCopySource (singleHeaderValue r.header copySourceHeader) bucket with
    | .ok source => .ok (some source)
    | .error e => .error (unsupportedS3OperationReason r (e.within "invalid copy source: " []))
  else .ok none

/-- The plan of an operation: what the branches and the deferred step assign. -/
def planFor (r : Request) (bucket objectKey : Bytes) (query : Values) (kind : OperationKind)
    (source : Option CopySource) : S3OperationPlan :=
  let forwardHeaders := canonicalHeaderClone r.header
  { kind := kind
    bucket := bucket
    objectKey := objectKey
    rawQuery := r.url.rawQuery
    responseProfile := kind.responseProfile
    iamChecks := iamChecksFor kind r.header bucket objectKey source
    copySource := source
    bodyKind := bodyKindForOperation kind
    method := r.method
    contentLength := r.contentLength
    forwardHeaders := forwardHeaders
    query := query
    secureTransport := r.tls
    signedAt := firstHeaderValue forwardHeaders (ascii "x-amz-date")
    iamContext := buildS3IAMWireContext kind r.tls query forwardHeaders }

/-- The checks of the deferred step. -/
def checkPlan (r : Request) (query : Values) (kind : OperationKind) : Except Reason Unit := do
  validateHeadersForOperation r.header kind
  validateQueryForOperation query
  validateBodyForOperation r (bodyKindForOperation kind)

/-- The planner.  Its checks come in the order of the source, so a request with
    several faults is answered with the first of them. -/
def planS3Operation (r : Request) (bucket objectKey : Bytes) :
    Except PlanError S3OperationPlan := do
  checkTarget r bucket objectKey
  let query ← readQuery r
  (validateOperationHeaders r.header).mapError
    (fun e => { errorClass := .unsupported, reason := some e })
  match selectKind (pathClass bucket objectKey) r.method (isCopyObjectRequest r.header) query with
  | none => .error (unsupportedS3Operation r)
  | some kind => do
      let source ← readCopySource r bucket kind
      (checkPlan r query kind).mapError (unsupportedS3OperationReason r)
      .ok (planFor r bucket objectKey query kind source)

/-! ## After planning -/

/-- How the request named its bucket, and where a new one is to be. -/
def S3OperationPlan.withRequestMetadata (p : S3OperationPlan) (isVHost : Bool)
    (locationConstraint : Bytes) : S3OperationPlan :=
  { p with isVHost := isVHost, locationConstraint := locationConstraint }

/-- Reading the two control documents is a library call; both results carry the local
    name of the root element. -/
structure XmlReader where
  completeMultipartUpload : Bytes → Option Bytes
  createBucketConfiguration : Bytes → Option (Bytes × Bytes)

/-- `io.ReadAll(io.LimitReader(body, limit+1))`: one byte more than allowed is enough
    to know that there is too much, whether or not reading would have failed later. -/
def Body.readLimited (body : Body) (limit : Nat) : Option Bytes :=
  if limit < body.data.length then some (body.data.take (limit + 1))
  else if body.fails then none
  else some body.data

/-- The largest completion document, one mebibyte. -/
def maxCompleteMultipartBytes : Nat := 1048576

/-- A completion document is read before the request is authorized, and replaced by
    what was read of it. -/
def S3OperationPlan.withCompleteMultipartBody (p : S3OperationPlan) (xml : XmlReader)
    (body : Option Body) : Except Reason S3OperationPlan :=
  if p.bodyKind ≠ .completeMultipartXML then .ok p
  else
    match body with
    | none => .error { format := "CompleteMultipartUpload body is required" }
    | some body =>
        match body.readLimited maxCompleteMultipartBytes with
        | none => .error { format := "%w" }
        | some data =>
            if maxCompleteMultipartBytes < data.length then
              .error { format := "CompleteMultipartUpload body is too large" }
            else if trimSpace data = [] then
              .error { format := "CompleteMultipartUpload body is required" }
            else
              match xml.completeMultipartUpload data with
              | none => .error { format := "%w" }
              | some root =>
                  if root ≠ ascii "CompleteMultipartUpload" then
                    .error
                      { format := "unexpected CompleteMultipartUpload root %q", args := [root] }
                  else .ok { p with controlBody := data, contentLength := data.length }

/-- The context of the checks: what the wire showed, the time, the location asked for
    and the age of the signature.  The age is not negative, whatever the two clocks
    say. -/
def S3OperationPlan.authorizationContext (p : S3OperationPlan) (locationConstraint : Bytes)
    (now : Time.Instant) : Iam.Context :=
  let ctx := (p.iamContext.insert (ascii "aws:currenttime") [Time.formatRFC3339 now]).insert
    (ascii "aws:epochtime") [Time.formatInt (Time.unix now)]
  let ctx :=
    if locationConstraint ≠ [] then
      ctx.insert (ascii "s3:locationconstraint") [locationConstraint]
    else ctx
  match Time.parseAmzDate p.signedAt with
  | some signedAt =>
      ctx.insert (ascii "s3:signatureage")
        [Time.formatInt (Time.milliseconds (max 0 (Time.sub now signedAt)))]
  | none => ctx

/-- Seals a plan: from here on its checks can be authorized. -/
def S3OperationPlan.withAuthorizationContext (p : S3OperationPlan) (locationConstraint : Bytes)
    (now : Time.Instant) : S3OperationPlan :=
  let ctx := p.authorizationContext locationConstraint now
  { p with
    locationConstraint := locationConstraint
    iamContext := ctx
    iamChecks := p.iamChecks.map (fun check => { check with context := ctx })
    authorizationReady := true }

/-- A plan that was not sealed, or a denial by the policy. -/
inductive AuthorizationError where
  | notSealed
  | denied (denial : Iam.Denial)
  deriving DecidableEq

/-- The loop of `AuthorizeS3Plan`. -/
def authorizeAll (m : Iam.Matchers) (policy : Option Iam.Policy) :
    List Iam.Request → Except AuthorizationError Unit
  | [] => .ok ()
  | check :: checks =>
      match Iam.authorize m policy check with
      | .error denial => .error (.denied denial)
      | .ok () => authorizeAll m policy checks

/-- The plan has to be sealed, and every check has to be allowed. -/
def authorizeS3Plan (m : Iam.Matchers) (policy : Option Iam.Policy) (plan : S3OperationPlan) :
    Except AuthorizationError Unit :=
  if !plan.authorizationReady then .error .notSealed
  else authorizeAll m policy plan.iamChecks

/-- The loop allows a plan exactly if the policy allows each of its checks. -/
theorem authorizeAll_ok_iff {m : Iam.Matchers} {policy : Option Iam.Policy}
    {checks : List Iam.Request} :
    authorizeAll m policy checks = .ok () ↔
      ∀ check ∈ checks, Iam.authorize m policy check = .ok () := by
  induction checks with
  | nil => exact ⟨(fun _ check hc => nomatch hc), fun _ => rfl⟩
  | cons check checks ih =>
      rw [authorizeAll, List.forall_mem_cons]
      cases hcheck : Iam.authorize m policy check with
      | error denial => exact ⟨(fun h => nomatch h), fun h => nomatch h.1⟩
      | ok u => exact ⟨fun h => ⟨rfl, ih.mp h⟩, fun h => ih.mpr h.2⟩

/-! ## What an accepted plan says -/

/-- Everything `planS3Operation` checked on its way to a plan. -/
structure Planned (r : Request) (bucket objectKey : Bytes) (plan : S3OperationPlan) : Prop where
  key : objectKey ≠ [] → validateVirtualObjectKey objectKey = .ok ()
  query : parseQuery r.url.rawQuery = (plan.query, true)
  single : plan.query.Single
  operationHeaders : validateOperationHeaders r.header = .ok ()
  kind : selectKind (pathClass bucket objectKey) r.method (isCopyObjectRequest r.header)
    plan.query = some plan.kind
  source : readCopySource r bucket plan.kind = .ok plan.copySource
  headers : validateHeadersForOperation r.header plan.kind = .ok ()
  values : validateQueryForOperation plan.query = .ok ()
  body : validateBodyForOperation r (bodyKindForOperation plan.kind) = .ok ()
  fields : plan = planFor r bucket objectKey plan.query plan.kind plan.copySource

theorem bind_ok {ε α β : Type} {a : Except ε α} {f : α → Except ε β} {b : β}
    (h : a >>= f = .ok b) : ∃ x, a = .ok x ∧ f x = .ok b := by
  cases a with
  | error e => exact nomatch h
  | ok x => exact ⟨x, rfl, h⟩

theorem mapError_ok {ε ε' α : Type} {a : Except ε α} {f : ε → ε'} {x : α}
    (h : a.mapError f = .ok x) : a = .ok x := by
  cases a with
  | error e => exact nomatch h
  | ok y => exact congrArg Except.ok (Except.ok.inj h)

/-- A test of a result. -/
def okAnd {ε α : Type} (e : Except ε α) (test : α → Bool) : Bool :=
  match e with
  | .ok x => test x
  | .error _ => false

/-- A test that ran on a result shows that there is one. -/
theorem exists_of_okAnd {ε α : Type} {e : Except ε α} {test : α → Bool}
    (h : okAnd e test = true) : ∃ x, e = .ok x ∧ test x = true := by
  cases e with
  | error e => exact nomatch h
  | ok x => exact ⟨x, rfl, h⟩

/-- An accepted query can be read, and names no parameter twice. -/
theorem readQuery_ok {r : Request} {query : Values} (h : readQuery r = .ok query) :
    parseQuery r.url.rawQuery = (query, true) ∧ query.Single := by
  rw [readQuery] at h
  split at h
  · exact nomatch h
  · next q hq =>
      split at h
      · exact nomatch h
      · next hfind =>
          cases h
          refine ⟨hq, ?_⟩
          intro k vs hvs
          have hone := List.find?_eq_none.mp hfind ⟨k, vs⟩ (AList.mem_lookup_iff.mp hvs)
          simp only [bne_iff_ne, ne_eq, not_not] at hone
          exact List.length_eq_one_iff.mp hone

/-- **INVERSION** of the planner. -/
theorem plan_spec {r : Request} {bucket objectKey : Bytes} {plan : S3OperationPlan}
    (h : planS3Operation r bucket objectKey = .ok plan) : Planned r bucket objectKey plan := by
  obtain ⟨_, htarget, h⟩ := bind_ok h
  obtain ⟨query, hquery, h⟩ := bind_ok h
  obtain ⟨_, hop, h⟩ := bind_ok h
  obtain ⟨hparse, hsingle⟩ := readQuery_ok hquery
  have hkey : objectKey ≠ [] → validateVirtualObjectKey objectKey = .ok () := by
    intro hne
    rw [checkTarget, if_pos hne] at htarget
    split at htarget
    · assumption
    · exact nomatch htarget
  split at h
  · exact nomatch h
  · next kind hkind =>
      obtain ⟨source, hsource, h⟩ := bind_ok h
      obtain ⟨_, hcheck, h⟩ := bind_ok h
      have hchecked := mapError_ok hcheck
      obtain ⟨hheaders, hrest⟩ := seq_ok_iff.mp hchecked
      obtain ⟨hvalues, hbody⟩ := seq_ok_iff.mp hrest
      cases h
      exact ⟨hkey, hparse, hsingle, mapError_ok hop, hkind, hsource, hheaders, hvalues, hbody, rfl⟩

/-- A request that is planned for one object is planned for every valid key. -/
theorem planS3Operation_key {r : Request} {bucket objectKey key : Bytes} {plan : S3OperationPlan}
    (h : planS3Operation r bucket objectKey = .ok plan) (hobject : objectKey ≠ [])
    (hkey : key ≠ []) (hvalid : validateVirtualObjectKey key = .ok ()) :
    planS3Operation r bucket key =
      .ok (planFor r bucket key plan.query plan.kind plan.copySource) := by
  have htarget : checkTarget r bucket key = .ok () := by
    rw [checkTarget, if_pos hkey, hvalid]
  -- the key enters through its class only, and that is the same
  have hclass : pathClass bucket key = pathClass bucket objectKey := by
    rw [pathClass, pathClass, if_neg (fun h => hkey h.2), if_neg hkey,
      if_neg (fun h => hobject h.2), if_neg hobject]
  obtain ⟨_, -, h⟩ := bind_ok h
  obtain ⟨query, hquery, h⟩ := bind_ok h
  obtain ⟨_, hop, h⟩ := bind_ok h
  rw [planS3Operation, htarget, hquery, hop, hclass]
  split at h
  · exact nomatch h
  · next kind hkind =>
      obtain ⟨source, hsource, h⟩ := bind_ok h
      obtain ⟨_, hcheck, h⟩ := bind_ok h
      cases h
      show (match selectKind (pathClass bucket objectKey) r.method (isCopyObjectRequest r.header)
        query with
        | none => _
        | some kind => _) = _
      rw [hkind]
      show (readCopySource r bucket kind >>= _) = _
      rw [hsource]
      show ((checkPlan r query kind).mapError _ >>= _) = _
      rw [hcheck]
      rfl

section
variable {r : Request} {bucket objectKey : Bytes} {plan : S3OperationPlan}

theorem Planned.bucket_eq (h : Planned r bucket objectKey plan) : plan.bucket = bucket := by
  rw [h.fields]
  rfl

theorem Planned.objectKey_eq (h : Planned r bucket objectKey plan) :
    plan.objectKey = objectKey := by
  rw [h.fields]
  rfl

theorem Planned.method_eq (h : Planned r bucket objectKey plan) : plan.method = r.method := by
  rw [h.fields]
  rfl

theorem Planned.rawQuery_eq (h : Planned r bucket objectKey plan) :
    plan.rawQuery = r.url.rawQuery := by
  rw [h.fields]
  rfl

/-- The headers of a plan are those of the request under canonical names. -/
theorem Planned.forwardHeaders_eq (h : Planned r bucket objectKey plan) :
    plan.forwardHeaders = canonicalHeaderClone r.header := by
  rw [h.fields]
  rfl

theorem Planned.iamChecks_eq (h : Planned r bucket objectKey plan) :
    plan.iamChecks = iamChecksFor plan.kind r.header plan.bucket plan.objectKey plan.copySource := by
  rw [h.bucket_eq, h.objectKey_eq, h.fields]
  rfl

theorem Planned.iamContext_eq (h : Planned r bucket objectKey plan) :
    plan.iamContext = buildS3IAMWireContext plan.kind r.tls plan.query
      (canonicalHeaderClone r.header) := by
  rw [h.fields]
  rfl

/-- The path class of the plan's operation is that of its target. -/
theorem Planned.pathClass_eq (h : Planned r bucket objectKey plan) :
    plan.kind.pathClass = pathClass bucket objectKey :=
  (candidates_spec (selectKind_spec h.kind).1).1

/-- An object operation has a key, and no other operation has one. -/
theorem Planned.key_iff (h : Planned r bucket objectKey plan) :
    plan.kind.pathClass = .object ↔ plan.objectKey ≠ [] := by
  rw [h.pathClass_eq, h.objectKey_eq, pathClass]
  by_cases hk : objectKey = []
  · by_cases hb : bucket = []
    · simp [hk, hb]
    · simp [hk, hb]
  · simp [hk]

/-- The copy source of a plan is the parsed header of a copy. -/
theorem Planned.copySource_spec (h : Planned r bucket objectKey plan) {source : CopySource}
    (hs : plan.copySource = some source) :
    plan.kind = .copyObject ∧
      parseCopySource (singleHeaderValue r.header copySourceHeader) bucket = .ok source := by
  have hread := h.source
  rw [readCopySource, hs] at hread
  split at hread
  · next hkind =>
      split at hread
      · next hparse =>
          cases hread
          exact ⟨hkind, hparse⟩
      · exact nomatch hread
  · exact nomatch hread

/-- The query part of a copy source. -/
def copySourceQuery (raw : Bytes) : Bytes :=
  (cut 63 (trimPrefix (trimSpace raw) (ascii "/"))).2.1

/-- The text of the key of a copy source. -/
def copySourceKeyText (raw : Bytes) : Bytes :=
  (cut 47 (cut 63 (trimPrefix (trimSpace raw) (ascii "/"))).1).2.1

/-- What a copy source that is accepted says. -/
structure CopySource.ReadFrom (source : CopySource) (raw expectedBucket : Bytes) : Prop where
  bucket_eq : source.bucket = expectedBucket
  key_text : pathUnescape (copySourceKeyText raw) = some source.key
  valid : validateVirtualObjectKey source.key = .ok ()
  version : copySourceVersion (copySourceQuery raw) = .ok source.versionID

/-- A copy source that is accepted is read from its text in one way only. -/
theorem parseCopySource_ok {raw expected : Bytes} {source : CopySource}
    (h : parseCopySource raw expected = .ok source) : source.ReadFrom raw expected := by
  simp only [parseCopySource] at h
  split at h
  · exact nomatch h
  split at h
  · exact nomatch h
  split at h
  · exact nomatch h
  split at h
  · exact nomatch h
  split at h
  · exact nomatch h
  split at h
  · exact nomatch h
  · exact nomatch h
  · next hkey =>
      split at h
      · exact nomatch h
      · next hvalid =>
          split at h
          · exact nomatch h
          · next hbucket =>
              split at h
              · exact nomatch h
              · next hversion =>
                  cases h
                  exact ⟨not_not.mp hbucket, hkey, hvalid, hversion⟩

theorem Planned.exists_copySource (h : Planned r bucket objectKey plan)
    (hkind : plan.kind = .copyObject) : ∃ source, plan.copySource = some source := by
  have hread := h.source
  rw [readCopySource, if_pos hkind] at hread
  split at hread
  · exact ⟨_, (Except.ok.inj hread).symm⟩
  · exact nomatch hread

end

end S3
