import VBuckets.XmlProofs
import VBuckets.SignatureProofs
import VBuckets.OutboundProofs

/-! # Rules of response documents

    `http_server/s3_response.go`: which paths each response document may have, and how
    the text under a path becomes the one a client sees.  `knownResponsePaths` and
    `responseFieldRules` are tables; the rest of the rewriter is driven by them. -/

namespace S3

open ByteString Url Http Mapping Xml

/-! ## Schemas -/

/-- The namespace of S3.  Elements are in it or in none; any other makes the document
    invalid. -/
def s3XMLNamespace : Bytes := ascii "http://s3.amazonaws.com/doc/2006-03-01/"

/-- One mebibyte: control documents and single fields larger than this are refused. -/
def maxS3ControlResponseBytes : Nat := 2 ^ 20

/-- The texts of the profiles. -/
def ResponseProfile.text : ResponseProfile → String
  | .listBuckets => "R1"
  | .createBucket => "R2"
  | .safeHeaders => "R3"
  | .streamObject => "R4"
  | .listObjects => "R5"
  | .listMultipartUploads => "R6"
  | .createMultipart => "R7"
  | .listParts => "R8"
  | .completeMultipart => "R9"
  | .copyObject => "R10"

/-- The root element of the documents of each schema.  A schema without documents has
    none. -/
def expectedResponseRoot : ResponseProfile → Bytes
  | .listObjects => ascii "ListBucketResult"
  | .listMultipartUploads => ascii "ListMultipartUploadsResult"
  | .createMultipart => ascii "InitiateMultipartUploadResult"
  | .listParts => ascii "ListPartsResult"
  | .completeMultipart => ascii "CompleteMultipartUploadResult"
  | .copyObject => ascii "CopyObjectResult"
  | _ => []

/-- The paths of a schema, written below its root. -/
def responsePathSet (root : String) (paths : List String) : List Bytes :=
  paths.map (fun path => ascii (root ++ "/" ++ path))

/-- The plain paths of a schema: elements that are passed on with their text.  Those
    with a rule of their own are in `responseFieldRules`. -/
def knownResponsePaths : ResponseProfile → List Bytes
  | .listObjects =>
      responsePathSet "ListBucketResult"
        ["KeyCount", "Contents", "Contents/LastModified", "Contents/ETag",
          "Contents/ChecksumAlgorithm", "Contents/ChecksumType", "Contents/Size",
          "Contents/StorageClass", "CommonPrefixes"]
  | .listMultipartUploads =>
      responsePathSet "ListMultipartUploadsResult"
        ["Upload", "Upload/StorageClass", "Upload/Initiated", "Upload/ChecksumAlgorithm",
          "Upload/ChecksumType", "CommonPrefixes"]
  | .createMultipart =>
      responsePathSet "InitiateMultipartUploadResult" ["ChecksumAlgorithm", "ChecksumType"]
  | .listParts =>
      responsePathSet "ListPartsResult"
        ["StorageClass", "ChecksumAlgorithm", "ChecksumType", "Part", "Part/PartNumber",
          "Part/LastModified", "Part/ETag", "Part/Size", "Part/ChecksumCRC32",
          "Part/ChecksumCRC32C", "Part/ChecksumCRC64NVME", "Part/ChecksumSHA1",
          "Part/ChecksumSHA256"]
  | .completeMultipart =>
      responsePathSet "CompleteMultipartUploadResult"
        ["ChecksumCRC32", "ChecksumCRC32C", "ChecksumCRC64NVME", "ChecksumSHA1",
          "ChecksumSHA256", "ChecksumType"]
  | .copyObject =>
      responsePathSet "CopyObjectResult"
        ["ChecksumCRC32", "ChecksumCRC32C", "ChecksumCRC64NVME", "ChecksumSHA1",
          "ChecksumSHA256"]
  | _ => []

/-- `responseTextTransform`, under the names of its constants. -/
inductive TextTransform where
  | none | virtualBucket | virtualKey | virtualLocation | newContinuationToken
  | echoContinuationToken | newUploadToken | echoUploadToken | virtualKeyEcho
  | plainQueryEcho | numericQueryEcho | nonNegativeInteger | boolean | requiredNonempty
  deriving DecidableEq

/-- What is done to the text of an element, whether the element has to be there, and
    whether it is an owner or initiator, whose contents are replaced. -/
structure ResponseFieldRule where
  transform : TextTransform := .none
  required : Bool := false
  identityContainer : Bool := false
  deriving DecidableEq

/-- The rules of each schema: which elements name a bucket, a key or a token, which
    repeat a parameter of the request, and which must be there.  An element with
    neither a rule nor a plain path is dropped. -/
def responseFieldRules : ResponseProfile → List (Bytes × ResponseFieldRule)
  | .listObjects =>
      [(ascii "ListBucketResult/Name", { transform := .virtualBucket }),
        (ascii "ListBucketResult/Prefix", { transform := .virtualKeyEcho }),
        (ascii "ListBucketResult/StartAfter", { transform := .virtualKeyEcho }),
        (ascii "ListBucketResult/Marker", { transform := .virtualKeyEcho }),
        (ascii "ListBucketResult/NextMarker", { transform := .virtualKey }),
        (ascii "ListBucketResult/CommonPrefixes/Prefix", { transform := .virtualKey }),
        (ascii "ListBucketResult/Contents/Key", { transform := .virtualKey }),
        (ascii "ListBucketResult/Delimiter", { transform := .plainQueryEcho }),
        (ascii "ListBucketResult/EncodingType", { transform := .plainQueryEcho }),
        (ascii "ListBucketResult/MaxKeys", { transform := .numericQueryEcho }),
        (ascii "ListBucketResult/IsTruncated", { transform := .boolean }),
        (ascii "ListBucketResult/ContinuationToken", { transform := .echoContinuationToken }),
        (ascii "ListBucketResult/NextContinuationToken", { transform := .newContinuationToken }),
        (ascii "ListBucketResult/Contents/Owner", { identityContainer := true })]
  | .listMultipartUploads =>
      [(ascii "ListMultipartUploadsResult/Bucket", { transform := .virtualBucket }),
        (ascii "ListMultipartUploadsResult/Prefix", { transform := .virtualKeyEcho }),
        (ascii "ListMultipartUploadsResult/KeyMarker", { transform := .virtualKeyEcho }),
        (ascii "ListMultipartUploadsResult/NextKeyMarker", { transform := .virtualKey }),
        (ascii "ListMultipartUploadsResult/CommonPrefixes/Prefix", { transform := .virtualKey }),
        (ascii "ListMultipartUploadsResult/Upload/Key", { transform := .virtualKey }),
        (ascii "ListMultipartUploadsResult/Delimiter", { transform := .plainQueryEcho }),
        (ascii "ListMultipartUploadsResult/EncodingType", { transform := .plainQueryEcho }),
        (ascii "ListMultipartUploadsResult/MaxUploads", { transform := .numericQueryEcho }),
        (ascii "ListMultipartUploadsResult/IsTruncated", { transform := .boolean }),
        (ascii "ListMultipartUploadsResult/UploadIdMarker", { transform := .echoUploadToken }),
        (ascii "ListMultipartUploadsResult/NextUploadIdMarker", { transform := .newUploadToken }),
        (ascii "ListMultipartUploadsResult/Upload/UploadId", { transform := .newUploadToken }),
        (ascii "ListMultipartUploadsResult/Upload/Owner", { identityContainer := true }),
        (ascii "ListMultipartUploadsResult/Upload/Initiator", { identityContainer := true })]
  | .createMultipart =>
      [(ascii "InitiateMultipartUploadResult/Bucket",
          { transform := .virtualBucket, required := true }),
        (ascii "InitiateMultipartUploadResult/Key",
          { transform := .virtualKey, required := true }),
        (ascii "InitiateMultipartUploadResult/UploadId",
          { transform := .newUploadToken, required := true })]
  | .listParts =>
      [(ascii "ListPartsResult/Bucket", { transform := .virtualBucket, required := true }),
        (ascii "ListPartsResult/Key", { transform := .virtualKey, required := true }),
        (ascii "ListPartsResult/UploadId", { transform := .echoUploadToken, required := true }),
        (ascii "ListPartsResult/PartNumberMarker",
          { transform := .numericQueryEcho, required := true }),
        (ascii "ListPartsResult/NextPartNumberMarker", { transform := .nonNegativeInteger }),
        (ascii "ListPartsResult/MaxParts", { transform := .numericQueryEcho, required := true }),
        (ascii "ListPartsResult/IsTruncated", { transform := .boolean, required := true }),
        (ascii "ListPartsResult/Owner", { identityContainer := true }),
        (ascii "ListPartsResult/Initiator", { identityContainer := true })]
  | .completeMultipart =>
      [(ascii "CompleteMultipartUploadResult/Location",
          { transform := .virtualLocation, required := true }),
        (ascii "CompleteMultipartUploadResult/Bucket",
          { transform := .virtualBucket, required := true }),
        (ascii "CompleteMultipartUploadResult/Key",
          { transform := .virtualKey, required := true }),
        (ascii "CompleteMultipartUploadResult/ETag",
          { transform := .requiredNonempty, required := true })]
  | .copyObject =>
      [(ascii "CopyObjectResult/ETag", { transform := .requiredNonempty, required := true }),
        (ascii "CopyObjectResult/LastModified",
          { transform := .requiredNonempty, required := true })]
  | _ => []

/-- The rule of an element, if it has one. -/
def responseFieldRuleForPath (profile : ResponseProfile) (path : Bytes) :
    Option ResponseFieldRule :=
  (responseFieldRules profile).lookup path

/-- The elements of a schema.  Another element is skipped with everything inside it,
    or refused where a text is expected. -/
def knownResponsePath (profile : ResponseProfile) (path : Bytes) : Bool :=
  path == expectedResponseRoot profile || (knownResponsePaths profile).contains path ||
    (responseFieldRuleForPath profile path).isSome

/-- Elements with elements inside, between which only white space may stand. -/
def responsePathIsContainer (profile : ResponseProfile) (path : Bytes) : Bool :=
  (knownResponsePaths profile).any (fun candidate => hasPrefix candidate (path ++ ascii "/")) ||
  (responseFieldRules profile).any (fun e =>
    (e.1 == path && e.2.identityContainer) || hasPrefix e.1 (path ++ ascii "/"))

/-! ## Attributes -/

/-- What `rewriteNamespaceXML` is called with: the plan of the request, the mapping,
    and the location a completed upload is shown under. -/
structure ResponseContext where
  crypto : Crypto
  hosts : HostParser
  plan : S3OperationPlan
  cfg : VBucketConfig
  pathPrefix : Bytes
  virtualLocation : Bytes

section
variable (c : ResponseContext)

/-- `containsSensitiveBackendValue`; it dereferences the URL of the endpoint, which a
    normalised mapping has. -/
def containsSensitiveBackendValue (value : Bytes) : Bool :=
  let endpoint := (parseEndpoint c.hosts c.cfg.realEndpoint).getD {}
  [c.cfg.realEndpoint, endpoint.host, endpoint.hostname].any (fun sensitive =>
    sensitive ≠ [] && contains (toLower value) (toLower sensitive)) ||
  [c.cfg.realBucket, c.cfg.realAccessKey, c.cfg.realSecretKey, c.cfg.realRegion,
    c.cfg.pathPrefix, normalizedPrefix c.cfg].any (fun sensitive =>
      sensitive ≠ [] && contains value sensitive)

/-- Of all attributes only the declaration of S3's namespace is kept, known by its
    local name and value, and only if it does not contain something of the backend. -/
def filterSafeXMLAttributes (attributes : List Attr) : List Attr :=
  attributes.filter (fun attr => !containsSensitiveBackendValue c attr.value &&
    attr.name.localName == ascii "xmlns" && attr.value == s3XMLNamespace)

/-! ## Transforms -/

/-- Whether keys are listed in their URL encoding. -/
def urlEncoded : Bool := c.plan.query.get (ascii "encoding-type") == ascii "url"

/-- A listed key as it was before its encoding. -/
def decodeListed (text : Bytes) : Option Bytes :=
  if urlEncoded c then pathUnescape text else some text

/-- The parameter a listing echoes under a path. -/
def keyEchoParameter (path : Bytes) : Option Bytes :=
  if path = ascii "ListBucketResult/Prefix" ∨ path = ascii "ListMultipartUploadsResult/Prefix" then
    some (ascii "prefix")
  else if path = ascii "ListBucketResult/Marker" then some (ascii "marker")
  else if path = ascii "ListBucketResult/StartAfter" then some (ascii "start-after")
  else if path = ascii "ListMultipartUploadsResult/KeyMarker" then some (ascii "key-marker")
  else none

/-- A listing repeats the prefix and the markers it was asked for.  They are compared
    in their backend form, after the encoding of the listing is undone. -/
def validateVirtualKeyEcho (path text : Bytes) : Except Reason Unit :=
  match keyEchoParameter path with
  | none => .error { format := "no query echo contract for %s", args := [path] }
  | some queryKey =>
      match decodeListed c text with
      | none => .error { format := "decode upstream query echo %s: %w", args := [path] }
      | some decoded =>
          let expected := c.plan.query.get queryKey
          let expected :=
            if queryKey = ascii "prefix" ∨ expected ≠ [] then c.pathPrefix ++ expected
            else expected
          refuseIf (decoded != expected)
            { format := "upstream %s echo does not match request", args := [queryKey] }

/-- The parameters a listing repeats as they are. -/
def plainEchoParameter (path : Bytes) : Option Bytes :=
  if path = ascii "ListBucketResult/Delimiter" ∨
      path = ascii "ListMultipartUploadsResult/Delimiter" then some (ascii "delimiter")
  else if path = ascii "ListBucketResult/EncodingType" ∨
      path = ascii "ListMultipartUploadsResult/EncodingType" then some (ascii "encoding-type")
  else none

/-- The echo has to be what the client asked for.  Only a delimiter is encoded the way keys
    are. -/
def validatePlainQueryEcho (path text : Bytes) : Except Reason Unit :=
  match plainEchoParameter path with
  | none => .error { format := "no plain query echo contract for %s", args := [path] }
  | some queryKey =>
      match (if queryKey = ascii "delimiter" then decodeListed c text else some text) with
      | none => .error { format := "decode upstream delimiter echo: %w" }
      | some decoded =>
          refuseIf (decoded != c.plan.query.get queryKey)
            { format := "upstream %s echo does not match request", args := [queryKey] }

/-- The parameter of a numeric echo and the value S3 takes where the request has none. -/
def numericEchoParameter (path : Bytes) : Option (Bytes × Int) :=
  if path = ascii "ListBucketResult/MaxKeys" then some (ascii "max-keys", 1000)
  else if path = ascii "ListMultipartUploadsResult/MaxUploads" then
    some (ascii "max-uploads", 1000)
  else if path = ascii "ListPartsResult/PartNumberMarker" then
    some (ascii "part-number-marker", 0)
  else if path = ascii "ListPartsResult/MaxParts" then some (ascii "max-parts", 1000)
  else none

/-- Numbers are compared as numbers.  Without the parameter in the request, the
    element has to show the protocol's default, where it has one. -/
def validateNumericQueryEcho (path text : Bytes) : Except Reason Unit :=
  match numericEchoParameter path with
  | none => .error { format := "no numeric query echo contract for %s", args := [path] }
  | some (queryKey, defaultValue) =>
      match atoi (trimSpace text) with
      | none => .error { format := "upstream %s echo is invalid", args := [queryKey] }
      | some actual =>
          if actual < 0 then
            .error { format := "upstream %s echo is invalid", args := [queryKey] }
          else
            match c.plan.query.lookup queryKey with
            | some requested =>
                refuseIf (atoi (requested.headD []) != some actual)
                  { format := "upstream %s echo does not match request", args := [queryKey] }
            | none =>
                refuseIf (0 ≤ defaultValue && actual != defaultValue)
                  { format := "upstream %s default does not match protocol", args := [queryKey] }

/-- The key of a listing without the prefix, in the encoding the listing is in.  An encoded
    text that does not decode is stripped as a text. -/
def stripListPathPrefix (text pathPrefix : Bytes) (urlEncoded : Bool) : Bytes :=
  if !urlEncoded then trimPrefix text pathPrefix
  else
    match pathUnescape text with
    | none => trimPrefix text (awsURIEncode pathPrefix)
    | some decoded => awsURIEncode (trimPrefix decoded pathPrefix)

/-- The paths of the keys of listed objects and uploads. -/
def actualObjectKey (path : Bytes) : Bool :=
  path == ascii "ListBucketResult/Contents/Key" ||
    path == ascii "ListMultipartUploadsResult/Upload/Key"

/-- The elements whose text a client may send back as a key. -/
def addressableKeyValue (path : Bytes) : Bool :=
  actualObjectKey path || path == ascii "ListBucketResult/NextMarker" ||
    path == ascii "ListBucketResult/CommonPrefixes/Prefix" ||
    path == ascii "ListMultipartUploadsResult/NextKeyMarker" ||
    path == ascii "ListMultipartUploadsResult/CommonPrefixes/Prefix"

/-- The checks of a virtual key that a client may address.  They are those of a
    request's own key, also where the text is only the beginning of one. -/
def validateAddressableKey (path virtualKey : Bytes) : Except Reason Unit :=
  if addressableKeyValue path then
    if actualObjectKey path ∧ virtualKey = [] then
      .error { format := "upstream result key %s becomes an empty virtual key", args := [path] }
    else if virtualKey ≠ [] then
      (validateVirtualObjectKey virtualKey).mapError (fun e =>
        e.within "upstream result key %s is not a valid virtual key: " [path])
    else .ok ()
  else .ok ()

/-- The key of an element, as the client knows it.  A listing may hold an empty one;
    any other has to be under the prefix, and what is left of it a key. -/
def virtualizeResponseKey (path text : Bytes) : Except Reason Bytes :=
  match decodeListed c text with
  | none => .error { format := "decode upstream key field %s: %w", args := [path] }
  | some decoded =>
      let finish : Except Reason Bytes := do
        validateAddressableKey path (trimPrefix decoded c.pathPrefix)
        .ok (stripListPathPrefix text c.pathPrefix (urlEncoded c))
      match c.plan.responseProfile with
      | .listObjects | .listMultipartUploads =>
          if decoded = [] then .ok []
          else if !hasPrefix decoded c.pathPrefix then
            .error
              { format := "upstream key field %s is outside the configured prefix"
                args := [path] }
          else finish
      | .createMultipart | .listParts | .completeMultipart =>
          if decoded ≠ c.pathPrefix ++ c.plan.objectKey then
            .error
              { format := "upstream key field %s does not match requested key", args := [path] }
          else finish
      | _ => finish

/-- A token of the origin under a new virtual name; `emptyPath` may have none. -/
def newToken (kind : TokenKind) (emptyPath path text : Bytes) : Except Reason Bytes :=
  if text = [] ∧ path = emptyPath then .ok []
  else (encodeOpaqueToken c.crypto c.cfg kind text).mapError (fun e => { format := e })

/-- The echo of the token a request carried; `noun` names it in errors. -/
def echoToken (kind : TokenKind) (noun : String) (virtual emptyPath path text : Bytes) :
    Except Reason Bytes :=
  if virtual = [] then
    if text = [] ∧ path = emptyPath then .ok []
    else .error { format := "upstream echoed " ++ noun ++ " token that was not requested" }
  else if decodeOpaqueToken c.crypto c.cfg kind virtual = .ok text then .ok virtual
  else .error { format := "upstream " ++ kind.text ++ " token echo does not match request" }

/-- The upload a request names. -/
def requestedUpload : Bytes :=
  if c.plan.query.get (ascii "upload-id-marker") = [] then c.plan.query.get (ascii "uploadId")
  else c.plan.query.get (ascii "upload-id-marker")

/-- The transform of a rule, applied to the text of an element. -/
def applyResponseTextTransform (transform : TextTransform) (path text : Bytes) :
    Except Reason Bytes :=
  match transform with
  | .virtualBucket =>
      if trimSpace text ≠ c.cfg.realBucket then
        .error
          { format := "upstream bucket %q does not match configured bucket"
            args := [trimSpace text] }
      else .ok c.plan.bucket
  | .virtualKey => virtualizeResponseKey c path text
  | .virtualLocation =>
      if trimSpace text = [] then .error { format := "upstream Location is required" }
      else .ok c.virtualLocation
  | .newContinuationToken =>
      newToken c .continuation (ascii "ListBucketResult/NextContinuationToken") path text
  | .echoContinuationToken =>
      echoToken c .continuation "a continuation" (c.plan.query.get (ascii "continuation-token"))
        (ascii "ListBucketResult/ContinuationToken") path text
  | .newUploadToken =>
      newToken c .upload (ascii "ListMultipartUploadsResult/NextUploadIdMarker") path text
  | .echoUploadToken =>
      echoToken c .upload "an upload" (requestedUpload c)
        (ascii "ListMultipartUploadsResult/UploadIdMarker") path text
  | .virtualKeyEcho => do
      validateVirtualKeyEcho c path text
      virtualizeResponseKey c path text
  | .plainQueryEcho => do
      validatePlainQueryEcho c path text
      .ok text
  | .numericQueryEcho => do
      validateNumericQueryEcho c path text
      .ok text
  | .nonNegativeInteger =>
      match atoi (trimSpace text) with
      | none => .error { format := "upstream numeric field %s is invalid", args := [path] }
      | some value =>
          if value < 0 then
            .error { format := "upstream numeric field %s is invalid", args := [path] }
          else .ok text
  | .boolean =>
      let value := trimSpace text
      if value ≠ ascii "true" ∧ value ≠ ascii "false" then
        .error { format := "upstream boolean field %s is invalid", args := [path] }
      else .ok value
  | .requiredNonempty =>
      if trimSpace text = [] then
        .error { format := "upstream field %s is required", args := [path] }
      else .ok text
  | .none => .ok text

end

/-- `virtualResponseLocation`. -/
def virtualResponseLocation (plan : S3OperationPlan) : Bytes :=
  let path := ascii "/" ++ awsURIEncode plan.objectKey
  if plan.isVHost then path else ascii "/" ++ plan.bucket ++ path

end S3
