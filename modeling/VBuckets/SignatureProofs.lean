import VBuckets.PlanProofs
import VBuckets.MappingProofs

/-! # Request signatures

    `http_server/s3_auth.go`: reading an `Authorization` header, the canonical request
    and the check of a signature.  The hash functions are those of `Crypto`. -/

namespace S3

open ByteString Url Http Mapping

/-! ## The `Authorization` header -/

/-- The fields of an `Authorization` header.  The scope is kept as the text it was written as,
    and is checked against its parts again. -/
structure AuthInfo where
  accessKeyID : Bytes
  date : Bytes
  region : Bytes
  service : Bytes
  signedHeaders : List Bytes
  signature : Bytes
  scope : Bytes
  deriving DecidableEq

/-- `strings.Split` at `", "`. -/
def splitCommaSpace : Bytes → List Bytes
  | [] => [[]]
  | [b] => [[b]]
  | a :: b :: s =>
      if a = 44 ∧ b = 32 then [] :: splitCommaSpace s
      else
        match splitCommaSpace (b :: s) with
        | [] => [[a]]
        | w :: ws => (a :: w) :: ws

section
variable (lower : Bytes → Bytes)

/-- The loop of `validateSignedHeaders`, with any lower-casing; `last` is the name
    before.  Each name is in lower case, not empty and above the one before, so none
    occurs twice. -/
def signedHeadersInOrderBy : Option Bytes → List Bytes → Except Reason Unit
  | _, [] => .ok ()
  | last, header :: headers =>
      if header = [] ∨ header ≠ lower header then
        .error { format := "SignedHeaders must contain lowercase header names" }
      else if (match last with | some last => bytesLE header last | none => false) then
        .error { format := "SignedHeaders must be sorted and unique" }
      else signedHeadersInOrderBy (some header) headers

/-- The checks of the signed names, in the order of the source: none at all, the loop, and
    the two names every request has to sign. -/
def validateSignedHeadersBy (headers : List Bytes) : Except Reason Unit := do
  refuseIf (headers = []) { format := "SignedHeaders must not be empty" }
  signedHeadersInOrderBy lower none headers
  refuseIf (!headers.contains (ascii "host")) { format := "SignedHeaders must include host" }
  refuseIf (!headers.contains (ascii "x-amz-date"))
    { format := "SignedHeaders must include x-amz-date" }

end

/-- The names are compared with what `strings.ToLower` makes of them. -/
def validateSignedHeaders : List Bytes → Except Reason Unit := validateSignedHeadersBy toLower

/-- One `key=value` part, which must have the key its place asks for. -/
def authorizationField (expected part : Bytes) : Except Reason Bytes :=
  match cut 61 part with
  | (_, _, false) => .error { format := "malformed authorization part: %s", args := [part] }
  | (key, value, true) =>
      if key ≠ expected then
        .error
          { format := "authorization fields must be %s in canonical order"
            args := [ascii "Credential, SignedHeaders, Signature"] }
      else .ok value

/-- The fields of its credential. -/
structure Credential where
  accessKeyID : Bytes
  date : Bytes
  region : Bytes
  service : Bytes
  scope : Bytes

/-- `strings.SplitN(v, "/", 5)` and the checks of its parts: a sixth part would be inside
    the fifth, which then is not the one asked for. -/
def parseCredential (value : Bytes) : Except Reason Credential :=
  match split 47 value with
  | [accessKeyID, date, region, service, terminator] =>
      if accessKeyID = [] ∨ date = [] ∨ region = [] ∨ service ≠ ascii "s3" ∨
          terminator ≠ ascii "aws4_request" then
        .error { format := "malformed credential: %s", args := [value] }
      else if Time.parseDate date = none then
        .error { format := "malformed credential date: %s", args := [date] }
      else if !validAccessKeyID accessKeyID then
        .error
          { format := "access key ID must contain 1 to 128 letters, digits, dots, " ++
              "underscores, or hyphens" }
      else
        .ok
          { accessKeyID := accessKeyID
            date := date
            region := region
            service := service
            scope := join 47 [date, region, service, terminator] }
  | _ => .error { format := "malformed credential: %s", args := [value] }

/-- Signatures are written in lower case. -/
def isLowerHex (c : UInt8) : Bool := isDigitASCII c || (97 ≤ c && c ≤ 102)

/-- The parser of the `Authorization` header, with any lower-casing: the algorithm, then
    three parts in their order, each checked before the next is looked at. -/
def parseAuthorizationHeaderBy (lower : Bytes → Bytes) (header : Bytes) : Except Reason AuthInfo :=
  let algorithm := ascii "AWS4-HMAC-SHA256 "
  if !hasPrefix header algorithm then .error { format := "unsupported authorization algorithm" }
  else
    match splitCommaSpace (trimPrefix header algorithm) with
    | [first, second, third] => do
        let value ← authorizationField (ascii "Credential") first
        let credential ← parseCredential value
        let value ← authorizationField (ascii "SignedHeaders") second
        validateSignedHeadersBy lower (split 59 value)
        let signature ← authorizationField (ascii "Signature") third
        refuseIf (signature.length != 64 || !signature.all isLowerHex)
          { format := "signature must be 64 lowercase hexadecimal characters" }
        .ok
          { accessKeyID := credential.accessKeyID
            date := credential.date
            region := credential.region
            service := credential.service
            signedHeaders := split 59 value
            signature := signature
            scope := credential.scope }
    | parts =>
        .error
          { format := "malformed authorization header: expected 3 parts, got %d"
            args := [Time.formatInt parts.length] }

/-- `parseAuthorizationHeader`. -/
def parseAuthorizationHeader : Bytes → Except Reason AuthInfo := parseAuthorizationHeaderBy toLower

/-! ## The canonical request -/

/-- `strings.ReplaceAll(value, "  ", " ")`: one pass from the left over pairs of blanks
    that do not overlap. -/
def halveSpaces : Bytes → Bytes
  | 32 :: 32 :: s => 32 :: halveSpaces s
  | b :: s => b :: halveSpaces s
  | [] => []

/-- The loop of `canonicalHeaderValue`.  Each round shortens the value, so its length
    bounds the rounds. -/
def collapseSpaces : Nat → Bytes → Bytes
  | 0, value => value
  | rounds + 1, value =>
      if contains value (ascii "  ") then collapseSpaces rounds (halveSpaces value) else value

/-- A header value as it is signed, trimmed and with single blanks.  The loop of the source
    ends since each round shortens the text; its length is fuel enough. -/
def canonicalHeaderValue (value : Bytes) : Bytes :=
  let value := trimSpace value
  collapseSpaces value.length value

/-- Everything but the unreserved characters is escaped. -/
def awsURIEncode (s : Bytes) : Bytes :=
  s.flatMap (fun c =>
    if isAlnum c || c == 45 || c == 95 || c == 46 || c == 126 then [c] else escapeByte c)

/-- The query as it is signed: every pair encoded anew, sorted by key and then by
    value. -/
def canonicalQueryString (query : Values) : Bytes :=
  join 38 ((query.keys.mergeSort bytesLE).flatMap (fun key =>
    (((query.lookup key).getD []).mergeSort bytesLE).map (fun value =>
      awsURIEncode key ++ 61 :: awsURIEncode value)))

/-- The values of one signed header.  The host is not among the headers of a Go
    request, and neither is the length of a body. -/
def signedValues (r : Request) (name : Bytes) : List Bytes :=
  if name = ascii "host" then [if r.host = [] then r.url.host else r.host]
  else if name = ascii "content-length" ∧ r.header.values name = [] ∧ 0 < r.contentLength then
    [Time.formatInt r.contentLength]
  else r.header.values name

/-- The line of one signed header. -/
def canonicalHeaderLine (r : Request) (name : Bytes) : Bytes :=
  name ++ 58 :: join 44 ((signedValues r name).map canonicalHeaderValue) ++ [10]

/-- The canonical request.  The payload is represented by the header that names its
    hash, which is not compared with the body. -/
def buildCanonicalRequest (r : Request) (signedHeaders : List Bytes) : Bytes :=
  let path := if r.url.escapedPath = [] then ascii "/" else r.url.escapedPath
  r.method ++ [10] ++ path ++ [10] ++ canonicalQueryString (parseQuery r.url.rawQuery).1 ++ [10] ++
    signedHeaders.flatMap (canonicalHeaderLine r) ++ [10] ++ join 59 signedHeaders ++ [10] ++
    (r.header.values (ascii "x-amz-content-sha256")).headD []

/-! ## The signature -/

/-- A digit of a hash. -/
def lowerHex (n : UInt8) : UInt8 := if n < 10 then 48 + n else 87 + n

/-- `fmt.Sprintf("%x", s)`. -/
def hexEncode (s : Bytes) : Bytes :=
  s.flatMap (fun c : UInt8 => [lowerHex (c >>> 4), lowerHex (c &&& 15)])

/-- The text whose code is the signature.  It holds the canonical request as its hash only. -/
def buildStringToSign (cr : Crypto) (datetime scope canonicalRequest : Bytes) : Bytes :=
  ascii "AWS4-HMAC-SHA256" ++ [10] ++ datetime ++ [10] ++ scope ++ [10] ++
    hexEncode (cr.sha256 canonicalRequest)

/-- The key of a day, a region and a service, derived from the secret. -/
def computeSigningKey (cr : Crypto) (secret date region service : Bytes) : Bytes :=
  let dateKey := cr.hmacSHA256 (ascii "AWS4" ++ secret) date
  let dateRegionKey := cr.hmacSHA256 dateKey region
  let dateRegionServiceKey := cr.hmacSHA256 dateRegionKey service
  cr.hmacSHA256 dateRegionServiceKey (ascii "aws4_request")

/-- The code of the string to sign, in hexadecimal. -/
def signatureForCanonicalRequest (cr : Crypto)
    (datetime scope canonicalRequest signingKey : Bytes) : Bytes :=
  hexEncode (cr.hmacSHA256 signingKey (buildStringToSign cr datetime scope canonicalRequest))

/-- The errors the middleware tells apart. -/
inductive SignatureCause where
  | requestTimeTooSkewed | unsupportedPayloadHash | unsignedAmzHeader | unsupportedAuthMode
  deriving DecidableEq

/-- An error of the verifier.  Some have a cause by which they are answered
    differently. -/
structure SignatureError where
  cause : Option SignatureCause := none
  reason : Reason
  deriving DecidableEq

/-- A header whose value is used must not be ambiguous. -/
def requireSingletonHeader (r : Request) (name : Bytes) : Except SignatureError Unit :=
  if (r.header.values name).length ≠ 1 then
    .error { reason := { format := "%s header must occur exactly once", args := [name] } }
  else .ok ()

/-- Every `x-amz-` header has to be signed, the hash of the payload apart: it is part
    of the canonical request anyway. -/
def requireSignedAmzHeaders (r : Request) (signedHeaders : List Bytes) :
    Except SignatureError Unit :=
  match (r.header.keys.map toLower).find? (fun lower =>
      hasPrefix lower (ascii "x-amz-") && lower != ascii "x-amz-content-sha256" &&
        !(signedHeaders.map toLower).contains lower) with
  | some lower =>
      .error
        { cause := some .unsignedAmzHeader
          reason := { format := "unsigned x-amz header: %s", args := [lower] } }
  | none => .ok ()

/-- The first value of a header, or nothing. -/
def headerGet (r : Request) (name : Bytes) : Bytes := (r.header.values name).headD []

/-- Whether a difference of times is more than the skew allowed.  Both `Sub` and the
    negation are those of the source, with their saturation and overflow. -/
def tooSkewed (now requestTime : Time.Instant) (maxSkew : Int) : Bool :=
  let skew := Time.sub now requestTime
  let skew := if skew < 0 then Time.neg skew else skew
  0 < maxSkew && maxSkew < skew

/-- The times of a request: the date of the scope and the server's clock. -/
def checkTimes (r : Request) (authInfo : AuthInfo) (now : Time.Instant) (maxSkew : Int) :
    Except SignatureError Unit :=
  let datetime := headerGet r (ascii "X-Amz-Date")
  if datetime = [] then .error { reason := { format := "missing X-Amz-Date header" } }
  else
    match Time.parseAmzDate datetime with
    | none =>
        .error { reason := { format := "invalid X-Amz-Date header: %w", args := [datetime] } }
    | some requestTime =>
        if authInfo.date ≠ Time.formatDate requestTime then
          .error { reason := { format := "credential scope date does not match X-Amz-Date" } }
        else if authInfo.scope ≠
            authInfo.date ++ ascii "/" ++ authInfo.region ++ ascii "/s3/aws4_request" then
          .error { reason := { format := "credential scope is inconsistent" } }
        else if tooSkewed now requestTime maxSkew then
          .error
            { cause := some .requestTimeTooSkewed
              reason := { format := "request time too skewed" } }
        else .ok ()

/-- What the headers of a signed request must be like, before any code is computed:
    session tokens, trailers and signed payloads are refused. -/
def checkSignedRequest (r : Request) (authInfo : AuthInfo) : Except SignatureError Unit := do
  (validateSignedHeaders authInfo.signedHeaders).mapError (fun e => { reason := e })
  if authInfo.service ≠ ascii "s3" then
    .error { reason := { format := "credential scope service must be s3" } }
  else if r.header.values (ascii "x-amz-security-token") ≠ [] then
    .error
      { cause := some .unsupportedAuthMode
        reason :=
          { format := "unsupported authentication mode: session tokens are not supported" } }
  else if r.header.values (ascii "x-amz-trailer") ≠ [] ∨ r.trailer.keys ≠ [] then
    .error
      { cause := some .unsupportedAuthMode
        reason :=
          { format := "unsupported authentication mode: signed trailers are not supported" } }
  else do
    requireSingletonHeader r (ascii "x-amz-content-sha256")
    requireSingletonHeader r (ascii "x-amz-date")
    if headerGet r (ascii "x-amz-content-sha256") = [] then
      .error { reason := { format := "missing x-amz-content-sha256 header" } }
    else if headerGet r (ascii "x-amz-content-sha256") ≠ ascii "UNSIGNED-PAYLOAD" then
      .error
        { cause := some .unsupportedPayloadHash
          reason :=
            { format := "unsupported payload hash: " ++
                "x-amz-content-sha256 must be UNSIGNED-PAYLOAD" } }
    else requireSignedAmzHeaders r authInfo.signedHeaders

/-- The headers, then the times, then the signature itself.  The comparison in constant time
    is equality here. -/
def verifySignatureAtTime (cr : Crypto) (r : Request) (authInfo : AuthInfo) (secretKey : Bytes)
    (now : Time.Instant) (maxSkew : Int) : Except SignatureError Unit := do
  checkSignedRequest r authInfo
  checkTimes r authInfo now maxSkew
  let canonicalRequest := buildCanonicalRequest r authInfo.signedHeaders
  let signingKey := computeSigningKey cr secretKey authInfo.date authInfo.region authInfo.service
  if signatureForCanonicalRequest cr (headerGet r (ascii "X-Amz-Date")) authInfo.scope
      canonicalRequest signingKey ≠ authInfo.signature then
    .error { reason := { format := "signature mismatch" } }
  else .ok ()

/-! ## Names without slashes -/

theorem slash_notMem_of_validAccessKeyID {key : Bytes} (h : validAccessKeyID key = true) :
    47 ∉ key := by
  intro hslash
  rw [validAccessKeyID, Bool.and_eq_true] at h
  have hbyte := List.all_eq_true.mp h.2 47 hslash
  revert hbyte
  decide

theorem slash_notMem_of_isValidBucketName {bucket : Bytes}
    (h : isValidBucketName bucket = true) : 47 ∉ bucket := by
  intro hslash
  simp only [isValidBucketName, Bool.and_eq_true] at h
  have hbyte := List.all_eq_true.mp h.1.1.1.1.1.2 47 hslash
  revert hbyte
  decide

end S3
