import VBuckets.ConfinementProofs

/-! # Upstream responses

    `writeVirtualizedUpstreamResponse` (`http_server/s3_response.go`): what a client sees of
    an upstream response.  A handler changes the header of its response until the head is
    written, and then only adds to the body, so the order of the steps decides what a failure
    leaves visible.

    Safe headers are staged: they are all computed before one of them is set. -/

namespace S3

open ByteString Url Http Mapping Xml

/-! ## The response of a handler -/

/-- A part of a body: bytes of the origin, tokens an encoder wrote, or an error document. -/
inductive Piece where
  | upstream (data : Bytes)
  | tokens (out : List Token)
  | errorDocument (code : Bytes) (message : String)
  deriving DecidableEq

/-- The header as the handler leaves it, the informational heads and the head once they are
    written, and the body. -/
structure ResponseWriter where
  header : Header := ∅
  informational : List (Nat × Header) := []
  sent : Option (Nat × Header) := none
  body : List Piece := []

/-- How a handler ends: it returns, with an error or without one, or it panics.  An error
    that wraps `http.ErrAbortHandler` has its caller abort the connection. -/
inductive Ending where
  | returned
  | failed (reason : Reason)
  | aborted (reason : Reason)
  | panicked

namespace ResponseWriter
variable (w : ResponseWriter)

/-- `WriteHeader` with a status it accepts.  An informational status is not the last one;
    after the last one a call changes nothing. -/
def writeHeader (status : Nat) : ResponseWriter :=
  match w.sent with
  | none =>
      if 100 ≤ status ∧ status ≤ 199 ∧ status ≠ 101 then
        { w with informational := w.informational ++ [(status, w.header)] }
      else { w with sent := some (status, w.header) }
  | some _ => w

/-- `WriteHeader` with the status of an origin, and what follows; it panics on a number that
    is not a status. -/
def head (status : Nat) (next : ResponseWriter → ResponseWriter × Ending) :
    ResponseWriter × Ending :=
  if status < 100 ∨ 999 < status then (w, .panicked) else next (w.writeHeader status)

/-- `Write`, which writes the head first if the handler did not. -/
def write (piece : Piece) : ResponseWriter :=
  { w.writeHeader 200 with body := w.body ++ [piece] }

/-- `Header().Set`. -/
def set (name value : Bytes) : ResponseWriter := { w with header := w.header.setOne name value }

/-- `Header().Del`. -/
def del (name : Bytes) : ResponseWriter := { w with header := w.header.del name }

end ResponseWriter

/-- An error document with its status.  Headers that were set before stay set. -/
def writeS3Error (w : ResponseWriter) (status : Nat) (code message : String) : ResponseWriter :=
  ((w.set (ascii "Content-Type") (ascii "application/xml")).writeHeader status).write
    (.errorDocument (ascii code) message)

/-! ## Safe headers -/

/-- The headers whose values clients have chosen when they stored an object. -/
def userControlledResponseHeader (name : Bytes) : Bool :=
  hasPrefix (toLower name) (ascii "x-amz-meta-") ||
  hasPrefix (toLower name) (ascii "x-amz-checksum-") ||
  [ascii "Cache-Control", ascii "Content-Disposition", ascii "Content-Encoding",
    ascii "Content-Language", ascii "Content-Type", ascii "Etag", ascii "Expires",
    ascii "Last-Modified"].contains name

/-- The headers of an answer that are shown at all. -/
def safeS3ResponseHeader (name : Bytes) : Bool :=
  hasPrefix (toLower name) (ascii "x-amz-meta-") ||
  hasPrefix (toLower name) (ascii "x-amz-checksum-") ||
  [ascii "Accept-Ranges", ascii "Cache-Control", ascii "Content-Disposition",
    ascii "Content-Encoding", ascii "Content-Language", ascii "Content-Length",
    ascii "Content-Range", ascii "Content-Type", ascii "Etag", ascii "Expires",
    ascii "Last-Modified", ascii "Retry-After", ascii "X-Amz-Delete-Marker",
    ascii "X-Amz-Expiration", ascii "X-Amz-Missing-Meta", ascii "X-Amz-Object-Lock-Legal-Hold",
    ascii "X-Amz-Object-Lock-Mode", ascii "X-Amz-Object-Lock-Retain-Until-Date",
    ascii "X-Amz-Replication-Status", ascii "X-Amz-Restore",
    ascii "X-Amz-Server-Side-Encryption",
    ascii "X-Amz-Server-Side-Encryption-Customer-Algorithm",
    ascii "X-Amz-Server-Side-Encryption-Customer-Key-Md5", ascii "X-Amz-Storage-Class",
    ascii "X-Amz-Tagging-Count", ascii "X-Amz-Version-Id",
    ascii "X-Amz-Copy-Source-Version-Id"].contains name

/-- The headers whose values are routed as tokens. -/
def versionHeaders : List Bytes :=
  [ascii "X-Amz-Version-Id", ascii "X-Amz-Copy-Source-Version-Id"]

/-- A success. -/
def isSuccess (status : Nat) : Bool := 200 ≤ status && status < 300

section
variable (c : ResponseContext) (status : Nat)

/-- One value as the client sees it: versions become tokens of this mapping. -/
def virtualHeaderValue (name value : Bytes) : Except Reason Bytes :=
  if versionHeaders.contains name then
    (encodeOpaqueToken c.crypto c.cfg .version value).mapError (fun e => { format := e })
  else .ok value

/-- Whether a value is dropped because it holds a name of the backend; what users store with
    an object may. -/
def dropsHeaderValue (name value : Bytes) : Bool :=
  !(isSuccess status && operationReadsObject c.plan.kind && userControlledResponseHeader name) &&
    containsSensitiveBackendValue c value

/-- The loop over the values of one header.  A value that gives the backend away is
    dropped, the others are kept in order. -/
def stageValues (name : Bytes) : List Bytes → Except Reason (List Bytes)
  | [] => .ok []
  | value :: values => do
      let value ← virtualHeaderValue c name value
      let staged ← stageValues name values
      .ok (if dropsHeaderValue c status name value then staged else value :: staged)

/-- The loop over the headers, in the order the map is traversed.  Headers are staged
    apart, so that an error leaves none of them behind. -/
def stageHeaders (src : Header) :
    List (Sigma (fun _ : Bytes => List Bytes)) → Header → Except Reason Header
  | [], staged => .ok staged
  | e :: es, staged =>
      let canonical := canonicalHeaderKey e.1
      if (hopByHopHeaderSet src).contains canonical || !safeS3ResponseHeader canonical then
        stageHeaders src es staged
      else do
        let values ← stageValues c status canonical e.2
        stageHeaders src es (values.foldl (fun staged value => staged.add canonical value) staged)

/-- The destination afterwards, and the error. -/
def copySafeResponseHeaders (src dst : Header) : Header × Except Reason Unit :=
  match stageHeaders c status src src.entries ∅ with
  | .error e => (dst, .error e)
  | .ok staged =>
      (staged.entries.foldl (fun dst e => e.2.foldl (fun dst value => dst.add e.1 value) dst) dst,
        .ok ())

end

/-- The headers of a body that is not passed on. -/
def discardedBodyHeader (lower : Bytes) : Bool :=
  [ascii "content-length", ascii "content-md5", ascii "content-encoding", ascii "content-range",
    ascii "digest"].contains lower

/-- Delete the headers a test picks by their lower-case names. -/
def dropHeaders (test : Bytes → Bool) (headers : Header) : Header :=
  headers.entries.foldl (fun h e => if test (toLower e.1) then h.del e.1 else h) headers

/-- Headers that describe a body which is not passed on as it is. -/
def dropDiscardedBodyHeaders (headers : Header) : Header := dropHeaders discardedBodyHeader headers

/-- For a rewritten listing the digests go too, since they are of the origin's document. -/
def dropTransformedRepresentationHeaders (headers : Header) (profile : ResponseProfile) : Header :=
  let headers := dropDiscardedBodyHeaders headers
  if profile ≠ .listObjects ∧ profile ≠ .listMultipartUploads ∧ profile ≠ .listParts then headers
  else
    dropHeaders (fun lower =>
      lower == ascii "etag" || hasPrefix lower (ascii "x-amz-checksum-")) headers

/-! ## Error documents -/

/-- Redirects lead to the backend and are not passed on. -/
def isS3RedirectStatus (status : Nat) : Bool := [301, 302, 303, 307, 308].contains status

/-- Reading the XML of an upstream body is a library call: the tokens of a decoder and how it
    ends, and the root and the code of an error document. -/
structure ResponseXml where
  tokens : Body → List Token × Option Reason
  errorDocument : Bytes → Option (Name × Bytes)

/-- A document, read up to the bound and refused beyond it. -/
def readBoundedControlXML (body : Body) : Except Reason Bytes :=
  match body.readLimited maxS3ControlResponseBytes with
  | none => .error { format := "%w" }
  | some data =>
      if maxS3ControlResponseBytes < data.length then
        .error { format := "upstream control response exceeds %d bytes"
                 args := [Time.formatInt maxS3ControlResponseBytes] }
      else .ok data

/-- `^[A-Za-z][A-Za-z0-9]{0,127}$`. -/
def structurallySafeUpstreamErrorCode (code : Bytes) : Bool :=
  let letter := fun c => isUpperASCII c || isLowerASCII c
  match code with
  | [] => false
  | c :: rest => letter c && rest.length ≤ 127 && rest.all (fun c => letter c || isDigitASCII c)

/-- The code of an upstream error, if its document is one and the code is harmless to
    show. -/
def validateUpstreamErrorDocument (xml : ResponseXml) (body : Body) : Option Bytes :=
  match readBoundedControlXML body with
  | .error _ => none
  | .ok data =>
      match xml.errorDocument data with
      | none => none
      | some (root, code) =>
          if root.localName ≠ ascii "Error" then none
          else if root.space ≠ [] ∧ root.space ≠ s3XMLNamespace then none
          else if structurallySafeUpstreamErrorCode (trimSpace code) then some (trimSpace code)
          else none

/-- The codes a client may see under a status, whatever the operation. -/
def allowedByStatus : Nat → List String
  | 400 => ["EntityTooSmall", "InvalidArgument", "InvalidPart", "InvalidPartOrder",
      "InvalidRequest", "MalformedXML"]
  | 403 => ["AccessDenied", "InvalidObjectState"]
  | 409 => ["BucketNotEmpty", "OperationAborted"]
  | 412 => ["PreconditionFailed"]
  | 416 => ["InvalidRange"]
  | 429 => ["SlowDown"]
  | 500 => ["InternalError"]
  | 503 => ["SlowDown", "ServiceUnavailable"]
  | _ => []

/-- The operations on one multipart upload. -/
def OperationKind.namesUpload : OperationKind → Bool
  | .uploadPart | .listParts | .completeMultipartUpload | .abortMultipartUpload => true
  | _ => false

/-- The codes for something missing that fit the operation: nobody is told of an
    upload or a version that was not asked for. -/
def compatibleNotFoundCode (kind : OperationKind) (code : Bytes) : Bool :=
  if code = ascii "NoSuchBucket" then true
  else if code = ascii "NoSuchUpload" then kind.namesUpload
  else if code = ascii "NoSuchVersion" then
    match kind with
    | .getObjectVersion | .headObjectVersion | .deleteObjectVersion | .copyObject => true
    | _ => false
  else if code = ascii "NoSuchKey" then
    match kind with
    | .getObject | .getObjectVersion | .headObject | .headObjectVersion | .putObject
    | .copyObject | .deleteObject | .deleteObjectVersion | .createMultipartUpload
    | .uploadPart | .listParts | .completeMultipartUpload | .abortMultipartUpload => true
    | _ => false
  else false

/-- The code a status is shown with when the upstream's own is not. -/
def safeErrorCodeForStatus (kind : OperationKind) : Nat → String
  | 400 => "InvalidRequest"
  | 403 => "AccessDenied"
  | 404 =>
      match kind with
      | .headBucket | .listObjects | .listObjectsV2 | .listMultipartUploads => "NoSuchBucket"
      | _ => if kind.namesUpload then "NoSuchUpload" else "NoSuchKey"
  | 409 => "OperationAborted"
  | 412 => "PreconditionFailed"
  | 416 => "InvalidRange"
  | 429 | 503 => "SlowDown"
  | _ => "InternalError"

/-- The upstream's code if it fits the status and the operation, otherwise one that
    does. -/
def safeUpstreamErrorCode (kind : OperationKind) (status : Nat) (upstream : Bytes) : Bytes :=
  if status = 404 ∧ compatibleNotFoundCode kind upstream then upstream
  else if ((allowedByStatus status).map ascii).contains upstream then upstream
  else ascii (safeErrorCodeForStatus kind status)

/-! ## The handler -/

/-- What is read of an answer. -/
structure UpstreamResponse where
  status : Nat
  header : Header
  body : Body

/-- `io.LimitReader`: no more than the limit and one byte. -/
def Body.limited (body : Body) (limit : Nat) : Body :=
  if limit < body.data.length then { data := body.data.take (limit + 1) } else body

/-- The first start element decides; what was read of the body is read again later. -/
def checkRoot (expected : Bytes) (atEnd : Reason) : List Token → Except Reason Unit
  | [] => .error atEnd
  | .startElement name _ :: _ => do
      refuseIf (name.localName != expected)
        { format := "unexpected response root %q", args := [name.localName] }
      refuseIf (name.space != [] && name.space != s3XMLNamespace)
        { format := "foreign XML namespace %q is not supported", args := [name.space] }
  | _ :: ts => checkRoot expected atEnd ts

/-- The root of a document that is streamed is looked at before anything is sent, while an
    error can still be answered as one. -/
def preflightStreamingXMLRoot (xml : ResponseXml) (body : Body) (expected : Bytes) :
    Except Reason Unit :=
  let (tokens, failure) := xml.tokens (body.limited maxS3ControlResponseBytes)
  checkRoot expected (failure.getD { format := "EOF" }) tokens

/-- The answer when the upstream's cannot be shown. -/
def badGateway (w : ResponseWriter) (message : String) (e : Reason) : ResponseWriter × Ending :=
  (writeS3Error w 502 "InternalError" message, .failed e)

/-- The same for answers that break the contract. -/
def invalidUpstream (w : ResponseWriter) (e : Reason) : ResponseWriter × Ending :=
  badGateway w "Invalid upstream S3 response" e

section
variable (xml : ResponseXml) (c : ResponseContext) (resp : UpstreamResponse)

/-- The safe headers, and what follows. -/
def withSafeHeaders (w : ResponseWriter) (next : ResponseWriter → ResponseWriter × Ending) :
    ResponseWriter × Ending :=
  match copySafeResponseHeaders c resp.status resp.header w.header with
  | (header, .error e) => invalidUpstream { w with header := header } e
  | (header, .ok ()) => next { w with header := header }

/-- The head of a document that replaces the body of the origin. -/
def documentHead (profile : ResponseProfile) (w : ResponseWriter)
    (next : ResponseWriter → ResponseWriter × Ending) : ResponseWriter × Ending :=
  let w := { w with header := dropTransformedRepresentationHeaders w.header profile }
  ((w.del (ascii "Content-Length")).set (ascii "Content-Type") (ascii "application/xml")).head
    resp.status next

/-- `io.Copy` of the body.  A failure comes after the head, so all that is left is to
    abort the connection. -/
def streamObject (w : ResponseWriter) : ResponseWriter × Ending :=
  let w := if resp.body.data = [] then w else w.write (.upstream resp.body.data)
  (w, if resp.body.fails then .aborted { format := "%w: %w" } else .returned)

/-- `rewriteStreamingNamespaceResponse`; of what was encoded when it fails, the last part may
    not have left the buffer. -/
def streamDocument (w : ResponseWriter) : ResponseWriter × Ending :=
  let (tokens, failure) := xml.tokens resp.body
  let c := { c with virtualLocation := [] }
  let w := w.write (.tokens (rewritten c tokens failure))
  match rewriteNamespaceXML c tokens failure with
  | .ok _ => (w, .returned)
  | .error _ => (w, .aborted { format := "%w: %w" })

/-- A document that is rewritten as a whole before anything of it is sent. -/
def rewriteBoundedNamespaceResponse (data : Bytes) : Except Reason (List Token) :=
  let (tokens, failure) := xml.tokens { data := data }
  (rewriteNamespaceXML { c with virtualLocation := virtualResponseLocation c.plan } tokens
    failure).mapError RewriteFailure.reason

/-- The responses to operations that succeeded, by profile: objects and listings are
    streamed, control documents are read and rewritten first. -/
def writeSuccess (w : ResponseWriter) : ResponseWriter × Ending :=
  match c.plan.responseProfile with
  | .streamObject =>
      withSafeHeaders c resp w (fun w => w.head resp.status (fun w => streamObject resp w))
  | .safeHeaders =>
      withSafeHeaders c resp w (fun w =>
        let w := { w with header := dropDiscardedBodyHeaders w.header }
        (w.del (ascii "Content-Length")).head resp.status (fun w => (w, .returned)))
  | .listObjects | .listMultipartUploads =>
      match preflightStreamingXMLRoot xml resp.body
          (expectedResponseRoot c.plan.responseProfile) with
      | .error e => invalidUpstream w e
      | .ok () =>
          withSafeHeaders c resp w (fun w =>
            documentHead resp c.plan.responseProfile w (fun w => streamDocument xml c resp w))
  | .createMultipart | .listParts | .completeMultipart | .copyObject =>
      match readBoundedControlXML resp.body >>= rewriteBoundedNamespaceResponse xml c with
      | .error e => invalidUpstream (w.del (ascii "Content-Length")) e
      | .ok transformed =>
          withSafeHeaders c resp w (fun w =>
            documentHead resp c.plan.responseProfile w (fun w =>
              (w.write (.tokens transformed), .returned)))
  | profile =>
      (w, .failed { format := "unsupported response profile %q", args := [ascii profile.text] })

/-- Redirects, bodies that are not sent, errors and successes, in the order of the source.
    The location of its context is set by profile. -/
def writeVirtualizedUpstreamResponse (method : Bytes) (w : ResponseWriter) :
    ResponseWriter × Ending :=
  if isS3RedirectStatus resp.status then
    badGateway w "Upstream S3 redirect cannot be safely followed"
      { format := "upstream returned unsafe redirect status %d"
        args := [Time.formatInt resp.status] }
  else if method = methodHead then
    withSafeHeaders c resp w (fun w => w.head resp.status (fun w => (w, .returned)))
  else if resp.status = 304 then
    withSafeHeaders c resp w (fun w =>
      (w.del (ascii "Content-Length")).head resp.status (fun w => (w, .returned)))
  else if !isSuccess resp.status then
    match validateUpstreamErrorDocument xml resp.body with
    | none => invalidUpstream w { format := "invalid upstream error response" }
    | some upstreamCode =>
        withSafeHeaders c resp w (fun w =>
          documentHead resp .listObjects w (fun w =>
            (w.write (.errorDocument (safeUpstreamErrorCode c.plan.kind resp.status upstreamCode)
              "Upstream S3 request failed"), .returned)))
  else writeSuccess xml c resp w

end

/-! ## What a failure leaves visible -/

/-- A failure leaves the headers that were there. -/
theorem copySafeResponseHeaders_error {c : ResponseContext} {status : Nat} {src dst : Header}
    {e : Reason} (h : (copySafeResponseHeaders c status src dst).2 = .error e) :
    (copySafeResponseHeaders c status src dst).1 = dst := by
  unfold copySafeResponseHeaders at h ⊢
  cases hstaged : stageHeaders c status src src.entries ∅ with
  | error e' => rfl
  | ok staged =>
      rw [hstaged] at h
      exact nomatch h

/-- The whole response is an error document under 502. -/
structure SeesBadGateway (w : ResponseWriter) : Prop where
  head : w.sent =
    some (502, (∅ : Header).setOne (ascii "Content-Type") (ascii "application/xml"))
  informational : w.informational = []
  body : ∃ message, w.body = [.errorDocument (ascii "InternalError") message]

/-- How a handler fails after its head: only for a success of a streamed profile. -/
structure Streamed (method : Bytes) (c : ResponseContext) (resp : UpstreamResponse)
    (w : ResponseWriter) : Prop where
  success : isSuccess resp.status = true
  method : method ≠ methodHead
  profile : c.plan.responseProfile = .streamObject ∨ c.plan.responseProfile = .listObjects ∨
    c.plan.responseProfile = .listMultipartUploads
  head : ∃ header, w.sent = some (resp.status, header)

section
variable {method : Bytes} {c : ResponseContext} {resp : UpstreamResponse}

/-- A failure is seen as a bad gateway, unless the head of a streamed body was written
    before. -/
def Sound (method : Bytes) (c : ResponseContext) (resp : UpstreamResponse)
    (out : ResponseWriter × Ending) : Prop :=
  match out.2 with
  | .failed _ => SeesBadGateway out.1
  | .aborted _ => Streamed method c resp out.1
  | .returned | .panicked => True

/-- A bad gateway shows nothing of the upstream. -/
theorem badGateway_sound (message : String) (e : Reason) :
    Sound method c resp (badGateway {} message e) := ⟨rfl, rfl, message, rfl⟩

theorem invalidUpstream_sound (e : Reason) : Sound method c resp (invalidUpstream {} e) :=
  badGateway_sound _ e

/-- What follows the headers is sound if it is for any headers that are copied; if
    they cannot be, the answer is a bad gateway. -/
theorem withSafeHeaders_sound {next : ResponseWriter → ResponseWriter × Ending}
    (hnext : ∀ header, Sound method c resp (next { header := header })) :
    Sound method c resp (withSafeHeaders c resp {} next) := by
  unfold withSafeHeaders
  rcases hcopy : copySafeResponseHeaders c resp.status resp.header ∅ with ⟨header, e | u⟩
  · -- a failed copy hands back the header it was given
    have hfailed : (copySafeResponseHeaders c resp.status resp.header ∅).2 = .error e := by
      rw [hcopy]
    have hsame := copySafeResponseHeaders_error hfailed
    rw [hcopy] at hsame
    obtain rfl : header = ∅ := hsame
    exact invalidUpstream_sound e
  · exact hnext header

/-- A status that cannot be sent panics, which shows nothing; any other is followed by
    the rest of the answer. -/
theorem head_sound {w : ResponseWriter} {next : ResponseWriter → ResponseWriter × Ending}
    (hnext : Sound method c resp (next (w.writeHeader resp.status))) :
    Sound method c resp (w.head resp.status next) := by
  unfold ResponseWriter.head
  by_cases hrange : resp.status < 100 ∨ 999 < resp.status
  · rw [if_pos hrange]
    trivial
  · rw [if_neg hrange]
    exact hnext

/-- A success is not informational. -/
theorem writeHeader_success {w : ResponseWriter} {status : Nat} (hw : w.sent = none)
    (h : isSuccess status = true) : (w.writeHeader status).sent = some (status, w.header) := by
  have hrange : 200 ≤ status ∧ status < 300 := by simpa [isSuccess] using h
  unfold ResponseWriter.writeHeader
  rw [hw]
  simp only
  rw [if_neg (by omega)]

theorem write_sent {w : ResponseWriter} {sent : Nat × Header} (hw : w.sent = some sent)
    (piece : Piece) : (w.write piece).sent = some sent := by
  simp only [ResponseWriter.write, ResponseWriter.writeHeader, hw]

theorem streamObject_sent {w : ResponseWriter} {sent : Nat × Header} (hw : w.sent = some sent) :
    (streamObject resp w).1.sent = some sent := by
  unfold streamObject
  by_cases hdata : resp.body.data = []
  · simp only [if_pos hdata, hw]
  · simp only [if_neg hdata, write_sent hw]

/-- If streaming an object breaks off, what was sent before is a streamed beginning of
    it. -/
theorem streamObject_sound {w : ResponseWriter} (hw : Streamed method c resp w) :
    Sound method c resp (streamObject resp w) := by
  obtain ⟨header, hsent⟩ := hw.head
  have hout : Streamed method c resp (streamObject resp w).1 :=
    ⟨hw.success, hw.method, hw.profile, header, streamObject_sent hsent⟩
  unfold Sound
  cases hfails : resp.body.fails with
  | true => simpa only [streamObject, hfails, if_true] using hout
  | false => simp only [streamObject, hfails, Bool.false_eq_true, if_false]

theorem streamDocument_sound {xml : ResponseXml} {w : ResponseWriter}
    (hw : Streamed method c resp w) : Sound method c resp (streamDocument xml c resp w) := by
  obtain ⟨header, hsent⟩ := hw.head
  unfold streamDocument
  rcases xml.tokens resp.body with ⟨tokens, failure⟩
  simp only
  cases rewriteNamespaceXML { c with virtualLocation := [] } tokens failure with
  | ok out => trivial
  | error e => exact ⟨hw.success, hw.method, hw.profile, header, write_sent hsent _⟩

/-- Every success of a forwarded operation has a profile of the switch. -/
theorem forwarded_profile (hforwarded : c.plan.kind.forwarded = true)
    (hprofile : c.plan.responseProfile = c.plan.kind.responseProfile) :
    c.plan.responseProfile ≠ .listBuckets ∧ c.plan.responseProfile ≠ .createBucket := by
  rw [hprofile]
  cases hkind : c.plan.kind <;> rw [hkind] at hforwarded <;>
    simp_all [OperationKind.responseProfile, OperationKind.forwarded]

/-- Every branch for a success is sound. -/
theorem writeSuccess_sound {xml : ResponseXml} (hmethod : method ≠ methodHead)
    (hsuccess : isSuccess resp.status = true)
    (hswitch : c.plan.responseProfile ≠ .listBuckets ∧ c.plan.responseProfile ≠ .createBucket) :
    Sound method c resp (writeSuccess xml c resp {}) := by
  -- the only branch that forwards the body as it comes
  have hstream : ∀ w : ResponseWriter, w.sent = none →
      (c.plan.responseProfile = .streamObject ∨ c.plan.responseProfile = .listObjects ∨
        c.plan.responseProfile = .listMultipartUploads) →
      Streamed method c resp (w.writeHeader resp.status) := by
    intro w hw hprofile
    exact ⟨hsuccess, hmethod, hprofile, w.header, writeHeader_success hw hsuccess⟩
  unfold writeSuccess
  cases hprofile : c.plan.responseProfile with
  | listBuckets => exact absurd hprofile hswitch.1
  | createBucket => exact absurd hprofile hswitch.2
  | streamObject =>
      exact withSafeHeaders_sound (fun header =>
        head_sound (streamObject_sound (hstream _ rfl (.inl hprofile))))
  | safeHeaders => exact withSafeHeaders_sound (fun header => head_sound trivial)
  | listObjects | listMultipartUploads =>
      simp only
      split
      · exact invalidUpstream_sound _
      · exact withSafeHeaders_sound (fun header =>
          head_sound (streamDocument_sound (hstream _ rfl (by simp [hprofile]))))
  | createMultipart | listParts | completeMultipart | copyObject =>
      simp only
      split
      · exact badGateway_sound _ _
      · exact withSafeHeaders_sound (fun header => head_sound trivial)

/-- **HANDLER**: so is every branch of the handler, whatever the upstream answers. -/
theorem handler_sound {xml : ResponseXml} (hforwarded : c.plan.kind.forwarded = true)
    (hprofile : c.plan.responseProfile = c.plan.kind.responseProfile) :
    Sound method c resp (writeVirtualizedUpstreamResponse xml c resp method {}) := by
  unfold writeVirtualizedUpstreamResponse
  by_cases hredirect : isS3RedirectStatus resp.status = true
  · rw [if_pos hredirect]
    exact badGateway_sound _ _
  rw [if_neg hredirect]
  by_cases hhead : method = methodHead
  · rw [if_pos hhead]
    exact withSafeHeaders_sound (fun header => head_sound trivial)
  rw [if_neg hhead]
  by_cases hnotModified : resp.status = 304
  · rw [if_pos hnotModified]
    exact withSafeHeaders_sound (fun header => head_sound trivial)
  rw [if_neg hnotModified]
  cases hsuccess : isSuccess resp.status with
  | false =>
      simp only [Bool.not_false, if_true]
      split
      · exact invalidUpstream_sound _
      · exact withSafeHeaders_sound (fun header => head_sound trivial)
  | true => exact writeSuccess_sound hhead hsuccess (forwarded_profile hforwarded hprofile)

/-- The error of a handler that returned. -/
def Ending.error : Ending → Option Reason
  | .failed e | .aborted e => some e
  | .returned | .panicked => none

end

/-- **FAILURES BEFORE THE HEAD EXPOSE NOTHING.**  Unless the head of a streamed body was
    written, a handler that returns an error leaves a bad gateway and nothing of the origin;
    a failed copy of headers leaves its destination alone, in whichever order it meets them. -/
theorem failures_expose_nothing (xml : ResponseXml) (c : ResponseContext)
    (resp : UpstreamResponse) (method : Bytes) (hforwarded : c.plan.kind.forwarded = true)
    (hprofile : c.plan.responseProfile = c.plan.kind.responseProfile) :
    (∀ w ending e, writeVirtualizedUpstreamResponse xml c resp method {} = (w, ending) →
      ending.error = some e → Streamed method c resp w ∨ SeesBadGateway w) ∧
    ∀ status src dst e, (copySafeResponseHeaders c status src dst).2 = .error e →
      (copySafeResponseHeaders c status src dst).1 = dst := by
  refine ⟨?_, fun status src dst e h => copySafeResponseHeaders_error h⟩
  intro w ending e hrun herror
  have hsound : Sound method c resp (writeVirtualizedUpstreamResponse xml c resp method {}) :=
    handler_sound hforwarded hprofile
  rw [hrun] at hsound
  cases ending with
  | failed reason => exact .inr hsound
  | aborted reason => exact .inl hsound
  | returned | panicked => exact nomatch herror

/-- A request for the object `k`. -/
def objectRequest (method : Bytes) : Request :=
  { listRequest with
    method := method
    url := { path := ascii "/vbk/k", rawQuery := [] }
    tokens := isToken_of_mem_empty }

/-- A decoder that reads no documents. -/
def noXml : ResponseXml where
  tokens := fun _ => ([], none)
  errorDocument := fun _ => none

/-- An object with an empty version. -/
def unversionedObject : UpstreamResponse where
  status := 200
  header := ((∅ : Header).setOne (ascii "Etag") (ascii "\"upstream\"")).setOne
    (ascii "X-Amz-Version-Id") []
  body := { data := ascii "upstream body" }

/-- An empty version is refused, and neither the validator nor the object is seen. -/
theorem failures_expose_nothing_of_version :
    ∃ plan, planS3Operation (objectRequest methodGet) (ascii "vbk") (ascii "k") = .ok plan ∧
      plan.kind.forwarded = true ∧ plan.responseProfile = plan.kind.responseProfile ∧
      ∃ w ending e, writeVirtualizedUpstreamResponse noXml (storeContext plan) unversionedObject
          methodGet {} = (w, ending) ∧ ending.error = some e ∧
        (Streamed methodGet (storeContext plan) unversionedObject w ∨ SeesBadGateway w) := by
  have hcheck : okAnd (planS3Operation (objectRequest methodGet) (ascii "vbk") (ascii "k"))
      (fun plan => plan.kind.forwarded && plan.responseProfile = plan.kind.responseProfile &&
        (writeVirtualizedUpstreamResponse noXml (storeContext plan) unversionedObject
          methodGet {}).2.error.isSome) = true := by
    decide +kernel
  obtain ⟨plan, hplan, htest⟩ := exists_of_okAnd hcheck
  simp only [Bool.and_eq_true, decide_eq_true_eq] at htest
  obtain ⟨⟨hforwarded, hprofile⟩, herror⟩ := htest
  obtain ⟨e, herror⟩ := Option.isSome_iff_exists.mp herror
  exact ⟨plan, hplan, hforwarded, hprofile, _, _, e, rfl, herror,
    (failures_expose_nothing noXml _ unversionedObject methodGet hforwarded hprofile).1 _ _ e rfl
      herror⟩

end S3
