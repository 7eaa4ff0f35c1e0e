import VBuckets.HeaderProofs
import VBuckets.GrammarProofs

/-! # Header rules

    Which headers each operation accepts (`validateOperationHeaders`,
    `validateHeadersForOperation`) and which ones are forwarded
    (`copyOutboundRequestHeaders`).  The two filters read the `Connection` header
    separately; `nominated_not_safe` is what makes them agree. -/

namespace S3

open ByteString Url Http

/-! ## Reading headers -/

/-- The header that makes an upload a copy. -/
def copySourceHeader : Bytes := ascii "x-amz-copy-source"

/-- The values of a name in any spelling. -/
def allHeaderValues (headers : Header) (name : Bytes) : List Bytes :=
  headers.entries.flatMap (fun e => if equalFold e.1 name then e.2 else [])

/-- The first value under a name, empty if there is none. -/
def firstHeaderValue (headers : Header) (name : Bytes) : Bytes :=
  ((allHeaderValues headers name).head?).getD []

/-- A header is there if it has a value, which may be empty. -/
def hasHeader (headers : Header) (key : Bytes) : Bool := allHeaderValues headers key ≠ []

/-- A copy is known by its header alone, before its value is looked at. -/
def isCopyObjectRequest (headers : Header) : Bool := hasHeader headers copySourceHeader

/-- The only value under the canonical name, empty if there are none or several. -/
def singleHeaderValue (headers : Header) (name : Bytes) : Bytes :=
  match headers.values name with
  | [value] => value
  | _ => []

/-- The headers under their canonical names.  Values of names that differ in letter
    case only are joined; Go's server delivers no such names. -/
def canonicalHeaderClone (headers : Header) : Header :=
  headers.entries.foldl (fun clone e =>
    clone.insert (canonicalHeaderKey e.1) (clone.at_ (canonicalHeaderKey e.1) ++ e.2)) ∅

/-! ## Known headers -/

/-- `checksumValueAlgorithms`. -/
def checksumValueAlgorithms : List (Bytes × Bytes) :=
  [(ascii "x-amz-checksum-crc32", ascii "CRC32"),
    (ascii "x-amz-checksum-crc32c", ascii "CRC32C"),
    (ascii "x-amz-checksum-crc64nvme", ascii "CRC64NVME"),
    (ascii "x-amz-checksum-sha1", ascii "SHA1"),
    (ascii "x-amz-checksum-sha256", ascii "SHA256")]

/-- The algorithms there are, as they are spelled in a request. -/
def validChecksumAlgorithm (value : Bytes) : Bool :=
  checksumValueAlgorithms.any (fun e => e.2 == value)

/-- The headers that hold a checksum, one for each algorithm. -/
def knownChecksumValueHeader (name : Bytes) : Bool :=
  checksumValueAlgorithms.any (fun e => e.1 == name)

/-- These, and the three that say something about checksums. -/
def knownChecksumHeader (name : Bytes) : Bool :=
  knownChecksumValueHeader name || name == ascii "x-amz-sdk-checksum-algorithm" ||
    name == ascii "x-amz-checksum-algorithm" || name == ascii "x-amz-checksum-type"

/-- The header that asks for encryption with a key of the backend. -/
def sseHeader : Bytes := ascii "x-amz-server-side-encryption"

/-- The three headers of a customer-provided key. -/
def sseCustomerHeaders : List Bytes :=
  [ascii "x-amz-server-side-encryption-customer-algorithm",
    ascii "x-amz-server-side-encryption-customer-key",
    ascii "x-amz-server-side-encryption-customer-key-md5"]

/-- It, and the three that bring a key of the client. -/
def knownSSEHeader (name : Bytes) : Bool := name == sseHeader || sseCustomerHeaders.contains name

/-- The headers that grant access to others one by one. -/
def knownGrantHeader (name : Bytes) : Bool :=
  [ascii "x-amz-grant-full-control", ascii "x-amz-grant-read", ascii "x-amz-grant-read-acp",
    ascii "x-amz-grant-write", ascii "x-amz-grant-write-acp"].contains name

/-- The named access lists of S3. -/
def validCannedACL (value : Bytes) : Bool :=
  [ascii "private", ascii "public-read", ascii "public-read-write", ascii "authenticated-read",
    ascii "aws-exec-read", ascii "bucket-owner-read", ascii "bucket-owner-full-control",
    ascii "log-delivery-write"].contains value

/-! ## Rules of every operation -/

/-- The headers that may occur once only: fixed names, and those present of a family. -/
def singletons (headers : Header) : List Bytes :=
  [copySourceHeader, ascii "x-amz-acl", ascii "x-amz-tagging", ascii "x-amz-storage-class",
    sseHeader, ascii "x-amz-metadata-directive", ascii "x-amz-tagging-directive",
    ascii "x-amz-sdk-checksum-algorithm", ascii "x-amz-checksum-algorithm",
    ascii "x-amz-checksum-type"] ++ sseCustomerHeaders ++
  (headers.keys.map toLower).filter (fun lower => knownGrantHeader lower ||
    hasPrefix lower (ascii "x-amz-meta-") || knownChecksumValueHeader lower)

/-- Headers of features that are refused altogether. -/
def unsupportedHeader (lower : Bytes) : Bool :=
  hasPrefix lower (ascii "x-amz-object-lock-") ||
    hasPrefix lower (ascii "x-amz-server-side-encryption-aws-kms-") ||
    lower == ascii "x-amz-server-side-encryption-context" ||
    lower == ascii "x-amz-server-side-encryption-bucket-key-enabled"

/-- A named access list and single grants exclude one another. -/
def validateACLHeaderCombination (headers : Header) : Except Reason Unit :=
  if firstHeaderValue headers (ascii "x-amz-acl") = [] then .ok ()
  else
    checkEach (fun name => refuseIf (hasPrefix (toLower name) (ascii "x-amz-grant-"))
      { format := "x-amz-acl cannot be combined with x-amz-grant-* headers" }) headers.keys

/-- A key of the client comes with its algorithm and its digest, and not together with
    a key of the backend. -/
def validateSSECustomerHeaders (headers : Header) : Except Reason Unit :=
  let present := sseCustomerHeaders.filter (fun name => firstHeaderValue headers name ≠ [])
  if present = [] then .ok ()
  else do
    refuseIf (present.length != sseCustomerHeaders.length)
      { format := "SSE-C requires algorithm, key, and key MD5 headers" }
    refuseIf (firstHeaderValue headers
        (ascii "x-amz-server-side-encryption-customer-algorithm") != ascii "AES256")
      { format := "SSE-C algorithm must be AES256" }
    refuseIf (firstHeaderValue headers sseHeader != [])
      { format := "SSE-S3 and SSE-C headers cannot be combined" }

/-- The algorithm both algorithm headers agree on, or the empty string. -/
def checksumAlgorithm (headers : Header) : Except Reason Bytes := do
  let sdk := firstHeaderValue headers (ascii "x-amz-sdk-checksum-algorithm")
  let plain := firstHeaderValue headers (ascii "x-amz-checksum-algorithm")
  refuseIf (sdk != [] && !validChecksumAlgorithm sdk)
    { format := "unsupported checksum algorithm %q", args := [sdk] }
  refuseIf (plain != [] && !validChecksumAlgorithm plain)
    { format := "unsupported checksum algorithm %q", args := [plain] }
  refuseIf (sdk != [] && plain != [] && sdk != plain)
    { format := "checksum algorithm headers conflict" }
  .ok (if plain = [] then sdk else plain)

/-- At most one checksum, of the algorithm that is announced, and of a known type. -/
def validateChecksumHeaders (headers : Header) : Except Reason Unit := do
  let algorithm ← checksumAlgorithm headers
  let present := checksumValueAlgorithms.filter (fun e => firstHeaderValue headers e.1 ≠ [])
  refuseIf (2 ≤ present.length) { format := "only one checksum value header is supported" }
  refuseIf (algorithm != [] && present.any (fun e => e.2 != algorithm))
    { format := "checksum algorithm does not match checksum value header" }
  let type := firstHeaderValue headers (ascii "x-amz-checksum-type")
  refuseIf (type != [] && type != ascii "COMPOSITE" && type != ascii "FULL_OBJECT")
    { format := "unsupported checksum type %q", args := [type] }

/-- The checks that do not depend on the operation: unsupported headers, repeated or
    empty ones, and combinations. -/
def validateOperationHeaders (headers : Header) : Except Reason Unit := do
  checkEach (fun name => refuseIf (unsupportedHeader (toLower name))
    { format := "header %q is not supported", args := [toLower name] }) headers.keys
  checkEach (fun header => do
    refuseIf (2 ≤ (allHeaderValues headers header).length)
      { format := "header %q must occur at most once", args := [header] }
    refuseIf (match allHeaderValues headers header with
      | [value] => trimSpace value == []
      | _ => false) { format := "header %q must not be empty", args := [header] })
    (singletons headers)
  let sse := firstHeaderValue headers sseHeader
  refuseIf (sse != [] && sse != ascii "AES256")
    { format := "server-side encryption mode %q is not supported", args := [sse] }
  let acl := firstHeaderValue headers (ascii "x-amz-acl")
  refuseIf (acl != [] && !validCannedACL acl)
    { format := "unsupported canned ACL %q", args := [acl] }
  validateACLHeaderCombination headers
  validateSSECustomerHeaders headers
  validateChecksumHeaders headers
  checkEach (fun directive =>
    let value := firstHeaderValue headers directive
    refuseIf (value != [] && value != ascii "COPY" && value != ascii "REPLACE")
      { format := "header %q must be COPY or REPLACE", args := [directive] })
    [ascii "x-amz-metadata-directive", ascii "x-amz-tagging-directive"]

/-! ## Rules of one operation -/

/-- The operations that answer with an object. -/
def operationReadsObject : OperationKind → Bool
  | .getObject | .getObjectVersion | .headObject | .headObjectVersion => true
  | _ => false

/-- Ranges and preconditions are for reads. -/
def objectReadHeaderAllowed (kind : OperationKind) (header : Bytes) : Bool :=
  operationReadsObject kind &&
    [ascii "Range", ascii "If-Match", ascii "If-Modified-Since", ascii "If-None-Match",
      ascii "If-Unmodified-Since", ascii "If-Range"].contains header

/-- The operations that may describe a body. -/
def operationHasBodyHeaders : OperationKind → Bool
  | .createBucket | .putObject | .putObjectACL | .putObjectTagging | .copyObject
  | .createMultipartUpload | .uploadPart | .completeMultipartUpload => true
  | _ => false

/-- Headers that describe a body are for operations that have one. -/
def objectBodyHeaderAllowed (kind : OperationKind) (header : Bytes) : Bool :=
  operationHasBodyHeaders kind &&
    [ascii "Cache-Control", ascii "Content-Disposition", ascii "Content-Encoding",
      ascii "Content-Language", ascii "Content-Md5", ascii "Content-Type", ascii "Expect",
      ascii "Expires"].contains header

/-- The headers that may be forwarded.  Every `x-amz-` header is among them, since
    those a request may have were checked when it was planned. -/
def safeOutboundRequestHeader (name : Bytes) (kind : OperationKind) : Bool :=
  if hasPrefix (toLower name) (ascii "x-amz-") then true
  else if name = ascii "Accept" ∨ name = ascii "User-Agent" then true
  else if name = ascii "Accept-Encoding" then operationReadsObject kind
  else objectReadHeaderAllowed kind name || objectBodyHeaderAllowed kind name

/-- An announced algorithm without a checksum is refused, as none is computed here. -/
def validateChecksumHeadersForOperation (headers : Header) : Except Reason Unit :=
  refuseIf (firstHeaderValue headers (ascii "x-amz-sdk-checksum-algorithm") != [] &&
      !checksumValueAlgorithms.any (fun e => firstHeaderValue headers e.1 != []))
    { format := "x-amz-sdk-checksum-algorithm requires a concrete checksum value header" }

/-- Which checksum headers an operation takes. -/
def checksumHeaderAllowed (kind : OperationKind) (name : Bytes) : Bool :=
  if name = ascii "x-amz-sdk-checksum-algorithm" then kind = .putObject || kind = .uploadPart
  else if name = ascii "x-amz-checksum-algorithm" then kind = .createMultipartUpload
  else if name = ascii "x-amz-checksum-type" then
    kind = .createMultipartUpload || kind = .completeMultipartUpload
  else if knownChecksumValueHeader name then
    kind = .putObject || kind = .uploadPart || kind = .completeMultipartUpload
  else false

/-- The operations that create an object with headers of its own. -/
def allowPutHeaders : OperationKind → Bool
  | .putObject | .copyObject | .createMultipartUpload => true
  | _ => false

/-- The operations that set an access list. -/
def allowACL (kind : OperationKind) : Bool := allowPutHeaders kind || kind = .putObjectACL

/-- An `x-amz-` header `validateHeadersForOperation` lets through: those of the
    signature always, the others with the operations they belong to. -/
def amzHeaderAllowed (kind : OperationKind) (lower : Bytes) : Bool :=
  lower == ascii "x-amz-content-sha256" || lower == ascii "x-amz-date" ||
  (lower == copySourceHeader && kind = .copyObject) ||
  ((lower == ascii "x-amz-acl" || knownGrantHeader lower) && allowACL kind) ||
  (lower == ascii "x-amz-tagging" && allowPutHeaders kind) ||
  ((lower == ascii "x-amz-tagging-directive" || lower == ascii "x-amz-metadata-directive") &&
    kind = .copyObject) ||
  ((hasPrefix lower (ascii "x-amz-meta-") || lower == ascii "x-amz-storage-class" ||
    knownSSEHeader lower) && allowPutHeaders kind) ||
  (knownChecksumHeader lower && checksumHeaderAllowed kind lower)

/-- The other headers a client may send with any operation.  Of these only `Accept` and
    `User-Agent` are always passed on. -/
def genericHeaders : List Bytes :=
  [ascii "Authorization", ascii "Accept", ascii "Accept-Encoding", ascii "User-Agent",
    ascii "Content-Length", ascii "Connection", ascii "Keep-Alive", ascii "Te", ascii "Trailer",
    ascii "Transfer-Encoding", ascii "Upgrade", ascii "Amz-Sdk-Invocation-Id",
    ascii "Amz-Sdk-Request", ascii "Traceparent", ascii "Tracestate"]

/-- Headers that could change what a request means on its way. -/
def refusedHeaders : List Bytes :=
  [ascii "Cookie", ascii "Cookie2", ascii "Forwarded", ascii "Origin",
    ascii "Proxy-Authorization", ascii "Proxy-Connection", ascii "X-Http-Method-Override",
    ascii "X-Method-Override", ascii "X-Original-Url", ascii "X-Rewrite-Url"]

/-- The headers that are not `x-amz-` headers: some are always accepted, some never,
    and the others by the operation. -/
def validateGenericHeadersForOperation (headers : Header) (kind : OperationKind) :
    Except Reason Unit :=
  checkEach (fun name =>
    let canonical := canonicalHeaderKey name
    let lower := toLower canonical
    if hasPrefix lower (ascii "x-amz-") then .ok ()
    else if genericHeaders.contains canonical then .ok ()
    else if refusedHeaders.contains canonical || hasPrefix lower (ascii "x-forwarded-") then
      .error { format := "header %q is not supported", args := [lower] }
    else
      refuseIf (!objectReadHeaderAllowed kind canonical && !objectBodyHeaderAllowed kind canonical)
        { format := "header %q is not valid for %s", args := [lower, ascii kind.text] })
    headers.keys

/-- The names a `Connection` header nominates, as both filters spell them. -/
def nominations (headers : Header) : List Bytes :=
  (headers.values (ascii "Connection")).flatMap (fun connection =>
    (split 44 connection).map (fun token => trimSpace token))

/-- The checks that depend on the operation.  A `Connection` header must not name a
    header that is forwarded or signed, or it would be dropped on the way. -/
def validateHeadersForOperation (headers : Header) (kind : OperationKind) :
    Except Reason Unit := do
  checkEach (fun token =>
    let name := canonicalHeaderKey token
    refuseIf (safeOutboundRequestHeader name kind || name == ascii "Authorization" ||
        name == ascii "Host" || name == ascii "Content-Length")
      { format := "Connection must not nominate end-to-end header %q", args := [name] })
    (nominations headers)
  validateChecksumHeadersForOperation headers
  checkEach (fun name =>
    let lower := toLower name
    refuseIf (hasPrefix lower (ascii "x-amz-") && !amzHeaderAllowed kind lower)
      { format := "header %q is not valid for %s", args := [lower, ascii kind.text] })
    headers.keys
  validateGenericHeadersForOperation headers kind

/-! ## Forwarding -/

/-- The headers of a connection rather than of a request. -/
def hopByHopHeaders : List Bytes :=
  [ascii "Connection", ascii "Keep-Alive", ascii "Proxy-Authenticate",
    ascii "Proxy-Authorization", ascii "Te", ascii "Trailer", ascii "Transfer-Encoding",
    ascii "Upgrade"]

/-- The fixed names and those the connection nominates. -/
def hopByHopHeaderSet (headers : Header) : List Bytes :=
  hopByHopHeaders ++ ((nominations headers).filter (· ≠ [])).map canonicalHeaderKey

/-- The headers that are forwarded: those that are safe, without the ones meant for a
    single hop. -/
def copyOutboundRequestHeaders (src dst : Header) (kind : OperationKind) : Header :=
  src.entries.foldl (fun dst e =>
    let canonical := canonicalHeaderKey e.1
    if (hopByHopHeaderSet src).contains canonical || !safeOutboundRequestHeader canonical kind then
      dst
    else e.2.foldl (fun dst value => dst.add canonical value) dst) dst

/-- Whether a request asks for an ACL. -/
def requestUsesACLHeaders (headers : Header) : Bool :=
  hasHeader headers (ascii "x-amz-acl") ||
    headers.keys.any (fun name => knownGrantHeader (toLower name))

/-! ## Names in their canonical spelling -/

section
variable {headers : Header} {kind : OperationKind}

theorem mem_of_entry {e : Sigma (fun _ : Bytes => List Bytes)} (he : e ∈ headers.entries) :
    e.1 ∈ headers :=
  AList.mem_keys.mpr (List.mem_map_of_mem he)

/-- On canonical names a search in any spelling is one lookup. -/
theorem allHeaderValues_canonical (hc : headers.Canonical) {name : Bytes}
    (hn : isToken name = true) :
    allHeaderValues headers name = headers.values name := by
  -- for a canonical name, equal up to letter case means equal to the canonical spelling
  have hentry : ∀ e ∈ headers.entries,
      (equalFold e.1 name = true ↔ e.1 = canonicalHeaderKey name) :=
    fun e he => equalFold_canonical (hc e.1 (mem_of_entry he)).1 (hc e.1 (mem_of_entry he)).2 hn
  have hlist : ∀ l : List (Sigma (fun _ : Bytes => List Bytes)), l.NodupKeys →
      (∀ e ∈ l, (equalFold e.1 name = true ↔ e.1 = canonicalHeaderKey name)) →
      l.flatMap (fun e => if equalFold e.1 name then e.2 else []) =
        (l.dlookup (canonicalHeaderKey name)).getD [] := by
    intro l
    induction l with
    | nil => exact fun _ _ => rfl
    | cons e l ih =>
        intro hnd hl
        obtain ⟨hnot, hnd'⟩ := List.nodupKeys_cons.mp hnd
        have hrest := ih hnd' (fun e he => hl e (List.mem_cons_of_mem _ he))
        rw [List.flatMap_cons, hrest]
        by_cases he : e.1 = canonicalHeaderKey name
        · -- no other entry has this name
          rw [if_pos ((hl e List.mem_cons_self).mpr he), ← he,
            List.dlookup_eq_none.mpr hnot, List.dlookup_cons_eq]
          simp
        · rw [if_neg (fun h => he ((hl e List.mem_cons_self).mp h)),
            List.dlookup_cons_ne _ _ (Ne.symm he)]
          rfl
  exact hlist headers.entries headers.nodupKeys hentry

/-- A loop over entries that appends the values of the names it keeps. -/
theorem at_foldl_entries (step : Header → Sigma (fun _ : Bytes => List Bytes) → Header)
    (keep : Bytes → Bool)
    (hstep : ∀ h e, e ∈ headers.entries → ∀ name, (step h e).at_ name =
      if name = e.1 ∧ keep name = true then h.at_ name ++ e.2 else h.at_ name)
    (dst : Header) (name : Bytes) :
    (headers.entries.foldl step dst).at_ name =
      if keep name = true then dst.at_ name ++ headers.at_ name else dst.at_ name := by
  have hlist : ∀ l : List (Sigma (fun _ : Bytes => List Bytes)), l.NodupKeys →
      (∀ e ∈ l, e ∈ headers.entries) → ∀ dst : Header, (l.foldl step dst).at_ name =
        if keep name = true then dst.at_ name ++ (l.dlookup name).getD [] else dst.at_ name := by
    intro l
    induction l with
    | nil => intro _ _ dst; simp
    | cons e l ih =>
        intro hnd hl dst
        obtain ⟨hnot, hnd'⟩ := List.nodupKeys_cons.mp hnd
        rw [List.foldl_cons, ih hnd' (fun e he => hl e (List.mem_cons_of_mem _ he)),
          hstep dst e (hl e List.mem_cons_self)]
        by_cases he : name = e.1
        · subst he
          rw [List.dlookup_eq_none.mpr hnot, List.dlookup_cons_eq]
          by_cases hk : keep e.1 = true
          · simp [hk]
          · simp [hk]
        · rw [List.dlookup_cons_ne _ _ he]
          simp [he]
  exact hlist headers.entries headers.nodupKeys (fun _ he => he) dst

/-- Canonical headers are cloned as they are. -/
theorem canonicalHeaderClone_at (hc : headers.Canonical) (name : Bytes) :
    (canonicalHeaderClone headers).at_ name = headers.at_ name := by
  rw [canonicalHeaderClone, at_foldl_entries _ (fun _ => true) ?_ ∅ name]
  · rfl
  · intro h e he name
    rw [(hc e.1 (mem_of_entry he)).2]
    by_cases hn : name = e.1
    · subst hn
      rw [if_pos ⟨rfl, rfl⟩, Header.at_, AList.lookup_insert]
      rfl
    · rw [if_neg (fun h => hn h.1), Header.at_, AList.lookup_insert_ne hn]
      rfl

/-- A copy never adds a name of another spelling. -/
theorem canonicalHeaderClone_canonical (hc : headers.Canonical) :
    (canonicalHeaderClone headers).Canonical := by
  have hlist : ∀ l : List (Sigma (fun _ : Bytes => List Bytes)),
      (∀ e ∈ l, isToken e.1 = true ∧ canonicalHeaderKey e.1 = e.1) → ∀ dst : Header,
      dst.Canonical → Header.Canonical (l.foldl (fun clone e =>
        clone.insert (canonicalHeaderKey e.1) (clone.at_ (canonicalHeaderKey e.1) ++ e.2)) dst) := by
    intro l
    induction l with
    | nil => exact fun _ dst hd => hd
    | cons e l ih =>
        intro hl dst hd
        refine ih (fun e he => hl e (List.mem_cons_of_mem _ he)) _ ?_
        intro name hname
        rcases (AList.mem_insert _).mp hname with rfl | hname
        · rw [(hl e List.mem_cons_self).2]
          exact hl e List.mem_cons_self
        · exact hd name hname
  exact hlist headers.entries (fun e he => hc e.1 (mem_of_entry he)) ∅
    (fun name hname => absurd hname (AList.notMem_empty name))

/-- A clone has the canonical spellings of the names it was made from. -/
theorem mem_canonicalHeaderClone {name : Bytes} (h : name ∈ canonicalHeaderClone headers) :
    ∃ n ∈ headers, canonicalHeaderKey n = name := by
  have hlist : ∀ l : List (Sigma (fun _ : Bytes => List Bytes)),
      (∀ e ∈ l, e.1 ∈ headers) → ∀ dst : Header,
      (name ∈ dst → ∃ n ∈ headers, canonicalHeaderKey n = name) →
      name ∈ l.foldl (fun (clone : Header) e =>
        clone.insert (canonicalHeaderKey e.1) (clone.at_ (canonicalHeaderKey e.1) ++ e.2)) dst →
      ∃ n ∈ headers, canonicalHeaderKey n = name := by
    intro l
    induction l with
    | nil => exact fun _ dst hd hm => hd hm
    | cons e l ih =>
        intro hl dst hd hm
        refine ih (fun e he => hl e (List.mem_cons_of_mem _ he)) _ ?_ hm
        intro hname
        rcases (AList.mem_insert _).mp hname with rfl | hname
        · exact ⟨e.1, hl e List.mem_cons_self, rfl⟩
        · exact hd hname
  exact hlist headers.entries (fun e he => mem_of_entry he) ∅
    (fun hm => absurd hm (AList.notMem_empty name)) h

/-- Forwarding adds nothing under a name that is not there. -/
theorem copyOutboundRequestHeaders_absent {name : Bytes}
    (h : ∀ n ∈ headers, canonicalHeaderKey n ≠ name) (dst : Header) :
    (copyOutboundRequestHeaders headers dst kind).at_ name = dst.at_ name := by
  have hlist : ∀ l : List (Sigma (fun _ : Bytes => List Bytes)),
      (∀ e ∈ l, canonicalHeaderKey e.1 ≠ name) → ∀ dst : Header,
      Header.at_ (l.foldl (fun dst e =>
        let canonical := canonicalHeaderKey e.1
        if (hopByHopHeaderSet headers).contains canonical ||
            !safeOutboundRequestHeader canonical kind then dst
        else e.2.foldl (fun dst value => dst.add canonical value) dst) dst) name =
      dst.at_ name := by
    intro l
    induction l with
    | nil => exact fun _ _ => rfl
    | cons e l ih =>
        intro hl dst
        rw [List.foldl_cons, ih (fun e he => hl e (List.mem_cons_of_mem _ he))]
        simp only
        split
        · rfl
        · rw [Header.at_foldl_add, canonicalHeaderKey_idem,
            if_neg (Ne.symm (hl e List.mem_cons_self))]
  exact hlist headers.entries (fun e he => h e.1 (mem_of_entry he)) dst

/-- Forwarding adds canonical spellings of the names it is given. -/
theorem mem_copyOutboundRequestHeaders {dst : Header} {name : Bytes}
    (h : name ∈ copyOutboundRequestHeaders headers dst kind) :
    name ∈ dst ∨ ∃ n ∈ headers, canonicalHeaderKey n = name := by
  -- the inner loop over the values of a name, then the outer one over the names
  have hadd : ∀ (values : List Bytes) (dst : Header) (key : Bytes),
      name ∈ values.foldl (fun dst value => dst.add key value) dst →
      name ∈ dst ∨ canonicalHeaderKey key = name := by
    intro values
    induction values with
    | nil => exact fun dst key hm => Or.inl hm
    | cons value values ih =>
        intro dst key hm
        rcases ih _ key hm with hm | hm
        · rcases (AList.mem_insert _).mp hm with rfl | hm
          · exact Or.inr rfl
          · exact Or.inl hm
        · exact Or.inr hm
  have hlist : ∀ l : List (Sigma (fun _ : Bytes => List Bytes)), (∀ e ∈ l, e.1 ∈ headers) →
      ∀ dst : Header, name ∈ l.foldl (fun (dst : Header) e =>
        let canonical := canonicalHeaderKey e.1
        if (hopByHopHeaderSet headers).contains canonical ||
            !safeOutboundRequestHeader canonical kind then dst
        else e.2.foldl (fun dst value => dst.add canonical value) dst) dst →
      name ∈ dst ∨ ∃ n ∈ headers, canonicalHeaderKey n = name := by
    intro l
    induction l with
    | nil => exact fun _ dst hm => Or.inl hm
    | cons e l ih =>
        intro hl dst hm
        rcases ih (fun e he => hl e (List.mem_cons_of_mem _ he)) _ hm with hm | hm
        · simp only at hm
          split at hm
          · exact Or.inl hm
          · rcases hadd e.2 dst _ hm with hm | rfl
            · exact Or.inl hm
            · exact Or.inr ⟨e.1, hl e List.mem_cons_self, (canonicalHeaderKey_idem e.1).symm⟩
        · exact Or.inr hm
  exact hlist headers.entries (fun e he => mem_of_entry he) dst h

/-! ## The two filters agree -/

/-- No header of the connection itself is ever forwarded. -/
theorem hopByHop_not_safe {name : Bytes} (h : name ∈ hopByHopHeaders) :
    safeOutboundRequestHeader name kind = false := by
  -- every branch of `safeOutboundRequestHeader`, for the names of the table
  have htable : ∀ name ∈ hopByHopHeaders, hasPrefix (toLower name) (ascii "x-amz-") = false ∧
      (¬ (name = ascii "Accept" ∨ name = ascii "User-Agent")) ∧
      ¬ name = ascii "Accept-Encoding" ∧
      (∀ kind, objectReadHeaderAllowed kind name = false) ∧
      ∀ kind, objectBodyHeaderAllowed kind name = false := by
    intro name hname
    refine ⟨?_, ?_, ?_, ?_, ?_⟩
    · revert name
      decide
    · revert name
      decide
    · revert name
      decide
    · intro kind
      rw [objectReadHeaderAllowed, Bool.and_eq_false_iff]
      right
      revert name
      decide
    · intro kind
      rw [objectBodyHeaderAllowed, Bool.and_eq_false_iff]
      right
      revert name
      decide
  obtain ⟨h1, h2, h3, h4, h5⟩ := htable name h
  simp [safeOutboundRequestHeader, h1, h2, h3, h4, h5]

/-- **NO NOMINATION OF A FORWARDED HEADER**: where a header set is accepted, nothing the
    forwarding step would drop is a header it would otherwise keep. -/
theorem nominated_not_safe (h : validateHeadersForOperation headers kind = .ok ())
    {name : Bytes} (hname : name ∈ hopByHopHeaderSet headers) :
    safeOutboundRequestHeader name kind = false := by
  rcases List.mem_append.mp hname with hfix | hnom
  · exact hopByHop_not_safe hfix
  · obtain ⟨token, htoken, rfl⟩ := List.mem_map.mp hnom
    have hcheck := checkEach_ok_iff.mp (seq_ok_iff.mp h).1 token (List.mem_filter.mp htoken).1
    have hno := refuseIf_ok_iff.mp hcheck
    simp only [Bool.or_eq_false_iff] at hno
    exact hno.1.1.1

/-- Every `x-amz-` header of an accepted set is one the operation allows. -/
theorem amzHeaderAllowed_of_valid (h : validateHeadersForOperation headers kind = .ok ())
    {name : Bytes} (hname : name ∈ headers)
    (hamz : hasPrefix (toLower name) (ascii "x-amz-") = true) :
    amzHeaderAllowed kind (toLower name) = true := by
  obtain ⟨-, h⟩ := seq_ok_iff.mp h
  obtain ⟨-, h⟩ := seq_ok_iff.mp h
  have hcheck := checkEach_ok_iff.mp (seq_ok_iff.mp h).1 name (AList.mem_keys.mp hname)
  have hok := refuseIf_ok_iff.mp hcheck
  simpa [hamz] using hok

/-- A copy source is accepted for a copy only. -/
theorem copyObject_of_copySource (h : validateHeadersForOperation headers kind = .ok ())
    {name : Bytes} (hname : name ∈ headers) (hlow : toLower name = copySourceHeader) :
    kind = .copyObject := by
  have hok := amzHeaderAllowed_of_valid h hname (by rw [hlow]; decide)
  rw [hlow] at hok
  revert hok
  cases kind <;> decide

/-- What forwarding does to the values under each name. -/
theorem copyOutboundRequestHeaders_at (hc : headers.Canonical) (dst : Header) (name : Bytes) :
    (copyOutboundRequestHeaders headers dst kind).at_ name =
      if (!(hopByHopHeaderSet headers).contains name && safeOutboundRequestHeader name kind) = true
      then dst.at_ name ++ headers.at_ name else dst.at_ name := by
  refine at_foldl_entries _ (fun name => !(hopByHopHeaderSet headers).contains name &&
    safeOutboundRequestHeader name kind) ?_ dst name
  intro h e he name
  have hcanon : canonicalHeaderKey e.1 = e.1 := (hc e.1 (mem_of_entry he)).2
  simp only [hcanon]
  by_cases hn : name = e.1
  · subst hn
    cases hhop : (hopByHopHeaderSet headers).contains e.1 with
    | true => simp
    | false =>
        cases hsafe : safeOutboundRequestHeader e.1 kind with
        | false => simp
        | true => simp [Header.at_foldl_add, hcanon]
  · have hother : ¬ (name = e.1 ∧ (!(hopByHopHeaderSet headers).contains name &&
        safeOutboundRequestHeader name kind) = true) := fun h => hn h.1
    rw [if_neg hother]
    split
    · rfl
    · rw [Header.at_foldl_add, hcanon, if_neg hn]

end

end S3
