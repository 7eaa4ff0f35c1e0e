import VBuckets.UrlRoundTripProofs
import VBuckets.DomainProofs
import Mathlib.Algebra.Group.Int.Defs
import Mathlib.Algebra.Group.Nat.Defs

/-! # The request grammar

    The rows of the operation matrix (`http_server/s3_operation.go`): which method, path
    class and query select which operation, and the checks of keys and query values.

    `selectKind` is the switch of `planS3Operation`: for a path class and a method, the
    branches in their order (`candidates`), each with its query test (`queryHolds`).  A
    test looks at a query only through which keys it has and the values of a few of
    them, so a rewrite that keeps those selects the same row (`selectKind_congr`). -/

namespace S3

open ByteString Url

/-! ## Operations -/

/-- The operations of S3 that are served, and no others. -/
inductive OperationKind where
  | listBuckets
  | createBucket
  | headBucket
  | listObjects
  | listObjectsV2
  | listMultipartUploads
  | getObject
  | headObject
  | getObjectVersion
  | headObjectVersion
  | putObject
  | putObjectACL
  | putObjectTagging
  | copyObject
  | deleteObject
  | deleteObjectVersion
  | createMultipartUpload
  | uploadPart
  | listParts
  | completeMultipartUpload
  | abortMultipartUpload
  deriving DecidableEq

/-- The text of an operation kind. -/
def OperationKind.text : OperationKind → String
  | .listBuckets => "ListBuckets"
  | .createBucket => "CreateBucket"
  | .headBucket => "HeadBucket"
  | .listObjects => "ListObjects"
  | .listObjectsV2 => "ListObjectsV2"
  | .listMultipartUploads => "ListMultipartUploads"
  | .getObject => "GetObject"
  | .headObject => "HeadObject"
  | .getObjectVersion => "GetObjectVersion"
  | .headObjectVersion => "HeadObjectVersion"
  | .putObject => "PutObject"
  | .putObjectACL => "PutObjectAcl"
  | .putObjectTagging => "PutObjectTagging"
  | .copyObject => "CopyObject"
  | .deleteObject => "DeleteObject"
  | .deleteObjectVersion => "DeleteObjectVersion"
  | .createMultipartUpload => "CreateMultipartUpload"
  | .uploadPart => "UploadPart"
  | .listParts => "ListParts"
  | .completeMultipartUpload => "CompleteMultipartUpload"
  | .abortMultipartUpload => "AbortMultipartUpload"

/-- What a path addresses. -/
inductive PathClass where
  | service | bucket | object
  deriving DecidableEq

/-- What a request is about.  A key without a bucket counts as an object, as in the
    source; the middleware's bucket check does not apply there. -/
def pathClass (bucket objectKey : Bytes) : PathClass :=
  if bucket = [] ∧ objectKey = [] then .service
  else if objectKey = [] then .bucket
  else .object

/-- The path class of each operation. -/
def OperationKind.pathClass : OperationKind → PathClass
  | .listBuckets => .service
  | .createBucket | .headBucket | .listObjects | .listObjectsV2 | .listMultipartUploads => .bucket
  | _ => .object

/-- The operations that reach the origin. -/
def OperationKind.forwarded : OperationKind → Bool
  | .listBuckets | .createBucket => false
  | _ => true

/-- The operations that list a bucket. -/
def OperationKind.lists : OperationKind → Bool
  | .listObjects | .listObjectsV2 | .listMultipartUploads => true
  | _ => false

def methodGet : Bytes := ascii "GET"
def methodHead : Bytes := ascii "HEAD"
def methodPut : Bytes := ascii "PUT"
def methodPost : Bytes := ascii "POST"
def methodDelete : Bytes := ascii "DELETE"

/-! ## Rows -/

/-- The value of a required parameter.  A NUL byte stands for any non-empty value, as
    in the source's tables. -/
def wantedValue (want : Bytes) (values : List Bytes) : Bool :=
  match values with
  | [value] => if want = [0] then value ≠ [] else value = want
  | _ => false

def xIDKey : Bytes := ascii "x-id"

/-- A row of the grammar: the parameters it asks for, with their values, no others but
    the optional ones, and each once.  `x-id` may name the operation, which clients'
    libraries do. -/
def queryMatchesWithValue (query : Values) (xID : Bytes) (required : List (Bytes × Bytes))
    (optional : List Bytes) : Bool :=
  required.all (fun kw =>
    match query.lookup kw.1 with
    | none => false
    | some values => wantedValue kw.2 values) &&
  query.entries.all (fun e =>
    (required.any (fun kw => kw.1 == e.1) || optional.contains e.1 || e.1 == xIDKey) &&
    e.2.length == 1 && (e.1 != xIDKey || e.2.head? == some xID))

/-- A row whose required parameters are flags, without a value. -/
def queryMatches (query : Values) (xID : Bytes) (requiredFlags optional : List Bytes) : Bool :=
  queryMatchesWithValue query xID (requiredFlags.map (fun key => (key, []))) optional

/-- A row whose required parameters have some value. -/
def queryMatchesNonEmpty (query : Values) (xID : Bytes) (required optional : List Bytes) :
    Bool :=
  queryMatchesWithValue query xID (required.map (fun key => (key, [0]))) optional

/-- The optional parameters of an object read. -/
def objectReadOptions : List Bytes :=
  [ascii "response-cache-control", ascii "response-content-disposition",
    ascii "response-content-encoding", ascii "response-content-language",
    ascii "response-content-type", ascii "response-expires", ascii "partNumber"]

/-- The query test of each branch of `planS3Operation`: its identifier, its required
    and its optional parameters.  Any other parameter makes the row fail. -/
def OperationKind.queryHolds (kind : OperationKind) (q : Values) : Bool :=
  match kind with
  | .listBuckets => queryMatches q (ascii "ListBuckets") [] []
  | .createBucket => queryMatches q (ascii "CreateBucket") [] []
  | .headBucket => queryMatches q (ascii "HeadBucket") [] []
  | .listMultipartUploads =>
      queryMatches q (ascii "ListMultipartUploads") [ascii "uploads"]
        [ascii "delimiter", ascii "encoding-type", ascii "key-marker", ascii "max-uploads",
          ascii "prefix", ascii "upload-id-marker"]
  | .listObjectsV2 =>
      queryMatchesWithValue q (ascii "ListObjectsV2") [(ascii "list-type", ascii "2")]
        [ascii "prefix", ascii "delimiter", ascii "continuation-token", ascii "fetch-owner",
          ascii "max-keys", ascii "encoding-type", ascii "start-after"]
  | .listObjects =>
      queryMatches q (ascii "ListObjects") []
        [ascii "prefix", ascii "delimiter", ascii "marker", ascii "max-keys",
          ascii "encoding-type"]
  | .listParts =>
      queryMatchesNonEmpty q (ascii "ListParts") [ascii "uploadId"]
        [ascii "max-parts", ascii "part-number-marker"]
  | .getObjectVersion =>
      queryMatchesNonEmpty q (ascii "GetObject") [ascii "versionId"] objectReadOptions
  | .getObject => queryMatches q (ascii "GetObject") [] objectReadOptions
  | .headObjectVersion =>
      queryMatchesNonEmpty q (ascii "HeadObject") [ascii "versionId"] [ascii "partNumber"]
  | .headObject => queryMatches q (ascii "HeadObject") [] [ascii "partNumber"]
  | .copyObject => queryMatches q (ascii "CopyObject") [] []
  | .putObjectTagging => queryMatches q (ascii "PutObjectTagging") [ascii "tagging"] []
  | .putObjectACL => queryMatches q (ascii "PutObjectAcl") [ascii "acl"] []
  | .uploadPart =>
      queryMatchesNonEmpty q (ascii "UploadPart") [ascii "partNumber", ascii "uploadId"] []
  | .putObject => queryMatches q (ascii "PutObject") [] []
  | .abortMultipartUpload =>
      queryMatchesNonEmpty q (ascii "AbortMultipartUpload") [ascii "uploadId"] []
  | .deleteObjectVersion => queryMatchesNonEmpty q (ascii "DeleteObject") [ascii "versionId"] []
  | .deleteObject => queryMatches q (ascii "DeleteObject") [] []
  | .createMultipartUpload => queryMatches q (ascii "CreateMultipartUpload") [ascii "uploads"] []
  | .completeMultipartUpload =>
      queryMatchesNonEmpty q (ascii "CompleteMultipartUpload") [ascii "uploadId"] []

/-- The branches of `planS3Operation` for a path class and a method, in the order they
    are tried; `copy` says whether the request carries a copy source. -/
def candidates (target : PathClass) (method : Bytes) (copy : Bool) : List OperationKind :=
  match target with
  | .service => if method = methodGet then [.listBuckets] else []
  | .bucket =>
      if method = methodPut then if copy then [] else [.createBucket]
      else if method = methodHead then [.headBucket]
      else if method = methodGet then [.listMultipartUploads, .listObjectsV2, .listObjects]
      else []
  | .object =>
      if method = methodGet then [.listParts, .getObjectVersion, .getObject]
      else if method = methodHead then [.headObjectVersion, .headObject]
      else if method = methodPut then
        if copy then [.copyObject]
        else [.putObjectTagging, .putObjectACL, .uploadPart, .putObject]
      else if method = methodDelete then
        [.abortMultipartUpload, .deleteObjectVersion, .deleteObject]
      else if method = methodPost then [.createMultipartUpload, .completeMultipartUpload]
      else []

/-- The operation of a request: the first branch whose query test holds. -/
def selectKind (target : PathClass) (method : Bytes) (copy : Bool) (query : Values) :
    Option OperationKind :=
  (candidates target method copy).find? (fun kind => kind.queryHolds query)

section
variable {target : PathClass} {method : Bytes} {copy : Bool} {kind : OperationKind}

/-- What the switch over target and method says of an operation it tries. -/
theorem candidates_spec (h : kind ∈ candidates target method copy) :
    kind.pathClass = target ∧ (kind.lists = true → method = methodGet) ∧
      (kind = .copyObject → copy = true) := by
  cases target with
  | service =>
      simp only [candidates] at h
      split at h
      · rw [List.mem_singleton.mp h]
        exact ⟨rfl, fun hl => absurd hl (by decide), fun hc => absurd hc (by decide)⟩
      · exact nomatch h
  | bucket =>
      simp only [candidates] at h
      split at h
      · split at h
        · exact nomatch h
        · rw [List.mem_singleton.mp h]
          exact ⟨rfl, fun hl => absurd hl (by decide), fun hc => absurd hc (by decide)⟩
      · split at h
        · rw [List.mem_singleton.mp h]
          exact ⟨rfl, fun hl => absurd hl (by decide), fun hc => absurd hc (by decide)⟩
        · split at h
          · next hget =>
              simp only [List.mem_cons, List.not_mem_nil, or_false] at h
              rcases h with rfl | rfl | rfl
              · exact ⟨rfl, fun _ => hget, fun hc => absurd hc (by decide)⟩
              · exact ⟨rfl, fun _ => hget, fun hc => absurd hc (by decide)⟩
              · exact ⟨rfl, fun _ => hget, fun hc => absurd hc (by decide)⟩
          · exact nomatch h
  | object =>
      -- only the copy branch needs the copy source
      have hplain : ∀ kinds : List OperationKind,
          (∀ k ∈ kinds, k.pathClass = .object ∧ k.lists = false ∧ k ≠ .copyObject) →
          kind ∈ kinds → kind.pathClass = .object ∧ (kind.lists = true → method = methodGet) ∧
            (kind = .copyObject → copy = true) := by
        intro kinds hk hm
        obtain ⟨h1, h2, h3⟩ := hk kind hm
        exact ⟨h1, fun hl => absurd (h2.symm.trans hl) (by decide), fun hc => absurd hc h3⟩
      simp only [candidates] at h
      split at h
      · exact hplain _ (by decide) h
      split at h
      · exact hplain _ (by decide) h
      split at h
      · split at h
        · next hcopy =>
            rw [List.mem_singleton.mp h]
            exact ⟨rfl, fun hl => absurd hl (by decide), fun _ => hcopy⟩
        · exact hplain _ (by decide) h
      split at h
      · exact hplain _ (by decide) h
      split at h
      · exact hplain _ (by decide) h
      · exact nomatch h

/-- The operation selected is one that is tried, and its row matches. -/
theorem selectKind_spec {query : Values} (h : selectKind target method copy query = some kind) :
    kind ∈ candidates target method copy ∧ kind.queryHolds query = true :=
  ⟨List.mem_of_find?_eq_some h,
    List.find?_some (p := fun kind : OperationKind => kind.queryHolds query) h⟩

end

/-! ## Keys and query values -/

/-- An error text as its format and the values formatted into it. -/
structure Reason where
  format : String
  args : List Bytes := []
  deriving DecidableEq

/-- A reason wrapped by its caller. -/
def Reason.within (r : Reason) (head : String) (args : List Bytes) : Reason :=
  { format := head ++ r.format, args := args ++ r.args }

/-- Refuse when a condition holds. -/
def refuseIf (bad : Bool) (reason : Reason) : Except Reason Unit :=
  if bad then .error reason else .ok ()

/-- A loop that stops at the first refusal. -/
def checkEach {α : Type} (check : α → Except Reason Unit) : List α → Except Reason Unit
  | [] => .ok ()
  | x :: xs => do check x; checkEach check xs

theorem seq_ok_iff {α : Type} {a : Except Reason Unit} {b : Except Reason α} {x : α} :
    (do a; b) = .ok x ↔ a = .ok () ∧ b = .ok x := by
  cases a with
  | error e => exact ⟨(fun h => nomatch h), fun h => nomatch h.1⟩
  | ok u => exact ⟨fun h => ⟨rfl, h⟩, fun h => h.2⟩

theorem refuseIf_ok_iff {bad : Bool} {reason : Reason} :
    refuseIf bad reason = .ok () ↔ bad = false := by
  cases bad with
  | true => exact ⟨(fun h => nomatch h), fun h => nomatch h⟩
  | false => exact ⟨fun _ => rfl, fun _ => rfl⟩

/-- A loop of checks succeeds if each check does.  With the two lemmas before, a
    validator is turned into the conjunction of what it checks. -/
theorem checkEach_ok_iff {α : Type} {check : α → Except Reason Unit} {xs : List α} :
    checkEach check xs = .ok () ↔ ∀ x ∈ xs, check x = .ok () := by
  induction xs with
  | nil => exact ⟨(fun _ x hx => nomatch hx), fun _ => rfl⟩
  | cons x xs ih =>
      rw [checkEach, seq_ok_iff, ih, List.forall_mem_cons]

/-- The keys a client may name: valid text, without control characters, backslashes
    and dot segments, so that no server on the way reads another path from them. -/
def validateVirtualObjectKey (objectKey : Bytes) : Except Reason Unit := do
  refuseIf (!validString objectKey) { format := "object key must be valid UTF-8" }
  refuseIf (objectKey.contains 0 || objectKey.contains 92)
    { format := "NUL and backslash are not supported" }
  refuseIf (hasControl objectKey) { format := "control characters are not supported" }
  checkEach (fun segment => refuseIf (segment == ascii "." || segment == ascii "..")
    { format := "dot path segments are not supported" }) (split 47 objectKey)

/-- `strconv.Atoi` on a 64-bit platform. -/
def atoi (s : Bytes) : Option Int :=
  let negative := hasPrefix s (ascii "-")
  let digits := if negative || hasPrefix s (ascii "+") then s.drop 1 else s
  if digits = [] || !digits.all isDigitASCII then none
  else if negative then
    if Domain.decimal digits ≤ 2 ^ 63 then some (-Domain.decimal digits) else none
  else if Domain.decimal digits < 2 ^ 63 then some (Domain.decimal digits)
  else none

/-- A number within bounds, if there is one. -/
def validateOptionalInteger (query : Values) (name : String) (minValue maxValue : Int) :
    Except Reason Unit :=
  match query.lookup (ascii name) with
  | none => .ok ()
  | some values => do
      refuseIf (values.length != 1 || values.head? == some [])
        { format := name ++ " must have exactly one integer value" }
      refuseIf
        (match atoi ((values.head?).getD []) with
        | none => true
        | some value => value < minValue || maxValue < value)
        { format := name ++ " must be an integer from " ++ toString minValue ++ " through " ++
            toString maxValue }

/-- A value the client may use as a prefix or a marker. -/
def validateKeyField (query : Values) (name : String) : Except Reason Unit :=
  match query.lookup (ascii name) with
  | some (value :: _) =>
      if value = [] then .ok ()
      else
        match validateVirtualObjectKey value with
        | .ok () => .ok ()
        | .error e => .error (e.within (name ++ " contains an unsafe virtual key: ") [])
  | _ => .ok ()

/-- The values of the parameters, whatever operation they are for; the row of the
    operation has seen to it that only its own are there. -/
def validateQueryForOperation (query : Values) : Except Reason Unit := do
  refuseIf ((query.lookup (ascii "encoding-type")).isSome &&
      query.get (ascii "encoding-type") != ascii "url")
    { format := "encoding-type must be url" }
  refuseIf ((query.lookup (ascii "fetch-owner")).isSome &&
      query.get (ascii "fetch-owner") != ascii "true" &&
      query.get (ascii "fetch-owner") != ascii "false")
    { format := "fetch-owner must be true or false" }
  checkEach (validateKeyField query) ["prefix", "marker", "start-after", "key-marker"]
  validateOptionalInteger query "max-keys" 0 1000
  validateOptionalInteger query "max-uploads" 1 1000
  validateOptionalInteger query "max-parts" 0 1000
  validateOptionalInteger query "part-number-marker" 0 10000
  validateOptionalInteger query "partNumber" 1 10000

/-! ## What the rows look at -/

section
variable {q q' : Values}

/-- A row on a query with one value for each key. -/
theorem queryMatchesWithValue_iff (hq : q.Single) (xID : Bytes)
    (required : List (Bytes × Bytes)) (optional : List Bytes) :
    queryMatchesWithValue q xID required optional = true ↔
      (∀ kw ∈ required, kw.1 ∈ q ∧ wantedValue kw.2 [q.get kw.1] = true) ∧
      (∀ k ∈ q, k ∈ required.map Prod.fst ∨ k ∈ optional ∨ k = xIDKey) ∧
      (xIDKey ∈ q → q.get xIDKey = xID) := by
  -- with one value for each key a lookup and `get` say the same
  have hval : ∀ k ∈ q, q.lookup k = some [q.get k] := by
    intro k hk
    obtain ⟨vs, hvs⟩ := Option.isSome_iff_exists.mp (AList.lookup_isSome.mpr hk)
    obtain ⟨x, rfl⟩ := hq k vs hvs
    rw [Values.get_of_lookup hvs, hvs]
  have hentry : ∀ e ∈ q.entries, e.1 ∈ q ∧ e.2 = [q.get e.1] := by
    intro e he
    have hlook : q.lookup e.1 = some e.2 := AList.mem_lookup_iff.mpr he
    have hmem : e.1 ∈ q := AList.lookup_isSome.mp (by rw [hlook]; rfl)
    exact ⟨hmem, (Option.some.inj (hlook.symm.trans (hval e.1 hmem)))⟩
  rw [queryMatchesWithValue, Bool.and_eq_true, List.all_eq_true, List.all_eq_true]
  have hleft : (∀ kw ∈ required, (match q.lookup kw.1 with
      | none => false
      | some values => wantedValue kw.2 values) = true) ↔
      ∀ kw ∈ required, kw.1 ∈ q ∧ wantedValue kw.2 [q.get kw.1] = true := by
    refine forall₂_congr (fun kw _ => ?_)
    by_cases hk : kw.1 ∈ q
    · rw [hval _ hk]
      exact ⟨fun h => ⟨hk, h⟩, fun h => h.2⟩
    · rw [AList.lookup_eq_none.mpr hk]
      exact ⟨(fun h => nomatch h), fun h => absurd h.1 hk⟩
  rw [hleft]
  refine and_congr_right (fun _ => ⟨?_, ?_⟩)
  · intro h
    refine ⟨?_, ?_⟩
    · intro k hk
      have hk' := h ⟨k, [q.get k]⟩ (AList.mem_lookup_iff.mp (hval k hk))
      simp only [Bool.and_eq_true, Bool.or_eq_true, List.any_eq_true, beq_iff_eq] at hk'
      rcases hk'.1.1 with (⟨kw, hkw, rfl⟩ | ho) | hx
      · exact Or.inl (List.mem_map_of_mem hkw)
      · exact Or.inr (Or.inl (List.contains_iff_mem.mp ho))
      · exact Or.inr (Or.inr hx)
    · intro hx
      have hk' := h ⟨xIDKey, [q.get xIDKey]⟩ (AList.mem_lookup_iff.mp (hval _ hx))
      simpa using (Bool.and_eq_true_iff.mp hk').2
  · rintro ⟨hkeys, hx⟩ e he
    obtain ⟨hmem, hvs⟩ := hentry e he
    simp only [Bool.and_eq_true, Bool.or_eq_true, List.any_eq_true, beq_iff_eq]
    refine ⟨⟨?_, by rw [hvs]; rfl⟩, ?_⟩
    · rcases hkeys e.1 hmem with hk | hk | hk
      · obtain ⟨kw, hkw, hkw'⟩ := List.mem_map.mp hk
        exact Or.inl (Or.inl ⟨kw, hkw, hkw'⟩)
      · exact Or.inl (Or.inr (List.contains_iff_mem.mpr hk))
      · exact Or.inr hk
    · by_cases hxe : e.1 = xIDKey
      · rw [hvs, hxe, hx (hxe ▸ hmem)]
        simp
      · exact Or.inl (by simpa using hxe)

/-- The parameters a forwarded query may carry with another value: those that name
    keys, which get the prefix, and the tokens, which are decoded. -/
def rewrittenFields : List Bytes :=
  [ascii "prefix", ascii "marker", ascii "start-after", ascii "key-marker",
    ascii "continuation-token", ascii "upload-id-marker", ascii "uploadId", ascii "versionId"]

/-- Two queries no row can tell apart, up to an added `prefix`. -/
structure SameShape (q q' : Values) : Prop where
  single : q.Single
  single' : q'.Single
  other : ∀ k, k ∉ rewrittenFields → q'.lookup k = q.lookup k
  present : ∀ k ∈ rewrittenFields, k ≠ ascii "prefix" → (k ∈ q' ↔ k ∈ q)
  prefixed : ascii "prefix" ∈ q → ascii "prefix" ∈ q'
  tokens : ∀ k ∈ [ascii "uploadId", ascii "versionId"], (q'.get k = [] ↔ q.get k = [])

/-- A row that asks nothing of a rewritten parameter beyond a non-empty token. -/
def insensitive (required : List (Bytes × Bytes)) : Bool :=
  required.all (fun kw => !rewrittenFields.contains kw.1 ||
    ([ascii "uploadId", ascii "versionId"].contains kw.1 && kw.2 == [0]))

/-- The same parameters are there, the prefix perhaps apart. -/
theorem SameShape.mem_iff (h : SameShape q q') {k : Bytes}
    (hk : k ≠ ascii "prefix" ∨ (ascii "prefix" ∈ q' ↔ ascii "prefix" ∈ q)) :
    k ∈ q' ↔ k ∈ q := by
  by_cases hr : k ∈ rewrittenFields
  · by_cases hp : k = ascii "prefix"
    · rcases hk with hk | hk
      · exact absurd hp hk
      · rw [hp]
        exact hk
    · exact h.present k hr hp
  · rw [← AList.lookup_isSome, ← AList.lookup_isSome, h.other k hr]

/-- Those that are not rewritten have the same values. -/
theorem SameShape.get_eq (h : SameShape q q') {k : Bytes} (hk : k ∉ rewrittenFields) :
    q'.get k = q.get k := by
  rw [Values.get, Values.get, h.other k hk]

/-- Such a row holds of both queries or of neither. -/
theorem SameShape.matches_eq (h : SameShape q q') {xID : Bytes} {required : List (Bytes × Bytes)}
    {optional : List Bytes} (hrow : insensitive required = true)
    (hp : ascii "prefix" ∈ optional ∨ (ascii "prefix" ∈ q' ↔ ascii "prefix" ∈ q)) :
    queryMatchesWithValue q' xID required optional =
      queryMatchesWithValue q xID required optional := by
  have hpx : xIDKey ≠ ascii "prefix" := by decide
  have hxr : xIDKey ∉ rewrittenFields := by decide
  -- what a row requires is not rewritten, or is a token that only has to be there
  have hreq : ∀ kw ∈ required, (kw.1 ∈ q' ∧ wantedValue kw.2 [q'.get kw.1] = true ↔
      kw.1 ∈ q ∧ wantedValue kw.2 [q.get kw.1] = true) := by
    intro kw hkw
    have hok := List.all_eq_true.mp hrow kw hkw
    rw [Bool.or_eq_true, Bool.and_eq_true, List.contains_iff_mem, Bool.not_eq_true',
      beq_iff_eq] at hok
    rcases hok with hplain | ⟨htok, hwant⟩
    · have hk : kw.1 ∉ rewrittenFields := by
        intro hm
        rw [List.contains_iff_mem.mpr hm] at hplain
        exact nomatch hplain
      have hne : kw.1 ≠ ascii "prefix" := by
        intro he
        rw [he] at hk
        exact hk (by decide)
      rw [h.get_eq hk, h.mem_iff (Or.inl hne)]
    · have hne : kw.1 ≠ ascii "prefix" := by
        intro he
        rw [he] at htok
        exact absurd htok (by decide)
      have htext : (wantedValue kw.2 [q'.get kw.1] = true) ↔
          (wantedValue kw.2 [q.get kw.1] = true) := by
        simp only [wantedValue, hwant, if_true, ne_eq, decide_not, Bool.not_eq_true',
          decide_eq_false_iff_not, h.tokens kw.1 htok]
      rw [h.mem_iff (Or.inl hne), htext]
  rw [Bool.eq_iff_iff, queryMatchesWithValue_iff h.single', queryMatchesWithValue_iff h.single]
  refine and_congr (forall₂_congr hreq) (and_congr ⟨?_, ?_⟩ ?_)
  · -- the keys of the second query cover those of the first
    intro hall k hk
    by_cases hkp : k = ascii "prefix"
    · exact hall k (hkp ▸ h.prefixed (hkp ▸ hk))
    · exact hall k ((h.mem_iff (Or.inl hkp)).mpr hk)
  · intro hall k hk
    by_cases hkp : k = ascii "prefix"
    · rcases hp with hp | hp
      · exact Or.inr (Or.inl (hkp ▸ hp))
      · exact hall k ((h.mem_iff (Or.inr hp)).mp hk)
    · exact hall k ((h.mem_iff (Or.inl hkp)).mp hk)
  · rw [h.mem_iff (Or.inl hpx), h.get_eq hxr]

/-- So a row of flags matches both queries or neither. -/
theorem SameShape.flags_eq (h : SameShape q q') {xID : Bytes} {flags optional : List Bytes}
    (hrow : insensitive (flags.map (fun key => (key, []))) = true)
    (hp : ascii "prefix" ∈ optional ∨ (ascii "prefix" ∈ q' ↔ ascii "prefix" ∈ q)) :
    queryMatches q' xID flags optional = queryMatches q xID flags optional :=
  h.matches_eq hrow hp

/-- And so does a row of values. -/
theorem SameShape.nonEmpty_eq (h : SameShape q q') {xID : Bytes} {required optional : List Bytes}
    (hrow : insensitive (required.map (fun key => (key, [0]))) = true)
    (hp : ascii "prefix" ∈ optional ∨ (ascii "prefix" ∈ q' ↔ ascii "prefix" ∈ q)) :
    queryMatchesNonEmpty q' xID required optional = queryMatchesNonEmpty q xID required optional :=
  h.matches_eq hrow hp

/-- One row on two queries of one shape. -/
theorem SameShape.queryHolds_eq (h : SameShape q q') (kind : OperationKind)
    (hp : kind.lists = true ∨ (ascii "prefix" ∈ q' ↔ ascii "prefix" ∈ q)) :
    kind.queryHolds q' = kind.queryHolds q := by
  cases kind with
  | listMultipartUploads => exact h.flags_eq (by decide) (Or.inl (by decide))
  | listObjectsV2 => exact h.matches_eq (by decide) (Or.inl (by decide))
  | listObjects => exact h.flags_eq (by decide) (Or.inl (by decide))
  | listBuckets | createBucket | headBucket | getObject | headObject | putObject | putObjectACL
  | putObjectTagging | copyObject | deleteObject | createMultipartUpload =>
      exact h.flags_eq (by decide) (hp.imp_left (fun hl => absurd hl (by decide)))
  | getObjectVersion | headObjectVersion | deleteObjectVersion | uploadPart | listParts
  | completeMultipartUpload | abortMultipartUpload =>
      exact h.nonEmpty_eq (by decide) (hp.imp_left (fun hl => absurd hl (by decide)))

/-- **THE ROW SURVIVES THE REWRITE**: queries of one shape select the same operation,
    where `prefix` may have been added only for a listing. -/
theorem selectKind_congr (h : SameShape q q') (target : PathClass) (method : Bytes)
    (copy : Bool)
    (hp : (target = .bucket ∧ method = methodGet) ∨
      (ascii "prefix" ∈ q' ↔ ascii "prefix" ∈ q)) :
    selectKind target method copy q' = selectKind target method copy q := by
  have hrow : ∀ kind ∈ candidates target method copy,
      kind.queryHolds q' = kind.queryHolds q := by
    intro kind hkind
    refine h.queryHolds_eq kind (hp.imp_left ?_)
    rintro ⟨rfl, rfl⟩
    revert kind
    cases copy with
    | true | false => decide
  have hfind : ∀ kinds : List OperationKind,
      (∀ kind ∈ kinds, kind.queryHolds q' = kind.queryHolds q) →
      kinds.find? (fun kind => kind.queryHolds q') =
        kinds.find? (fun kind => kind.queryHolds q) := by
    intro kinds
    induction kinds with
    | nil => exact fun _ => rfl
    | cons kind kinds ih =>
        intro hk
        rw [List.find?_cons, List.find?_cons, hk kind List.mem_cons_self,
          ih (fun kind hkind => hk kind (List.mem_cons_of_mem _ hkind))]
  exact hfind _ hrow

end

end S3
