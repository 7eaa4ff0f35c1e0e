import VBuckets.SigningProofs
import VBuckets.CanonicalProofs
import VBuckets.ConfinementProofs

/-! # The path on the wire

    `buildOutboundURL` sets the decoded path of a URL, and `net/url` chooses its spelling:
    both the request line and the canonical request of the signature use `EscapedPath`.
    SigV4 asks for another spelling, `awsURIEncode` of each segment.

    The two escape bytes one at a time, so they are compared byte by byte: they differ on
    eight bytes, which a path may hold as they are and SigV4 escapes. -/

namespace S3

open ByteString Url Http Mapping

/-! ## Two spellings of a path -/

/-- The canonical URI of SigV4: each segment of the path encoded. -/
def awsPath (path : Bytes) : Bytes :=
  47 :: join 47 ((split 47 (path.drop 1)).map awsURIEncode)

/-- The bytes `$ & + , : ; = @`. -/
def reservedInPath (b : UInt8) : Bool :=
  b == 36 || b == 38 || b == 43 || b == 44 || b == 58 || b == 59 || b == 61 || b == 64

/-- One byte of a path as SigV4 spells it. -/
def awsByte (b : UInt8) : Bytes := if b = 47 then [47] else awsURIEncode [b]

/-- One byte of a path as `net/url` spells it. -/
def pathByte (b : UInt8) : Bytes := if shouldEscape b .path then escapeByte b else [b]

theorem escape_path_eq (s : Bytes) : escape s .path = s.flatMap pathByte := by
  induction s with
  | nil => rfl
  | cons b s ih =>
      rw [escape, List.flatMap_cons, ← ih, pathByte, if_neg (by simp)]
      split <;> rfl

theorem awsURIEncode_cons (b : UInt8) (s : Bytes) :
    awsURIEncode (b :: s) = awsURIEncode [b] ++ awsURIEncode s := by
  simp [awsURIEncode]

theorem join_map_split (s : Bytes) :
    join 47 ((split 47 s).map awsURIEncode) = s.flatMap awsByte := by
  induction s with
  | nil => rfl
  | cons b s ih =>
      obtain ⟨w, ws, hsplit⟩ := List.exists_cons_of_ne_nil (split_ne_nil 47 s)
      rw [hsplit, List.map_cons, join_cons] at ih
      rw [List.flatMap_cons, ← ih, split, awsByte, hsplit]
      by_cases hb : b = 47
      · rw [if_pos hb, if_pos hb, List.map_cons, join_cons]
        simp [awsURIEncode]
      · rw [if_neg hb, if_neg hb]
        simp only []
        rw [List.map_cons, join_cons, awsURIEncode_cons b w, List.append_assoc]

/-- The two spellings of a byte: the same, or differing in their first character. -/
theorem pathByte_eq (b : UInt8) : (reservedInPath b = false → pathByte b = awsByte b) ∧
    (reservedInPath b = true → pathByte b ≠ [] ∧ awsByte b ≠ [] ∧
      (pathByte b).head? ≠ (awsByte b).head?) :=
  forall_byte (P := fun b => (reservedInPath b = false → pathByte b = awsByte b) ∧
    (reservedInPath b = true → pathByte b ≠ [] ∧ awsByte b ≠ [] ∧
      (pathByte b).head? ≠ (awsByte b).head?)) (by decide +kernel) b

theorem flatMap_pathByte_iff (s : Bytes) :
    s.flatMap pathByte = s.flatMap awsByte ↔ ∀ b ∈ s, reservedInPath b = false := by
  induction s with
  | nil => simp
  | cons b s ih =>
      rw [List.flatMap_cons, List.flatMap_cons, List.forall_mem_cons, ← ih]
      cases hb : reservedInPath b with
      | false =>
          rw [(pathByte_eq b).1 hb, List.append_cancel_left_eq]
          simp
      | true =>
          obtain ⟨hne, hne', hhead⟩ := (pathByte_eq b).2 hb
          refine ⟨fun h => absurd ?_ hhead, fun h => nomatch h.1⟩
          have hheads := congrArg List.head? h
          rwa [List.head?_append_of_ne_nil _ hne, List.head?_append_of_ne_nil _ hne'] at hheads

/-- The spellings of an absolute path agree exactly when it holds no reserved byte. -/
theorem escape_eq_awsPath_iff (s : Bytes) :
    escape (47 :: s) .path = awsPath (47 :: s) ↔ ∀ b ∈ s, reservedInPath b = false := by
  rw [escape_slash, awsPath, List.drop_one, List.tail_cons, List.cons.injEq, join_map_split,
    escape_path_eq, flatMap_pathByte_iff]
  exact ⟨fun h => h.2, fun h => ⟨rfl, h⟩⟩

/-! ## The path of a real request -/

/-- The canonical URI of a request: the second line of what is signed. -/
def CanonicalURI (r : Request) (signedHeaders : List Bytes) (path : Bytes) : Prop :=
  ∃ rest, buildCanonicalRequest r signedHeaders = r.method ++ 10 :: (path ++ 10 :: rest)

theorem canonicalURI_path (r : Request) (signedHeaders : List Bytes) :
    CanonicalURI r signedHeaders (canonicalPath r.url) :=
  ⟨_, buildCanonicalRequest_eq r signedHeaders⟩

/-- Requests for a virtual key go out under the SigV4 spelling of their real path. -/
structure AwsEncoded (hp : HostParser) (cr : Crypto) (mapping : Option VBucketConfig)
    (cfg : VBucketConfig) (objectKey : Bytes) : Prop where
  /-- The text of the URL, whatever the query. -/
  wire : ∀ rawQuery endpoint, parseEndpoint hp cfg.realEndpoint = some endpoint →
    buildOutboundURL hp cfg (cfg.realPrefix ++ objectKey) rawQuery =
      some (endpoint.scheme ++ ascii "://" ++ escape (outboundHost cfg endpoint.host) .host ++
        awsPath (outboundPath cfg (cfg.realPrefix ++ objectKey)) ++ queryPart rawQuery)
  /-- The canonical URI `signRequest` hashes, for every planned request. -/
  signed : ∀ r bucket plan out tokens now, planS3Operation r bucket objectKey = .ok plan →
    plan.kind.pathClass = .object → outboundRequest hp cr r plan mapping = .ok out →
    CanonicalURI (datedRequest (out.request tokens) now)
      (signedHeaderNames (datedRequest (out.request tokens) now).header)
      (awsPath (outboundPath cfg (cfg.realPrefix ++ objectKey)))

section
variable {hp : HostParser} {cr : Crypto} {mapping : Option VBucketConfig} {cfg : VBucketConfig}
  {objectKey : Bytes}

theorem reservedInPath_bucket {bucket : Bytes} (h : isValidBucketName bucket = true) :
    ∀ b ∈ bucket, reservedInPath b = false := by
  intro b hb
  simp only [isValidBucketName, Bool.and_eq_true] at h
  have hbyte : isBucketByte b = true → reservedInPath b = false :=
    forall_byte (P := fun b => isBucketByte b = true → reservedInPath b = false)
      (by decide +kernel) b
  exact hbyte (List.all_eq_true.mp h.1.1.1.1.1.2 b hb)

/-- The real path of a key agrees in both spellings exactly when the key does. -/
theorem escape_outboundPath_iff (h : isValidBucketName cfg.realBucket = true) (key : Bytes) :
    escape (outboundPath cfg key) .path = awsPath (outboundPath cfg key) ↔
      ∀ b ∈ key, reservedInPath b = false := by
  rw [outboundPath]
  cases cfg.realUsePathStyle with
  | true =>
      have hbucket := reservedInPath_bucket h
      refine (escape_eq_awsPath_iff (cfg.realBucket ++ _)).trans ?_
      rw [List.forall_mem_append]
      by_cases hkey : key = []
      · rw [if_neg (fun hne => hne hkey), hkey]
        exact ⟨fun hall => hall.2, fun hall => ⟨hbucket, hall⟩⟩
      · rw [if_pos hkey]
        exact ⟨fun hall b hb => hall.2 b (List.mem_cons_of_mem _ hb),
          fun hall => ⟨hbucket, List.forall_mem_cons.mpr ⟨rfl, hall⟩⟩⟩
  | false => exact escape_eq_awsPath_iff key

/-- The text of the URL, with its path in the spelling of `net/url`. -/
theorem buildOutboundURL_text (h : Normalized hp cfg) (key rawQuery : Bytes) {endpoint : URL}
    (hend : parseEndpoint hp cfg.realEndpoint = some endpoint) :
    buildOutboundURL hp cfg key rawQuery =
      some (endpoint.scheme ++ ascii "://" ++ escape (outboundHost cfg endpoint.host) .host ++
        escape (outboundPath cfg key) .path ++ queryPart rawQuery) := by
  obtain ⟨scheme, host, -, hparse, -⟩ := parseEndpoint_spec h
  obtain rfl := Option.some.inj (hparse.symm.trans hend)
  obtain ⟨t, ht⟩ := outboundPath_absolute cfg key
  rw [buildOutboundURL, hparse, Option.map_some, string_plain rfl (Or.inr ⟨t, ht⟩) rfl rfl]

/-- The canonical URI of a sent request is its path in the spelling of `net/url`. -/
theorem canonicalURI_sent {r : Request} {bucket : Bytes} {plan : S3OperationPlan}
    {out : OutboundRequest} (hplan : Planned r bucket objectKey plan)
    (hobject : plan.kind.pathClass = .object) (hsent : Sent hp cr r plan mapping cfg out)
    (tokens : ∀ name ∈ out.header, isToken name = true) (now : Time.Instant) :
    CanonicalURI (datedRequest (out.request tokens) now)
      (signedHeaderNames (datedRequest (out.request tokens) now).header)
      (escape (outboundPath cfg (cfg.realPrefix ++ objectKey)) .path) := by
  have hn := normalize_spec hsent.mapping
  obtain ⟨rawQuery, text, hraw, htext, hurl⟩ := hsent.query
  have hplain := (rewritten_realizes hplan hn hraw).1
  obtain ⟨scheme, host, -, -, -, hbuild, hparse⟩ :=
    buildOutboundURL_spec hn (outboundKey cfg plan) hplain
  obtain rfl := Option.some.inj (hbuild.symm.trans htext)
  rw [hparse] at hurl
  obtain ⟨host', -, hout⟩ := Option.map_eq_some_iff.mp hurl
  have hkey : outboundKey cfg plan = cfg.realPrefix ++ objectKey := by
    rw [outboundKey_eq hplan hn, if_pos hobject, hplan.fields]
    rfl
  rw [hkey] at hout
  obtain ⟨t, ht⟩ := outboundPath_absolute cfg (cfg.realPrefix ++ objectKey)
  have hpath : canonicalPath out.url =
      escape (outboundPath cfg (cfg.realPrefix ++ objectKey)) .path := by
    rw [← hout, canonicalPath, escapedPath_plain rfl (Or.inr ⟨t, ht⟩)]
    show (if escape (outboundPath cfg (cfg.realPrefix ++ objectKey)) .path = [] then _ else _) = _
    rw [ht, escape_slash, if_neg (by simp)]
  rw [← hpath]
  exact canonicalURI_path _ _

/-- **THE CANONICAL URI** of an object request is the one SigV4 asks for exactly when the
    real key holds none of the bytes `$ & + , : ; = @`. -/
theorem aws_encoded_iff (hcfg : normalizeVBucketConfig hp cr mapping = .ok cfg)
    (objectKey : Bytes) :
    AwsEncoded hp cr mapping cfg objectKey ↔
      ∀ b ∈ cfg.realPrefix ++ objectKey, reservedInPath b = false := by
  have hn := normalize_spec hcfg
  rw [← escape_outboundPath_iff hn.bucket]
  constructor
  · intro h
    obtain ⟨scheme, host, -, hend, -⟩ := parseEndpoint_spec hn
    have htext := (buildOutboundURL_text hn _ [] hend).symm.trans (h.wire [] _ hend)
    simpa using htext
  · intro hspell
    refine ⟨?_, ?_⟩
    · intro rawQuery endpoint hend
      rw [buildOutboundURL_text hn _ rawQuery hend, hspell]
    · intro r bucket plan out tokens now hplan hobject hout
      obtain ⟨cfg', hsent⟩ := outboundRequest_spec hout
      obtain rfl : cfg' = cfg := Except.ok.inj (hsent.mapping.symm.trans hcfg)
      rw [← hspell]
      exact canonicalURI_sent (plan_spec hplan) hobject hsent tokens now

end

theorem storeConfig_normalized :
    normalizeVBucketConfig storeHosts sampleCrypto (some storeConfig) = .ok storeConfig := by
  decide +kernel

/-- A key with blanks and parentheses is spelled as SigV4 asks. -/
theorem aws_encoded_of_report :
    AwsEncoded storeHosts sampleCrypto (some storeConfig) storeConfig
      (ascii "reports/june (1).txt") :=
  (aws_encoded_iff storeConfig_normalized _).mpr (by decide +kernel)

/-- The key `a+b` goes out, and is signed, with its plus sign as it is. -/
theorem plus_sign_left :
    validateVirtualObjectKey (ascii "a+b") = .ok () ∧
    normalizeVBucketConfig storeHosts sampleCrypto (some storeConfig) = .ok storeConfig ∧
    buildOutboundURL storeHosts storeConfig (storeConfig.realPrefix ++ ascii "a+b") [] =
      some (ascii "https://store.example/real-bucket/tenant/a+b") ∧
    awsPath (outboundPath storeConfig (storeConfig.realPrefix ++ ascii "a+b")) =
      ascii "/real-bucket/tenant/a%2Bb" ∧
    ¬ AwsEncoded storeHosts sampleCrypto (some storeConfig) storeConfig (ascii "a+b") := by
  have hbuild : buildOutboundURL storeHosts storeConfig (storeConfig.realPrefix ++ ascii "a+b") [] =
      some (ascii "https://store.example/real-bucket/tenant/a+b") := by
    decide +kernel
  refine ⟨by decide +kernel, storeConfig_normalized, hbuild, by decide +kernel, ?_⟩
  intro h
  obtain ⟨scheme, host, -, hend, -⟩ := parseEndpoint_spec (normalize_spec storeConfig_normalized)
  have hwire := h.wire [] _ hend
  rw [buildOutboundURL_text (normalize_spec storeConfig_normalized) _ _ hend] at hwire
  simp only [Option.some.injEq, List.append_cancel_left_eq, List.append_cancel_right_eq] at hwire
  exact absurd hwire (by decide +kernel)

end S3
