import VBuckets.AuthorizationProofs
import VBuckets.ForwardingProofs
import VBuckets.CalendarProofs

/-! # Outbound signatures

    `signRequest` (`http_server/s3_auth.go`) and its agreement with the verifier: the
    `Authorization` header it writes is read back field by field, and the request it
    leaves is one `verifySignatureAtTime` accepts under the same secret.

    The framing holds because of what each field cannot contain: header names are
    tokens, and a normalised mapping has no comma, slash or blank in its access key and
    region. -/

namespace S3

open ByteString Url Http Mapping

/-! ## The signer -/

/-- `Header.Set` on a request. -/
def Request.setHeader (r : Request) (name value : Bytes)
    (hname : isToken (canonicalHeaderKey name) = true) : Request :=
  { r with
    header := r.header.setOne name value
    tokens := by
      intro n hn
      rcases (AList.mem_insert _).mp hn with rfl | hn
      · exact hname
      · exact r.tokens n hn }

/-- The names `signRequest` signs: `host` and every header present. -/
def signedHeaderNames (header : Header) : List Bytes :=
  (ascii "host" :: (header.keys.map toLower).filter (· ≠ ascii "host")).mergeSort bytesLE

/-- The request with its date and payload hash, before the signature. -/
def datedRequest (r : Request) (now : Time.Instant) : Request :=
  (r.setHeader (ascii "X-Amz-Date") (Time.formatAmzDate now) (by decide)).setHeader
    (ascii "x-amz-content-sha256") (ascii "UNSIGNED-PAYLOAD") (by decide)

/-- Date and payload header are set first, since they are signed with the others; every header
    is signed. -/
def signRequest (cr : Crypto) (r : Request) (accessKey secretKey region : Bytes)
    (now : Time.Instant) : Request :=
  let datetime := Time.formatAmzDate now
  let date := Time.formatDate now
  let r := datedRequest r now
  let signedHeaders := signedHeaderNames r.header
  let scope := date ++ ascii "/" ++ region ++ ascii "/s3/aws4_request"
  let stringToSign := buildStringToSign cr datetime scope (buildCanonicalRequest r signedHeaders)
  let signingKey := computeSigningKey cr secretKey date region (ascii "s3")
  let signature := hexEncode (cr.hmacSHA256 signingKey stringToSign)
  r.setHeader (ascii "Authorization") (authorizationText accessKey scope signedHeaders signature)
    (by decide)

/-! ## The order of names -/

theorem mergeSort_strict {names : List Bytes} (h : names.Nodup) :
    (names.mergeSort bytesLE).Pairwise (fun a b => bytesLE b a = false) := by
  have hsorted := List.pairwise_mergeSort bytesLE_trans bytesLE_total names
  have hnodup : (names.mergeSort bytesLE).Nodup :=
    (List.mergeSort_perm names bytesLE).nodup_iff.mpr h
  refine (hsorted.and hnodup).imp ?_
  rintro a b ⟨hab, hne⟩
  rw [Bool.eq_false_iff]
  exact fun hba => hne (bytesLE_antisymm hab hba)

/-! ## The names that are signed -/

section
variable {header : Header}

/-- Canonical names of tokens are tokens. -/
theorem isToken_canonicalHeaderKey {name : Bytes} (h : isToken name = true) :
    isToken (canonicalHeaderKey name) = true := by
  have hall := all_of_lower (lower_canonicalHeaderKey name).symm (isToken_all h)
  have hlen := congrArg List.length (lower_canonicalHeaderKey name)
  rw [List.length_map, List.length_map] at hlen
  simp only [isToken, Bool.and_eq_true, decide_eq_true_eq] at h ⊢
  refine ⟨?_, hall⟩
  intro hnil
  rw [hnil] at hlen
  exact h.1 (List.length_eq_zero_iff.mp hlen.symm)

/-- The lower-case spelling of a token. -/
theorem toLower_token {name : Bytes} (h : isToken name = true) :
    toLower name ≠ [] ∧ toLower (toLower name) = toLower name ∧
      (toLower name).all isTokenByte = true := by
  have hall := isToken_all h
  have hlow := toLower_of_all hall
  have hlowAll : (name.map lowerASCII).all isTokenByte = true := by
    rw [List.all_map]
    exact (congrArg name.all (funext isTokenByte_lowerASCII)).trans hall
  have hidem : (name.map lowerASCII).map lowerASCII = name.map lowerASCII := by
    rw [List.map_map]
    exact List.map_congr_left (fun c _ => lowerASCII_lowerASCII c)
  rw [hlow]
  refine ⟨?_, ?_, hlowAll⟩
  · simp only [isToken, Bool.and_eq_true, decide_eq_true_eq] at h
    exact fun hnil => h.1 (List.map_eq_nil_iff.mp hnil)
  · rw [toLower_of_all hlowAll, hidem]

/-- Two canonical names of one lower-case spelling are one name. -/
theorem toLower_injOn (hc : header.Canonical) {a b : Bytes} (ha : a ∈ header) (hb : b ∈ header)
    (h : toLower a = toLower b) : a = b := by
  obtain ⟨hta, hca⟩ := hc a ha
  obtain ⟨htb, hcb⟩ := hc b hb
  rw [toLower_of_all (isToken_all hta), toLower_of_all (isToken_all htb)] at h
  rw [← hca, ← hcb]
  exact canonicalHeaderKey_congr h (isToken_all hta)

/-- The host and every header, in lower case. -/
theorem mem_signedHeaderNames {name : Bytes} :
    name ∈ signedHeaderNames header ↔
      name = ascii "host" ∨ ∃ n ∈ header, toLower n = name := by
  rw [signedHeaderNames, List.mem_mergeSort, List.mem_cons, List.mem_filter, List.mem_map]
  constructor
  · rintro (h | ⟨⟨n, hn, hlow⟩, _⟩)
    · exact Or.inl h
    · exact Or.inr ⟨n, AList.mem_keys.mpr hn, hlow⟩
  · rintro (h | ⟨n, hn, hlow⟩)
    · exact Or.inl h
    · by_cases hhost : name = ascii "host"
      · exact Or.inl hhost
      · exact Or.inr ⟨⟨n, AList.mem_keys.mp hn, hlow⟩, decide_eq_true hhost⟩

/-- In strict order: canonical names do not differ in letter case only. -/
theorem signedHeaderNames_sorted (hc : header.Canonical) :
    (signedHeaderNames header).Pairwise (fun a b => bytesLE b a = false) := by
  refine mergeSort_strict (List.nodup_cons.mpr ⟨?_, ?_⟩)
  · intro hmem
    exact absurd rfl (of_decide_eq_true (List.mem_filter.mp hmem).2)
  · refine List.Nodup.filter _ (List.Nodup.map_on ?_ header.nodupKeys)
    intro a ha b hb h
    exact toLower_injOn hc (AList.mem_keys.mpr ha) (AList.mem_keys.mpr hb) h

/-- Each of them is a lower-case token, as the verifier asks for. -/
theorem signedHeaderNames_lower (hc : header.Canonical) {name : Bytes}
    (h : name ∈ signedHeaderNames header) :
    name ≠ [] ∧ toLower name = name ∧ name.all isTokenByte = true := by
  rcases mem_signedHeaderNames.mp h with rfl | ⟨n, hn, rfl⟩
  · decide
  · exact toLower_token (hc n hn).1

/-- The signer's names are names the verifier accepts. -/
theorem validateSignedHeaders_names (hc : header.Canonical)
    (hdate : ascii "X-Amz-Date" ∈ header) :
    validateSignedHeaders (signedHeaderNames header) = .ok () := by
  have hhost : ascii "host" ∈ signedHeaderNames header := mem_signedHeaderNames.mpr (Or.inl rfl)
  have hsigned : ascii "x-amz-date" ∈ signedHeaderNames header :=
    mem_signedHeaderNames.mpr (Or.inr ⟨_, hdate, by decide⟩)
  refine validateSignedHeadersBy_ok_iff.mpr ⟨?_, signedHeaderNames_sorted hc, hhost, hsigned⟩
  intro name hname
  obtain ⟨hne, hlow, _⟩ := signedHeaderNames_lower hc hname
  exact ⟨hne, hlow⟩

end

/-! ## Reading the header back -/

/-- What the fields of a credential must be like to be read back. -/
structure Framed (accessKey date region : Bytes) : Prop where
  accessKey_valid : validAccessKeyID accessKey = true
  date_digits : date ≠ [] ∧ date.all isDigitASCII = true
  date_valid : (Time.parseDate date).isSome = true
  region_valid : validBackendRegion region = true

/-- Neither a slash nor a comma. -/
def Plain (s : Bytes) : Prop := (47 : UInt8) ∉ s ∧ (44 : UInt8) ∉ s

/-- A text of bytes that are neither slash nor comma is plain. -/
theorem plain_of_all {p : UInt8 → Bool} {s : Bytes} (h : s.all p = true) (hslash : p 47 = false)
    (hcomma : p 44 = false) : Plain s := by
  constructor
  · intro hm
    exact Bool.noConfusion (hslash.symm.trans (List.all_eq_true.mp h 47 hm))
  · intro hm
    exact Bool.noConfusion (hcomma.symm.trans (List.all_eq_true.mp h 44 hm))

section
variable {accessKey date region : Bytes}

/-- The fields of a credential do not break its frame. -/
theorem Framed.plain (h : Framed accessKey date region) :
    Plain accessKey ∧ Plain date ∧ Plain region := by
  have hkey := h.accessKey_valid
  have hregion := h.region_valid
  simp only [validAccessKeyID, Bool.and_eq_true] at hkey
  simp only [validBackendRegion, Bool.and_eq_true] at hregion
  exact ⟨plain_of_all hkey.2 rfl rfl, plain_of_all h.date_digits.2 rfl rfl,
    plain_of_all hregion.2 rfl rfl⟩

/-- A hash in hexadecimal. -/
theorem hexEncode_spec (s : Bytes) :
    (hexEncode s).length = 2 * s.length ∧ (hexEncode s).all isLowerHex = true := by
  have hbyte : ∀ c : UInt8, isLowerHex (lowerHex (c >>> 4)) = true ∧
      isLowerHex (lowerHex (c &&& 15)) = true := fun c =>
    forall_byte (P := fun c => isLowerHex (lowerHex (c >>> 4)) = true ∧
      isLowerHex (lowerHex (c &&& 15)) = true) (by decide +kernel) c
  induction s with
  | nil => exact ⟨rfl, rfl⟩
  | cons c s ih =>
      have hcons : hexEncode (c :: s) =
          lowerHex (c >>> 4) :: lowerHex (c &&& 15) :: hexEncode s := rfl
      rw [hcons]
      constructor
      · rw [List.length_cons, List.length_cons, ih.1, List.length_cons]
        omega
      · rw [List.all_cons, List.all_cons, (hbyte c).1, (hbyte c).2, ih.2]
        rfl

/-- **THE HEADER READS BACK**: the `Authorization` text of framed fields, checked names
    and a hash gives those fields. -/
theorem parseAuthorizationHeader_text (h : Framed accessKey date region)
    {names : List Bytes} (hvalid : validateSignedHeaders names = .ok ())
    (hnames : ∀ name ∈ names, name.all isTokenByte = true) {hash : Bytes}
    (hhash : hash.length = 32) :
    parseAuthorizationHeader
        (authorizationText accessKey (scopeText date region) names (hexEncode hash)) =
      .ok
        { accessKeyID := accessKey, date := date, region := region, service := ascii "s3"
          signedHeaders := names, signature := hexEncode hash
          scope := scopeText date region } := by
  obtain ⟨-, -, hslash, hcomma⟩ := h.plain
  obtain ⟨hlen, hhex⟩ := hexEncode_spec hash
  have htoken : ∀ b : UInt8, isTokenByte b = false → ∀ name ∈ names, b ∉ name := by
    intro b hb name hname hm
    exact Bool.noConfusion (hb.symm.trans (List.all_eq_true.mp (hnames name hname) b hm))
  have hregion : region ≠ [] := by
    rintro rfl
    exact absurd h.region_valid (by decide)
  refine parseAuthorizationHeaderBy_ok_iff.mpr ⟨rfl, ?_⟩
  exact
    { accessKey := h.accessKey_valid
      date := h.date_valid
      digits := digits_of_parseDate h.date_valid
      region := ⟨hregion, hslash, commaFree_of_notMem hcomma⟩
      service := rfl
      scope := rfl
      names := validateSignedHeadersBy_ok_iff.mp hvalid
      separated := fun name hname =>
        ⟨htoken 59 rfl name hname, commaFree_of_notMem (htoken 44 rfl name hname)⟩
      signature := ⟨by rw [hlen, hhash], hhex⟩ }

end

/-! ## The signed request -/

/-- What the verifier needs of the headers it is given. -/
structure Signable (header : Header) : Prop where
  canonical : header.Canonical
  unsigned : ascii "Authorization" ∉ header
  token : ascii "X-Amz-Security-Token" ∉ header
  trailer : ascii "X-Amz-Trailer" ∉ header

theorem mem_setOne {header : Header} {key value name : Bytes} :
    name ∈ header.setOne key value ↔ name = canonicalHeaderKey key ∨ name ∈ header :=
  AList.mem_insert _

theorem values_eq_at {header : Header} {key name : Bytes} (h : canonicalHeaderKey key = name) :
    header.values key = header.at_ name := by
  rw [← h]
  rfl

section
variable {r : Request} {now : Time.Instant}

theorem mem_datedRequest {name : Bytes} :
    name ∈ (datedRequest r now).header ↔
      name = ascii "X-Amz-Content-Sha256" ∨ name = ascii "X-Amz-Date" ∨ name ∈ r.header := by
  have hcanon : canonicalHeaderKey (ascii "x-amz-content-sha256") =
      ascii "X-Amz-Content-Sha256" ∧
      canonicalHeaderKey (ascii "X-Amz-Date") = ascii "X-Amz-Date" := by
    decide
  rw [datedRequest, Request.setHeader, Request.setHeader]
  simp only [mem_setOne, hcanon.1, hcanon.2]

/-- The date and the payload hash are two more plain headers. -/
theorem Signable.dated (h : Signable r.header) (now : Time.Instant) :
    Signable (datedRequest r now).header := by
  have hnot : ∀ name : Bytes, name ≠ ascii "X-Amz-Content-Sha256" → name ≠ ascii "X-Amz-Date" →
      name ∉ r.header → name ∉ (datedRequest r now).header := by
    intro name hhash hdate hname hm
    rcases mem_datedRequest.mp hm with hm | hm | hm
    · exact hhash hm
    · exact hdate hm
    · exact hname hm
  refine ⟨?_, hnot _ (by decide) (by decide) h.unsigned, hnot _ (by decide) (by decide) h.token,
    hnot _ (by decide) (by decide) h.trailer⟩
  intro name hname
  rcases mem_datedRequest.mp hname with rfl | rfl | hname
  · decide
  · decide
  · exact h.canonical name hname

/-- They hold the time and the fixed payload mark. -/
theorem datedRequest_at :
    (datedRequest r now).header.at_ (ascii "X-Amz-Date") = [Time.formatAmzDate now] ∧
    (datedRequest r now).header.at_ (ascii "X-Amz-Content-Sha256") =
      [ascii "UNSIGNED-PAYLOAD"] := by
  constructor
  · rw [datedRequest, Request.setHeader, Request.setHeader, Header.at_setOne,
      if_neg (by decide), Header.at_setOne, if_pos (by decide)]
  · rw [datedRequest, Request.setHeader, Header.at_setOne, if_pos (by decide)]

theorem values_setHeader {key value name : Bytes}
    (hname : isToken (canonicalHeaderKey key) = true)
    (h : canonicalHeaderKey name ≠ canonicalHeaderKey key) :
    (r.setHeader key value hname).header.values name = r.header.values name := by
  rw [values_eq_at rfl, Request.setHeader, Header.at_setOne, if_neg h]
  rfl

/-- A header that is not signed is not in the canonical request. -/
theorem buildCanonicalRequest_setHeader {key value : Bytes}
    (hname : isToken (canonicalHeaderKey key) = true) {names : List Bytes}
    (h : ∀ name ∈ ascii "x-amz-content-sha256" :: names,
      canonicalHeaderKey name ≠ canonicalHeaderKey key) :
    buildCanonicalRequest (r.setHeader key value hname) names = buildCanonicalRequest r names := by
  obtain ⟨hhash, hnames⟩ := List.forall_mem_cons.mp h
  have hline : ∀ name ∈ names, canonicalHeaderLine (r.setHeader key value hname) name =
      canonicalHeaderLine r name := by
    intro name hmem
    rw [canonicalHeaderLine, canonicalHeaderLine, signedValues, signedValues,
      values_setHeader hname (hnames name hmem)]
    rfl
  rw [buildCanonicalRequest, buildCanonicalRequest, values_setHeader hname hhash]
  simp only [List.flatMap, List.map_congr_left hline]
  rfl

/-- The spelling of a signed name leads back to its header. -/
theorem canonicalHeaderKey_signed {header : Header} (hc : header.Canonical) {name : Bytes}
    (h : name ∈ signedHeaderNames header) :
    name = ascii "host" ∨ canonicalHeaderKey name ∈ header := by
  rcases mem_signedHeaderNames.mp h with rfl | ⟨n, hn, rfl⟩
  · exact Or.inl rfl
  · obtain ⟨htoken, hcanon⟩ := hc n hn
    right
    rw [canonicalHeaderKey_toLower (isToken_all htoken), hcanon]
    exact hn

/-- Within the skew allowed a difference of times is not too large, and a difference that
    saturates is smaller than the real one. -/
theorem tooSkewed_eq_false {later stamp : Time.Instant} {maxSkew : Int}
    (h : 0 < maxSkew → (later - stamp).natAbs ≤ maxSkew) : tooSkewed later stamp maxSkew = false := by
  rw [Bool.eq_false_iff]
  intro hskewed
  simp only [tooSkewed, Bool.and_eq_true, decide_eq_true_eq] at hskewed
  obtain ⟨hpos, hlarge⟩ := hskewed
  have hbound := h hpos
  simp only [Time.sub, Time.neg, Time.minDuration, Time.maxDuration] at hlarge
  omega

end

section
variable {cr : Crypto} {r : Request} {accessKey secretKey region : Bytes} {now : Time.Instant}

/-- What a reader of the header finds. -/
def signedInfo (cr : Crypto) (r : Request) (accessKey secretKey region : Bytes)
    (now : Time.Instant) : AuthInfo where
  accessKeyID := accessKey
  date := Time.formatDate now
  region := region
  service := ascii "s3"
  signedHeaders := signedHeaderNames (datedRequest r now).header
  signature := signatureForCanonicalRequest cr (Time.formatAmzDate now)
    (scopeText (Time.formatDate now) region)
    (buildCanonicalRequest (datedRequest r now) (signedHeaderNames (datedRequest r now).header))
    (computeSigningKey cr secretKey (Time.formatDate now) region (ascii "s3"))
  scope := scopeText (Time.formatDate now) region

theorem signRequest_eq :
    signRequest cr r accessKey secretKey region now =
      (datedRequest r now).setHeader (ascii "Authorization")
        (authorizationText accessKey (scopeText (Time.formatDate now) region)
          (signedHeaderNames (datedRequest r now).header)
          (signedInfo cr r accessKey secretKey region now).signature) (by decide) := rfl

/-- **READ BACK**: the verifier reads the fields that the signer wrote. -/
theorem parse_signRequest (hs : Signable r.header)
    (hf : Framed accessKey (Time.formatDate now) region) :
    parseAuthorizationHeader (headerGet (signRequest cr r accessKey secretKey region now)
      (ascii "Authorization")) = .ok (signedInfo cr r accessKey secretKey region now) := by
  have hc := (hs.dated now).canonical
  have hnames := validateSignedHeaders_names hc (mem_datedRequest.mpr (Or.inr (Or.inl rfl)))
  rw [signRequest_eq, headerGet, values_eq_at rfl, Request.setHeader, Header.at_setOne,
    if_pos rfl]
  exact parseAuthorizationHeader_text hf hnames
    (fun name hname => (signedHeaderNames_lower hc hname).2.2) (cr.hmacSHA256_length _ _)

theorem values_signRequest {name : Bytes} (h : canonicalHeaderKey name ≠ ascii "Authorization") :
    (signRequest cr r accessKey secretKey region now).header.values name =
      (datedRequest r now).header.values name := by
  rw [signRequest_eq]
  exact values_setHeader _ h

/-- The verifier finds the time under either spelling of the name. -/
theorem date_signRequest {name : Bytes} (h : canonicalHeaderKey name = ascii "X-Amz-Date") :
    (signRequest cr r accessKey secretKey region now).header.values name =
      [Time.formatAmzDate now] := by
  rw [values_signRequest (by rw [h]; decide), values_eq_at h, datedRequest_at.1]

theorem amzDate_signRequest :
    headerGet (signRequest cr r accessKey secretKey region now) (ascii "X-Amz-Date") =
      Time.formatAmzDate now := by
  rw [headerGet, date_signRequest (by decide)]
  rfl

/-- Signer and verifier build the same canonical request: the authorization is not
    part of it. -/
theorem canonical_signRequest (hs : Signable r.header) :
    buildCanonicalRequest (signRequest cr r accessKey secretKey region now)
        (signedHeaderNames (datedRequest r now).header) =
      buildCanonicalRequest (datedRequest r now)
        (signedHeaderNames (datedRequest r now).header) := by
  have hdated := hs.dated now
  rw [signRequest_eq]
  refine buildCanonicalRequest_setHeader _ (List.forall_mem_cons.mpr ⟨by decide, ?_⟩)
  intro name hname heq
  rcases canonicalHeaderKey_signed hdated.canonical hname with rfl | hmem
  · exact absurd heq (by decide)
  · rw [heq] at hmem
    exact hdated.unsigned hmem

/-- Every `x-amz-` header is signed, as all headers are. -/
theorem requireSignedAmzHeaders_signRequest (hs : Signable r.header) :
    requireSignedAmzHeaders (signRequest cr r accessKey secretKey region now)
      (signedHeaderNames (datedRequest r now).header) = .ok () := by
  have hdated := hs.dated now
  have hnone : ((signRequest cr r accessKey secretKey region now).header.keys.map toLower).find?
      (fun lower => hasPrefix lower (ascii "x-amz-") && lower != ascii "x-amz-content-sha256" &&
        !((signedHeaderNames (datedRequest r now).header).map toLower).contains lower) = none := by
    rw [List.find?_eq_none]
    intro lower hlower
    obtain ⟨n, hn, rfl⟩ := List.mem_map.mp hlower
    rw [signRequest_eq] at hn
    rcases mem_setOne.mp (AList.mem_keys.mpr hn) with rfl | hn
    · have hother : hasPrefix (toLower (canonicalHeaderKey (ascii "Authorization")))
          (ascii "x-amz-") = false := by
        decide
      rw [hother]
      exact Bool.false_ne_true
    · -- every other header is signed
      have hmem : toLower n ∈ (signedHeaderNames (datedRequest r now).header).map toLower :=
        List.mem_map.mpr ⟨toLower n, mem_signedHeaderNames.mpr (Or.inr ⟨n, hn, rfl⟩),
          (toLower_token (hdated.canonical n hn).1).2.1⟩
      simp [hmem]
  rw [requireSignedAmzHeaders, hnone]

/-- So the verifier's checks of the headers pass. -/
theorem checkSignedRequest_signRequest (hs : Signable r.header) (htrailer : r.trailer = ∅) :
    checkSignedRequest (signRequest cr r accessKey secretKey region now)
      (signedInfo cr r accessKey secretKey region now) = .ok () := by
  have hdated := hs.dated now
  have hnames := validateSignedHeaders_names hdated.canonical
    (mem_datedRequest.mpr (Or.inr (Or.inl rfl)))
  have habsent : ∀ name : Bytes, canonicalHeaderKey name ∉ (datedRequest r now).header →
      (datedRequest r now).header.values name = [] := by
    intro name hnot
    rw [Header.values, AList.lookup_eq_none.mpr hnot]
    rfl
  -- the outbound headers have neither of the two the verifier refuses
  have htoken : (signRequest cr r accessKey secretKey region now).header.values
      (ascii "x-amz-security-token") = [] :=
    (values_signRequest (by decide)).trans (habsent _ hdated.token)
  have htrailers : (signRequest cr r accessKey secretKey region now).header.values
      (ascii "x-amz-trailer") = [] :=
    (values_signRequest (by decide)).trans (habsent _ hdated.trailer)
  have hnoTrailer : (signRequest cr r accessKey secretKey region now).trailer.keys = [] := by
    show r.trailer.keys = []
    rw [htrailer]
    rfl
  have hdate : (signRequest cr r accessKey secretKey region now).header.values
      (ascii "x-amz-date") = [Time.formatAmzDate now] := date_signRequest (by decide)
  have hhash : (signRequest cr r accessKey secretKey region now).header.values
      (ascii "x-amz-content-sha256") = [ascii "UNSIGNED-PAYLOAD"] := by
    rw [values_signRequest (by decide),
      values_eq_at (show canonicalHeaderKey _ = ascii "X-Amz-Content-Sha256" by decide),
      datedRequest_at.2]
  have hpayload : ¬ ascii "UNSIGNED-PAYLOAD" = [] := by decide
  simp only [checkSignedRequest, signedInfo, hnames, Except.mapError, ok_bind, ne_eq, not_true,
    if_false, htoken, htrailers, hnoTrailer, or_self, requireSingletonHeader, hdate, hhash,
    List.length_singleton, headerGet, List.headD_cons, hpayload,
    requireSignedAmzHeaders_signRequest hs]

/-- And those of the times, as long as the clocks are close enough.  The time in the
    header has no fractions of a second. -/
theorem checkTimes_signRequest (hnow : Time.FourDigitYear now) {later : Time.Instant}
    {maxSkew : Int} (hskew : 0 < maxSkew →
      (later - Time.unix now * Time.nanosecondsPerSecond).natAbs ≤ maxSkew) :
    checkTimes (signRequest cr r accessKey secretKey region now)
      (signedInfo cr r accessKey secretKey region now) later maxSkew = .ok () := by
  have hparse := Time.parseAmzDate_formatAmzDate hnow
  have hne : Time.formatAmzDate now ≠ [] := by
    intro hnil
    rw [hnil] at hparse
    exact Option.some_ne_none _ (hparse.symm.trans (show Time.parseAmzDate [] = none by decide))
  simp only [checkTimes, amzDate_signRequest, if_neg hne, hparse, signedInfo, Time.formatDate_seconds,
    ne_eq, not_true, if_false, scopeText, tooSkewed_eq_false hskew, Bool.false_eq_true]

/-- **SIGNER AND VERIFIER AGREE** on every request whose headers can be signed and every
    mapping whose fields can be framed. -/
theorem verify_signRequest (hs : Signable r.header) (htrailer : r.trailer = ∅)
    (hnow : Time.FourDigitYear now) {later : Time.Instant} {maxSkew : Int}
    (hskew : 0 < maxSkew →
      (later - Time.unix now * Time.nanosecondsPerSecond).natAbs ≤ maxSkew) :
    verifySignatureAtTime cr (signRequest cr r accessKey secretKey region now)
      (signedInfo cr r accessKey secretKey region now) secretKey later maxSkew = .ok () := by
  have hcanonical : buildCanonicalRequest (signRequest cr r accessKey secretKey region now)
      (signedHeaderNames (datedRequest r now).header) = _ := canonical_signRequest hs
  rw [verifySignatureAtTime, checkSignedRequest_signRequest hs htrailer, ok_bind,
    checkTimes_signRequest hnow hskew, ok_bind, amzDate_signRequest]
  simp only [signedInfo, hcanonical, ne_eq, not_true, if_false]

end

/-! ## What the proxy signs -/

section
variable {hp : HostParser} {cr : Crypto} {r : Request} {bucket objectKey : Bytes}
  {planned plan : S3OperationPlan} {mapping : Option VBucketConfig} {cfg : VBucketConfig}
  {out : OutboundRequest}

/-- The outbound request as the signer and a receiver see it. -/
def OutboundRequest.request (out : OutboundRequest)
    (tokens : ∀ name ∈ out.header, isToken name = true) : Request where
  method := out.method
  host := out.host
  url := out.url
  header := out.header
  contentLength := out.contentLength
  transferEncoding := []
  tls := false
  body := out.body
  tokens := tokens

/-- An outbound request has the headers that are forwarded and perhaps a copy source,
    and is not signed yet. -/
theorem mem_outboundHeaders {header : Header} (h : outboundHeaders cr cfg plan = .ok header)
    {name : Bytes} (hname : name ∈ header) :
    name ≠ ascii "Authorization" ∧
      (name = canonicalHeaderKey copySourceHeader ∨
        ∃ n ∈ plan.forwardHeaders, canonicalHeaderKey n = name) := by
  obtain ⟨headers, hset, h⟩ := bind_ok h
  cases h
  obtain ⟨-, hname⟩ := AList.mem_erase.mp hname
  obtain ⟨-, hname⟩ := AList.mem_erase.mp hname
  obtain ⟨hauthorization, hname⟩ := AList.mem_erase.mp hname
  refine ⟨hauthorization, ?_⟩
  have hcopied : name ∈ copyOutboundRequestHeaders plan.forwardHeaders ∅ plan.kind →
      ∃ n ∈ plan.forwardHeaders, canonicalHeaderKey n = name := by
    intro hm
    rcases mem_copyOutboundRequestHeaders hm with hm | hm
    · exact absurd hm (AList.notMem_empty name)
    · exact hm
  rw [setCopySource] at hset
  split at hset
  · split at hset
    · cases hset
    · split at hset
      · cases hset
      · cases hset
        rcases mem_setOne.mp hname with hname | hname
        · exact Or.inl hname
        · exact Or.inr (hcopied hname)
  · cases hset
    exact Or.inr (hcopied hname)

/-- No operation allows a session token or a trailer. -/
theorem amzHeaderAllowed_eq_false (kind : OperationKind) :
    amzHeaderAllowed kind (ascii "x-amz-security-token") = false ∧
      amzHeaderAllowed kind (ascii "x-amz-trailer") = false := by
  cases kind <;> decide

/-- The headers of an outbound request can be signed: each is one the planner let through,
    in its canonical spelling, or the copy source. -/
theorem signable_outbound {header : Header} (hplan : Planned r bucket objectKey planned)
    (hforward : plan.forwardHeaders = planned.forwardHeaders)
    (h : outboundHeaders cr cfg plan = .ok header) : Signable header := by
  have horigin : ∀ name ∈ header, name = canonicalHeaderKey copySourceHeader ∨
      ∃ n ∈ r.header, canonicalHeaderKey n = name := by
    intro name hname
    obtain ⟨-, hname | ⟨n, hn, rfl⟩⟩ := mem_outboundHeaders h hname
    · exact Or.inl hname
    · rw [hforward, hplan.forwardHeaders_eq] at hn
      obtain ⟨m, hm, rfl⟩ := mem_canonicalHeaderClone hn
      exact Or.inr ⟨m, hm, (canonicalHeaderKey_idem m).symm⟩
  have hrefused : ∀ name : Bytes, name ≠ canonicalHeaderKey copySourceHeader →
      hasPrefix (toLower name) (ascii "x-amz-") = true →
      amzHeaderAllowed planned.kind (toLower name) = false → name ∉ header := by
    intro name hcopy hamz hno hname
    rcases horigin name hname with hname | ⟨n, hn, rfl⟩
    · exact hcopy hname
    · rw [toLower_canonicalHeaderKey] at hamz hno
      rw [amzHeaderAllowed_of_valid hplan.headers hn hamz] at hno
      exact nomatch hno
  refine ⟨?_, fun hname => (mem_outboundHeaders h hname).1 rfl, ?_, ?_⟩
  · intro name hname
    rcases horigin name hname with rfl | ⟨n, hn, rfl⟩
    · decide
    · exact ⟨isToken_canonicalHeaderKey (r.tokens n hn), canonicalHeaderKey_idem n⟩
  · exact hrefused _ (by decide) (by decide) (amzHeaderAllowed_eq_false planned.kind).1
  · exact hrefused _ (by decide) (by decide) (amzHeaderAllowed_eq_false planned.kind).2

/-- A normalised mapping and a date of a four-digit year frame a credential. -/
theorem framed_mapping (h : normalizeVBucketConfig hp cr mapping = .ok cfg) {now : Time.Instant}
    (hnow : Time.FourDigitYear now) :
    Framed cfg.realAccessKey (Time.formatDate now) cfg.realRegion := by
  obtain ⟨raw, -, hchecked⟩ := normalize_checked h
  exact ⟨hchecked.accessKey, Time.formatDate_digits hnow, Time.parseDate_formatDate hnow,
    hchecked.region⟩

/-- **OUTBOUND SIGNATURES VERIFY**: whatever request the proxy builds from an accepted plan
    (later stages keep its kind and its headers), the `Authorization` header the signer
    writes is read back as the mapping's access key and region, the date of signing and the
    names of exactly `host` and the headers present, in order; and the verifier accepts the
    request under the same secret at every time within the skew of the date written.

    `now` is the signer's clock; its year has four digits, as the layouts of the dates do. -/
theorem outbound_signature_verifies (hplan : planS3Operation r bucket objectKey = .ok planned)
    (hforward : plan.forwardHeaders = planned.forwardHeaders)
    (hcfg : normalizeVBucketConfig hp cr mapping = .ok cfg)
    (hout : outboundRequest hp cr r plan mapping = .ok out)
    {now : Time.Instant} (hnow : Time.FourDigitYear now) :
    ∃ (tokens : ∀ name ∈ out.header, isToken name = true) (signed : Request) (info : AuthInfo),
      signed = signRequest cr (out.request tokens) cfg.realAccessKey cfg.realSecretKey
        cfg.realRegion now ∧
      parseAuthorizationHeader (headerGet signed (ascii "Authorization")) = .ok info ∧
      info.accessKeyID = cfg.realAccessKey ∧ info.region = cfg.realRegion ∧
      info.date = Time.formatDate now ∧
      info.signedHeaders.Pairwise (fun a b => bytesLE b a = false) ∧
      (∀ name, name ∈ info.signedHeaders ↔ name = ascii "host" ∨
        ∃ n ∈ signed.header, n ≠ ascii "Authorization" ∧ toLower n = name) ∧
      headerGet signed (ascii "X-Amz-Date") = Time.formatAmzDate now ∧
      ∀ (requestTime later : Time.Instant) (maxSkew : Int),
        Time.parseAmzDate (headerGet signed (ascii "X-Amz-Date")) = some requestTime →
        (0 < maxSkew → (later - requestTime).natAbs ≤ maxSkew) →
        verifySignatureAtTime cr signed info cfg.realSecretKey later maxSkew = .ok () := by
  obtain ⟨cfg', hsent⟩ := outboundRequest_spec hout
  obtain rfl : cfg' = cfg := Except.ok.inj (hsent.mapping.symm.trans hcfg)
  have hs : Signable out.header := signable_outbound (plan_spec hplan) hforward hsent.header
  have hdated := Signable.dated (r := out.request fun name hname => (hs.canonical name hname).1)
    hs now
  have hdate : headerGet (signRequest cr (out.request fun name hname => (hs.canonical name hname).1)
      cfg'.realAccessKey cfg'.realSecretKey cfg'.realRegion now) (ascii "X-Amz-Date") =
      Time.formatAmzDate now := amzDate_signRequest
  refine ⟨fun name hname => (hs.canonical name hname).1, _, _, rfl,
    parse_signRequest hs (framed_mapping hcfg hnow), rfl, rfl, rfl,
    signedHeaderNames_sorted hdated.canonical, ?_, hdate, ?_⟩
  · intro name
    refine mem_signedHeaderNames.trans (or_congr_right ?_)
    constructor
    · rintro ⟨n, hn, hlow⟩
      refine ⟨n, mem_setOne.mpr (Or.inr hn), ?_, hlow⟩
      rintro rfl
      exact hdated.unsigned hn
    -- `Authorization` is written after the names were collected
    · rintro ⟨n, hn, hne, hlow⟩
      rcases mem_setOne.mp hn with hn | hn
      · exact absurd hn hne
      · exact ⟨n, hn, hlow⟩
  · intro requestTime later maxSkew hparse hskew
    rw [hdate, Time.parseAmzDate_formatAmzDate hnow] at hparse
    cases hparse
    exact verify_signRequest hs rfl hnow hskew

end

/-- A read signed at the epoch verifies a minute later under a skew of fifteen minutes. -/
theorem outbound_signature_verifies_after_a_minute :
    ∃ plan out, planS3Operation (sampleGet []) (ascii "vbk") (ascii "k") = .ok plan ∧
      outboundRequest sampleHosts sampleCrypto (sampleGet []) plan
        (some (sampleConfig (ascii "t"))) = .ok out ∧
      ∃ (tokens : ∀ name ∈ out.header, isToken name = true) (info : AuthInfo),
        info.accessKeyID = ascii "k" ∧ info.region = ascii "r" ∧ info.date = ascii "19700101" ∧
        verifySignatureAtTime sampleCrypto
          (signRequest sampleCrypto (out.request tokens) (ascii "k") (ascii "s") (ascii "r") 0)
          info (ascii "s") 60000000000 900000000000 = .ok () := by
  have hcheck : okAnd (planS3Operation (sampleGet []) (ascii "vbk") (ascii "k"))
      (fun plan => okAnd (outboundRequest sampleHosts sampleCrypto (sampleGet []) plan
        (some (sampleConfig (ascii "t")))) (fun _ => true)) = true := by
    decide +kernel
  have hmapping : normalizeVBucketConfig sampleHosts sampleCrypto
      (some (sampleConfig (ascii "t"))) = .ok (sampleConfig (ascii "t")) := by
    decide +kernel
  have hepoch : Time.FourDigitYear 0 := ⟨by decide +kernel, by decide +kernel⟩
  have hdate : Time.formatDate 0 = ascii "19700101" := by decide +kernel
  have hstamp : Time.parseAmzDate (Time.formatAmzDate 0) = some 0 :=
    Time.parseAmzDate_formatAmzDate hepoch
  obtain ⟨plan, hplan, htest⟩ := exists_of_okAnd hcheck
  obtain ⟨out, hout, -⟩ := exists_of_okAnd htest
  obtain ⟨tokens, signed, info, rfl, -, hkey, hregion, hinfo, -, -, hheader, hverify⟩ :=
    outbound_signature_verifies hplan rfl hmapping hout hepoch
  refine ⟨plan, out, hplan, hout, tokens, info, hkey, hregion, hinfo.trans hdate, ?_⟩
  exact hverify 0 60000000000 900000000000 (by rw [hheader, hstamp]) (fun _ => by decide)

end S3
