import VBuckets.UrlProofs
import VBuckets.DomainProofs

/-! # Bucket mappings and routing tokens

    `VBucketConfig` and `NormalizeVBucketConfig` (`http_server/vbucket.go`), and the
    opaque routing tokens of `http_server/s3_token.go`.  Hashing and authenticated
    encryption are parameters (`Crypto`); base64 and every check around them are
    concrete. -/

namespace Mapping

open ByteString Url

/-! ## Cryptographic primitives -/

/-- The primitives in use.  `gcmSeal` and `gcmOpen` take key, nonce, text and
    associated data. -/
structure Crypto where
  sha256 : Bytes → Bytes
  hmacSHA256 : (key message : Bytes) → Bytes
  gcmSeal : (key nonce plaintext aad : Bytes) → Bytes
  gcmOpen : (key nonce ciphertext aad : Bytes) → Option Bytes
  sha256_length : ∀ s, (sha256 s).length = 32
  hmacSHA256_length : ∀ k s, (hmacSHA256 k s).length = 32

theorem digestZeros_length : ∀ _ : Bytes, (List.replicate 32 0 : Bytes).length = 32 :=
  fun _ => rfl

theorem macZeros_length : ∀ _ _ : Bytes, (List.replicate 32 0 : Bytes).length = 32 :=
  fun _ => digestZeros_length

/-- `cipher.AEAD.NonceSize` of GCM. -/
def nonceSize : Nat := 12

/-! ## Unpadded base64url -/

/-- The alphabet of `base64.RawURLEncoding`. -/
def base64Char (n : UInt8) : UInt8 :=
  if n < 26 then 65 + n
  else if n < 52 then 71 + n
  else if n < 62 then n - 4
  else if n == 62 then 45
  else 95

/-- The digit a character stands for, if it is in the alphabet. -/
def base64Value (c : UInt8) : Option UInt8 :=
  if isUpperASCII c then some (c - 65)
  else if isLowerASCII c then some (c - 71)
  else if isDigitASCII c then some (c + 4)
  else if c == 45 then some 62
  else if c == 95 then some 63
  else none

/-- `base64.RawURLEncoding.EncodeToString`. -/
def base64Encode : Bytes → Bytes
  | a :: b :: c :: s =>
      base64Char (a >>> 2) :: base64Char (((a &&& 3) <<< 4) ||| (b >>> 4)) ::
        base64Char (((b &&& 15) <<< 2) ||| (c >>> 6)) :: base64Char (c &&& 63) ::
        base64Encode s
  | [a, b] =>
      [base64Char (a >>> 2), base64Char (((a &&& 3) <<< 4) ||| (b >>> 4)),
        base64Char ((b &&& 15) <<< 2)]
  | [a] => [base64Char (a >>> 2), base64Char ((a &&& 3) <<< 4)]
  | [] => []

/-- The bytes of a sequence of six-bit values; strict, so unused bits must be zero. -/
def base64Bytes : List UInt8 → Option Bytes
  | w :: x :: y :: z :: s =>
      (base64Bytes s).map (fun t =>
        ((w <<< 2) ||| (x >>> 4)) :: ((x <<< 4) ||| (y >>> 2)) :: ((y <<< 6) ||| z) :: t)
  | [w, x, y] =>
      if y &&& 3 == 0 then some [(w <<< 2) ||| (x >>> 4), (x <<< 4) ||| (y >>> 2)] else none
  | [w, x] => if x &&& 15 == 0 then some [(w <<< 2) ||| (x >>> 4)] else none
  | [_] => none
  | [] => some []

/-- `base64.RawURLEncoding.Strict().DecodeString`; the decoder skips line breaks. -/
def base64Decode (s : Bytes) : Option Bytes :=
  match (s.filter (fun c => c != 10 && c != 13)).mapM base64Value with
  | some values => base64Bytes values
  | none => none

/-! ## Mappings -/

/-- `opaqueTokenCipher`; the AEAD is determined by its key. -/
structure OpaqueTokenCipher where
  aeadKey : Bytes
  nonceKey : Bytes
  realBucket : Bytes
  pathPrefix : Bytes
  realEndpoint : Bytes
  routingKey : Bytes
  deriving DecidableEq

/-- A mapping: where a virtual bucket is, how it is signed for, and under which
    prefix.  The codec is a cache of what the key and the three names determine. -/
structure VBucketConfig where
  realEndpoint : Bytes
  realBucket : Bytes
  realAccessKey : Bytes
  realSecretKey : Bytes
  realRegion : Bytes
  pathPrefix : Bytes
  realUsePathStyle : Bool
  routingTokenKey : Bytes
  routingTokenCodec : Option OpaqueTokenCipher
  deriving DecidableEq

/-- The texts of errors. -/
abbrev Message := String

/-- What the mapping prepends to every virtual key: its path prefix with a slash, or
    nothing. -/
def VBucketConfig.realPrefix (cfg : VBucketConfig) : Bytes :=
  if cfg.pathPrefix = [] then [] else cfg.pathPrefix ++ ascii "/"

/-! ## Token ciphers -/

/-- The parts of an input for a MAC, separated by zero bytes. -/
def withNul (parts : List Bytes) : Bytes := join 0 parts

/-- The key of a purpose, bound to the endpoint, the bucket and the prefix of the
    mapping. -/
def routingTokenSubkey (cr : Crypto) (cfg : VBucketConfig) (purpose : Bytes) : Bytes :=
  cr.hmacSHA256 cfg.routingTokenKey
    (withNul [ascii "vbuckets-routing-token-v1", purpose, cfg.realEndpoint, cfg.realBucket,
      cfg.pathPrefix])

/-- The version every token names. -/
def virtualOpaqueTokenVersion : Bytes := ascii "vb1"

/-- What a token is bound to without containing it. -/
def opaqueTokenAAD (cfg : VBucketConfig) (purpose : Bytes) : Bytes :=
  withNul [virtualOpaqueTokenVersion, purpose, cfg.realEndpoint, cfg.realBucket,
    cfg.pathPrefix]

/-- `aes.NewCipher` refuses other key lengths. -/
def validAESKey (key : Bytes) : Bool :=
  key.length == 16 || key.length == 24 || key.length == 32

/-- A codec for a mapping.  Its second error cannot occur: the key is the output of
    the hash. -/
def newOpaqueTokenCipher (cr : Crypto) (cfg : VBucketConfig) :
    Except Message OpaqueTokenCipher :=
  if cfg.routingTokenKey.length ≠ 32 then
    .error "routing token key must be exactly 32 bytes"
  else
    let encKey := routingTokenSubkey cr cfg (ascii "encryption")
    if !validAESKey encKey then .error "crypto/aes: invalid key size"
    else
      .ok
        { aeadKey := encKey
          nonceKey := routingTokenSubkey cr cfg (ascii "synthetic-nonce")
          realBucket := cfg.realBucket
          pathPrefix := cfg.pathPrefix
          realEndpoint := cfg.realEndpoint
          routingKey := cfg.routingTokenKey }

/-- Whether a cached cipher was derived for this very mapping.  A mapping may have been copied
    and changed since. -/
def OpaqueTokenCipher.matches (c : OpaqueTokenCipher) (cfg : VBucketConfig) : Bool :=
  cfg.routingTokenKey.length == 32 && c.realBucket == cfg.realBucket &&
    c.pathPrefix == cfg.pathPrefix && c.realEndpoint == cfg.realEndpoint &&
    c.routingKey == cfg.routingTokenKey

/-- The codec of a mapping, made anew if the one it carries is of other names or of
    another key. -/
def routingTokenCipher (cr : Crypto) (cfg : VBucketConfig) : Except Message OpaqueTokenCipher :=
  match cfg.routingTokenCodec with
  | some codec => if codec.matches cfg then .ok codec else newOpaqueTokenCipher cr cfg
  | none => newOpaqueTokenCipher cr cfg

/-! ## Tokens -/

/-- The three identifiers a backend gives out that clients send back. -/
inductive TokenKind where
  | continuation | upload | version
  deriving DecidableEq

/-- How a kind is named in tokens and errors. -/
def TokenKind.text : TokenKind → String
  | .continuation => "continuation"
  | .upload => "upload"
  | .version => "version"

/-- The same as bytes. -/
def TokenKind.bytes (kind : TokenKind) : Bytes := ascii kind.text

/-- The nonce both directions derive from the plaintext. -/
def syntheticNonce (cr : Crypto) (c : OpaqueTokenCipher) (kind : TokenKind) (value : Bytes) :
    Bytes :=
  (cr.hmacSHA256 c.nonceKey (withNul [virtualOpaqueTokenVersion, kind.bytes, value])).take
    nonceSize

/-- What every token of a kind starts with. -/
def tokenHead (kind : TokenKind) : Bytes :=
  virtualOpaqueTokenVersion ++ ascii "." ++ kind.bytes ++ ascii "."

/-- The token of an identifier.  The nonce is derived from the identifier, so that one
    identifier has one token and can be compared by it. -/
def encodeOpaqueToken (cr : Crypto) (cfg : VBucketConfig) (kind : TokenKind) (value : Bytes) :
    Except Message Bytes :=
  if value = [] then .error (kind.text ++ " token must not be empty")
  else
    match routingTokenCipher cr cfg with
    | .error e => .error e
    | .ok c =>
        let nonce := syntheticNonce cr c kind value
        let sealed_ := nonce ++ cr.gcmSeal c.aeadKey nonce value (opaqueTokenAAD cfg kind.bytes)
        .ok (tokenHead kind ++ base64Encode sealed_)

/-- The identifier of a token.  The text has to be the one `encodeOpaqueToken` writes:
    other spellings of the same bytes are refused. -/
def decodeOpaqueToken (cr : Crypto) (cfg : VBucketConfig) (kind : TokenKind) (value : Bytes) :
    Except Message Bytes :=
  if !hasPrefix value (tokenHead kind) then
    .error (kind.text ++ " token is not a vbuckets virtual token")
  else
    let encoded := trimPrefix value (tokenHead kind)
    match base64Decode encoded with
    | none => .error ("decode virtual " ++ kind.text ++ " token")
    | some data =>
        if base64Encode data ≠ encoded then
          .error ("virtual " ++ kind.text ++ " token is not canonically encoded")
        else
          match routingTokenCipher cr cfg with
          | .error e => .error e
          | .ok c =>
              if data.length < nonceSize then
                .error ("virtual " ++ kind.text ++ " token is truncated")
              else
                let nonce := data.take nonceSize
                match cr.gcmOpen c.aeadKey nonce (data.drop nonceSize)
                    (opaqueTokenAAD cfg kind.bytes) with
                | none => .error ("authenticate virtual " ++ kind.text ++ " token")
                | some plaintext =>
                    if nonce ≠ syntheticNonce cr c kind plaintext then
                      .error ("virtual " ++ kind.text ++
                        " token does not use its canonical nonce")
                    else .ok plaintext

/-! ## Normalisation -/

/-- `bucketNamePattern` and the checks after it. -/
def isBucketByte (c : UInt8) : Bool := isLowerASCII c || isDigitASCII c || c == 46 || c == 45

/-- A name begins and ends with a letter or a digit. -/
def isBucketEdge (c : Option UInt8) : Bool :=
  match c with
  | some c => isLowerASCII c || isDigitASCII c
  | none => false

/-- The rules for bucket names, without those about addresses and reserved prefixes. -/
def isValidBucketName (bucket : Bytes) : Bool :=
  3 ≤ bucket.length && bucket.length ≤ 63 && bucket.all isBucketByte &&
    isBucketEdge bucket.head? && isBucketEdge bucket.getLast? &&
    !contains bucket (ascii "..") && !contains bucket (ascii ".-") &&
    !contains bucket (ascii "-.")

/-- `accessKeyIDPattern`: one to 128 letters, digits, dots, underscores and hyphens.
    No slash, comma or blank is among them. -/
def validAccessKeyID (key : Bytes) : Bool :=
  1 ≤ key.length && key.length ≤ 128 &&
    key.all (fun c => isAlnum c || c == 46 || c == 95 || c == 45)

/-- `backendRegionPattern`. -/
def validBackendRegion (region : Bytes) : Bool :=
  1 ≤ region.length && region.length ≤ 64 && region.all (fun c => isAlnum c || c == 45)

/-- Visible characters, at least one. -/
def printableASCII (value : Bytes) : Bool :=
  value ≠ [] && value.all (fun c => 0x21 ≤ c && c ≤ 0x7e)

/-- Valid UTF-8 without control characters. -/
def noASCIIControls (value : Bytes) : Bool := validString value && !hasControl value

/-- A segment `NormalizeVBucketConfig` refuses in a path prefix: an empty one, one a
    path cleaner would resolve, a backslash or a control character. -/
def unsafeSegment (segment : Bytes) : Bool :=
  segment = [] || segment = ascii "." || segment = ascii ".." || segment.contains 92 ||
    !noASCIIControls segment

/-- The checks of the endpoint, up to its canonical text: an absolute URL of HTTP or
    HTTPS with a host and nothing else.  A missing scheme is HTTPS. -/
def normalizeEndpoint (hp : HostParser) (raw : Bytes) (usePathStyle : Bool) :
    Except Message Bytes :=
  let endpoint := trimSpace raw
  if endpoint = [] then .error "real endpoint is required"
  else
    let endpoint :=
      if contains endpoint (ascii "://") then endpoint else ascii "https://" ++ endpoint
    match parse hp endpoint with
    | none => .error "parse real endpoint"
    | some u =>
        if (u.scheme ≠ ascii "http" ∧ u.scheme ≠ ascii "https") ∨ u.host = [] ∨
            u.hostname = [] then
          .error "real endpoint must be an absolute HTTP(S) URL"
        else if u.hasUser = true ∨ (u.path ≠ [] ∧ u.path ≠ ascii "/") ∨ u.rawPath ≠ [] ∨
            u.rawQuery ≠ [] ∨ u.forceQuery = true ∨ u.fragment ≠ [] then
          .error "real endpoint must not contain credentials, path, query, or fragment"
        else if parseRequestURI hp (ascii "//" ++ u.host) = none then
          .error "real endpoint host is invalid"
        else if usePathStyle = false ∧ Domain.parseIP u.hostname = true then
          .error
            "virtual-hosted addressing requires a DNS endpoint; IP endpoints must use path style"
        else if u.port ≠ [] ∧ ¬ (1 ≤ Domain.decimal u.port ∧ Domain.decimal u.port ≤ 65535) then
          .error "real endpoint port must be from 1 through 65535"
        else if u.port = [] ∧ hasSuffix u.host (ascii ":") = true then
          .error "real endpoint port is empty"
        else .ok (trimSuffix { u with path := [], rawPath := [] }.string (ascii "/"))

/-- The last step of `NormalizeVBucketConfig`: a codec that matches the mapping is kept, and
    a missing or stale one is replaced. -/
def ensureRoutingTokenCodec (cr : Crypto) (normalized : VBucketConfig) :
    Except Message VBucketConfig :=
  if normalized.routingTokenCodec.any (fun codec => codec.matches normalized) then .ok normalized
  else
    match newOpaqueTokenCipher cr normalized with
    | .error e => .error ("initialize routing token codec: " ++ e)
    | .ok codec => .ok { normalized with routingTokenCodec := some codec }

/-- `NormalizeVBucketConfig`.  Everything it checks it checks on the normalised
    fields, the key and the credentials apart. -/
def normalizeVBucketConfig (hp : HostParser) (cr : Crypto) (cfg : Option VBucketConfig) :
    Except Message VBucketConfig :=
  match cfg with
  | none => .error "vbucket mapping is required"
  | some cfg =>
      if cfg.routingTokenKey.length ≠ 32 then
        .error "routing token key must be exactly 32 bytes"
      else
        match normalizeEndpoint hp cfg.realEndpoint cfg.realUsePathStyle with
        | .error e => .error e
        | .ok endpoint =>
            let bucket := trimSpace cfg.realBucket
            let region := trimSpace cfg.realRegion
            let pathPrefix := trimByte 47 cfg.pathPrefix
            if !isValidBucketName bucket then .error "real bucket is invalid"
            else if !validAccessKeyID cfg.realAccessKey || !printableASCII cfg.realSecretKey then
              .error "real credentials are required"
            else if !validBackendRegion region then .error "real region is required"
            else if pathPrefix ≠ [] ∧ (split 47 pathPrefix).any unsafeSegment = true then
              .error "path prefix contains an unsafe segment"
            else
              let normalized : VBucketConfig :=
                { cfg with
                  realEndpoint := endpoint
                  realBucket := bucket
                  realRegion := region
                  pathPrefix := pathPrefix }
              ensureRoutingTokenCodec cr normalized

end Mapping
