import Mathlib.Tactic.IntervalCases
import VBuckets.ForwardingProofs

/-! # Routing tokens

    A token is a head that names its kind, and the base64 of a nonce and a ciphertext.
    Under the law of an AEAD with a deterministic `Seal`, the tokens of a mapping and a
    kind are in bijection with the non-empty origin identifiers: every check of
    `decodeOpaqueToken` removes one way a second token could be accepted.

    The key of the cipher and the associated data both name the endpoint, the bucket and
    the prefix of the mapping, joined by NUL; normalised fields have no NUL, so a token
    opens only where it was sealed. -/

namespace Mapping

open ByteString Url

/-! ## Base64 reads back what it wrote -/

theorem byte_ext {x y : UInt8}
    (h : ∀ i < 8, x.toBitVec.getLsbD i = y.toBitVec.getLsbD i) : x = y :=
  UInt8.eq_of_toBitVec_eq (BitVec.eq_of_getLsbD_eq h)

/-- The six-bit values `base64Encode` writes. -/
def sextets : Bytes → List UInt8
  | a :: b :: c :: s =>
      (a >>> 2) :: (((a &&& 3) <<< 4) ||| (b >>> 4)) :: (((b &&& 15) <<< 2) ||| (c >>> 6)) ::
        (c &&& 63) :: sextets s
  | [a, b] => [a >>> 2, ((a &&& 3) <<< 4) ||| (b >>> 4), (b &&& 15) <<< 2]
  | [a] => [a >>> 2, (a &&& 3) <<< 4]
  | [] => []

/-- Encoding is writing the sextets in the alphabet. -/
theorem base64Encode_eq (s : Bytes) : base64Encode s = (sextets s).map base64Char := by
  induction s using base64Encode.induct with
  | case1 a b c s ih => rw [base64Encode, ih, sextets, List.map_cons, List.map_cons,
      List.map_cons, List.map_cons]
  | case2 | case3 | case4 => rfl

section
variable (a b c : UInt8)

-- Three bytes and four sextets, compared bit by bit.

theorem sextets_first : ((a >>> 2) <<< 2) ||| ((((a &&& 3) <<< 4) ||| (b >>> 4)) >>> 4) = a := by
  apply byte_ext
  intro i hi
  interval_cases i <;> simp

theorem sextets_second :
    ((((a &&& 3) <<< 4) ||| (b >>> 4)) <<< 4) |||
      ((((b &&& 15) <<< 2) ||| (c >>> 6)) >>> 2) = b := by
  apply byte_ext
  intro i hi
  interval_cases i <;> simp

theorem sextets_third : ((((b &&& 15) <<< 2) ||| (c >>> 6)) <<< 6) ||| (c &&& 63) = c := by
  apply byte_ext
  intro i hi
  interval_cases i <;> simp

end

/-- The sextets of a text give it back; one, two or three bytes at the end leave two,
    three or four of them. -/
theorem base64Bytes_sextets (s : Bytes) : base64Bytes (sextets s) = some s := by
  induction s using sextets.induct with
  | case1 a b c s ih =>
      rw [sextets, base64Bytes, ih, Option.map_some, sextets_first, sextets_second, sextets_third]
  | case2 a b =>
      -- the last sextet carries no bits beyond the second byte
      have hpad : ((b &&& 15) <<< 2) &&& 3 = 0 := by
        apply byte_ext
        intro i hi
        interval_cases i <;> simp
      have hsecond := sextets_second a b 0
      rw [show (0 : UInt8) >>> 6 = 0 from rfl, UInt8.or_zero] at hsecond
      rw [sextets, base64Bytes, hpad, sextets_first, hsecond]
      rfl
  | case3 a =>
      have hpad : ((a &&& 3) <<< 4) &&& 15 = 0 := by
        apply byte_ext
        intro i hi
        interval_cases i <;> simp
      have hfirst := sextets_first a 0
      rw [show (0 : UInt8) >>> 4 = 0 from rfl, UInt8.or_zero] at hfirst
      rw [sextets, base64Bytes, hpad, hfirst]
      rfl
  | case4 => rfl

/-- A sextet has no bits above the sixth. -/
theorem sextets_lt (s : Bytes) : ∀ n ∈ sextets s, n &&& 63 = n := by
  have hbits : ∀ {n : UInt8}, (∀ i < 8, (n &&& 63).toBitVec.getLsbD i = n.toBitVec.getLsbD i) →
      n &&& 63 = n := fun h => byte_ext h
  induction s using sextets.induct with
  | case1 a b c s ih =>
      simp only [sextets, List.forall_mem_cons]
      refine ⟨?_, ?_, ?_, ?_, ih⟩
      all_goals
        apply hbits
        intro i hi
        interval_cases i <;> simp
  | case2 a b =>
      simp only [sextets, List.forall_mem_cons]
      refine ⟨?_, ?_, ?_, fun n hn => nomatch hn⟩
      all_goals
        apply hbits
        intro i hi
        interval_cases i <;> simp
  | case3 a =>
      simp only [sextets, List.forall_mem_cons]
      refine ⟨?_, ?_, fun n hn => nomatch hn⟩
      all_goals
        apply hbits
        intro i hi
        interval_cases i <;> simp
  | case4 => exact fun n hn => nomatch hn

/-- The alphabet: a sextet is read back, and is written without a line break. -/
theorem base64Value_char (n : UInt8) : base64Value (base64Char (n &&& 63)) = some (n &&& 63) ∧
    (base64Char (n &&& 63) != 10 && base64Char (n &&& 63) != 13) = true := by
  refine forall_byte (P := fun n => base64Value (base64Char (n &&& 63)) = some (n &&& 63) ∧
    (base64Char (n &&& 63) != 10 && base64Char (n &&& 63) != 13) = true) ?_ n
  decide +kernel

/-- The alphabet is read back digit by digit. -/
theorem mapM_base64Value {ns : List UInt8} (h : ∀ n ∈ ns, n &&& 63 = n) :
    (ns.map base64Char).mapM base64Value = some ns := by
  induction ns with
  | nil => rfl
  | cons n ns ih =>
      obtain ⟨hn, hns⟩ := List.forall_mem_cons.mp h
      have hvalue := (base64Value_char n).1
      rw [hn] at hvalue
      rw [List.map_cons, List.mapM_cons, hvalue, ih hns]
      rfl

theorem base64Decode_encode (s : Bytes) : base64Decode (base64Encode s) = some s := by
  have hplain : (base64Encode s).filter (fun c => c != 10 && c != 13) = base64Encode s := by
    rw [base64Encode_eq, List.filter_eq_self]
    intro c hc
    obtain ⟨n, hn, rfl⟩ := List.mem_map.mp hc
    have hbreak := (base64Value_char n).2
    rwa [sextets_lt s n hn] at hbreak
  rw [base64Decode, hplain, base64Encode_eq, mapM_base64Value (sextets_lt s)]
  exact base64Bytes_sextets s

/-! ## Ciphers -/

section
variable {hp : HostParser} {cr : Crypto} {cfg : VBucketConfig}

/-- The law of an AEAD whose `Seal` is a function: opening undoes sealing, and nothing
    else opens. -/
def Crypto.Opens (cr : Crypto) : Prop :=
  ∀ key nonce ciphertext aad plaintext, nonce.length = nonceSize →
    (cr.gcmOpen key nonce ciphertext aad = some plaintext ↔
      ciphertext = cr.gcmSeal key nonce plaintext aad)

/-- A codec pointer: every one in the program was made by `newOpaqueTokenCipher`. -/
def OpaqueTokenCipher.Made (cr : Crypto) (c : OpaqueTokenCipher) : Prop :=
  ∃ cfg, newOpaqueTokenCipher cr cfg = .ok c

/-- The codec a mapping carries, if any, was made for some mapping. -/
def VBucketConfig.CodecMade (cr : Crypto) (cfg : VBucketConfig) : Prop :=
  ∀ c, cfg.routingTokenCodec = some c → c.Made cr

/-- The cipher of a mapping. -/
def cipherOf (cr : Crypto) (cfg : VBucketConfig) : OpaqueTokenCipher where
  aeadKey := routingTokenSubkey cr cfg (ascii "encryption")
  nonceKey := routingTokenSubkey cr cfg (ascii "synthetic-nonce")
  realBucket := cfg.realBucket
  pathPrefix := cfg.pathPrefix
  realEndpoint := cfg.realEndpoint
  routingKey := cfg.routingTokenKey

/-- The length of the key is the only thing that can be wrong with it. -/
theorem newOpaqueTokenCipher_eq :
    newOpaqueTokenCipher cr cfg =
      if cfg.routingTokenKey.length = 32 then .ok (cipherOf cr cfg)
      else .error "routing token key must be exactly 32 bytes" := by
  have haes : validAESKey (routingTokenSubkey cr cfg (ascii "encryption")) = true := by
    rw [validAESKey, routingTokenSubkey, cr.hmacSHA256_length]
    rfl
  rw [newOpaqueTokenCipher]
  by_cases hlen : cfg.routingTokenKey.length = 32
  · rw [if_neg (not_not.mpr hlen), if_pos hlen]
    simp only [haes]
    rfl
  · rw [if_pos hlen, if_neg hlen]

/-- The keys of a codec depend on the four fields `matches` compares. -/
theorem cipherOf_congr {cfg' : VBucketConfig} (hendpoint : cfg.realEndpoint = cfg'.realEndpoint)
    (hbucket : cfg.realBucket = cfg'.realBucket) (hpath : cfg.pathPrefix = cfg'.pathPrefix)
    (hkey : cfg.routingTokenKey = cfg'.routingTokenKey) : cipherOf cr cfg = cipherOf cr cfg' := by
  simp only [cipherOf, routingTokenSubkey, hendpoint, hbucket, hpath, hkey]

/-- **THE CODEC IS ONLY A CACHE**: whatever codec a mapping carries, the cipher in use is
    the one a new codec would have. -/
theorem routingTokenCipher_eq (hmade : cfg.CodecMade cr) :
    routingTokenCipher cr cfg = newOpaqueTokenCipher cr cfg := by
  rw [routingTokenCipher]
  cases hcodec : cfg.routingTokenCodec with
  | none => rfl
  | some c =>
      by_cases hm : c.matches cfg = true
      · obtain ⟨cfg', hnew⟩ := hmade c hcodec
        rw [newOpaqueTokenCipher_eq] at hnew
        split at hnew
        · cases hnew
          have hfields := hm
          simp only [OpaqueTokenCipher.matches, Bool.and_eq_true, beq_iff_eq] at hfields
          obtain ⟨⟨⟨⟨hlen, hbucket⟩, hpath⟩, hendpoint⟩, hkey⟩ := hfields
          rw [newOpaqueTokenCipher_eq, if_pos hlen]
          show (if (cipherOf cr cfg').matches cfg = true then _ else _) = _
          rw [if_pos hm, cipherOf_congr hendpoint hbucket hpath hkey]
        · exact nomatch hnew
      · simp only [if_neg hm]

theorem normalize_key {raw : Option VBucketConfig}
    (h : normalizeVBucketConfig hp cr raw = .ok cfg) : cfg.routingTokenKey.length = 32 := by
  obtain ⟨mapping, -, hchecked⟩ := normalize_checked h
  exact hchecked.key

/-- A mapping with a 32-byte key has a cipher. -/
theorem exists_routingTokenCipher (hlen : cfg.routingTokenKey.length = 32) :
    ∃ c, routingTokenCipher cr cfg = .ok c := by
  have hnew : newOpaqueTokenCipher cr cfg = .ok (cipherOf cr cfg) := by
    rw [newOpaqueTokenCipher_eq, if_pos hlen]
  rw [routingTokenCipher]
  split
  · next c _ =>
      by_cases hm : c.matches cfg = true
      · exact ⟨c, if_pos hm⟩
      · exact ⟨_, (if_neg hm).trans hnew⟩
  · exact ⟨_, hnew⟩

/-! ## Tokens -/

variable {c : OpaqueTokenCipher} {kind : TokenKind}

theorem syntheticNonce_length (value : Bytes) :
    (syntheticNonce cr c kind value).length = nonceSize := by
  rw [syntheticNonce, List.length_take, cr.hmacSHA256_length]
  rfl

/-- The one token of an identifier. -/
def tokenOf (cr : Crypto) (cfg : VBucketConfig) (c : OpaqueTokenCipher) (kind : TokenKind)
    (value : Bytes) : Bytes :=
  tokenHead kind ++ base64Encode (syntheticNonce cr c kind value ++
    cr.gcmSeal c.aeadKey (syntheticNonce cr c kind value) value (opaqueTokenAAD cfg kind.bytes))

/-- Every identifier but the empty one has a token. -/
theorem encodeOpaqueToken_eq (hc : routingTokenCipher cr cfg = .ok c) {value : Bytes}
    (hne : value ≠ []) : encodeOpaqueToken cr cfg kind value = .ok (tokenOf cr cfg c kind value) := by
  rw [encodeOpaqueToken, if_neg hne, hc]
  rfl

/-- What `decodeOpaqueToken` accepts. -/
theorem decodeOpaqueToken_ok_iff (hc : routingTokenCipher cr cfg = .ok c) {token value : Bytes} :
    decodeOpaqueToken cr cfg kind token = .ok value ↔
      ∃ data, token = tokenHead kind ++ base64Encode data ∧ nonceSize ≤ data.length ∧
        cr.gcmOpen c.aeadKey (data.take nonceSize) (data.drop nonceSize)
          (opaqueTokenAAD cfg kind.bytes) = some value ∧
        data.take nonceSize = syntheticNonce cr c kind value := by
  refine ⟨?_, ?_⟩
  · intro h
    rw [decodeOpaqueToken] at h
    split at h
    · cases h
    · next hhead =>
        rw [Bool.not_eq_true', Bool.not_eq_false] at hhead
        obtain ⟨encoded, rfl⟩ := hasPrefix_iff.mp hhead
        have htrim : trimPrefix (tokenHead kind ++ encoded) (tokenHead kind) = encoded := by
          rw [trimPrefix, if_pos hhead, List.drop_left]
        rw [htrim] at h
        simp only at h
        split at h
        · cases h
        · next data hdata =>
            split at h
            · cases h
            -- only the canonical spelling of the data is accepted
            · next hcanon =>
                rw [hc] at h
                simp only at h
                split at h
                · cases h
                · next hlen =>
                    split at h
                    · cases h
                    · next plaintext hopen =>
                        split at h
                        · cases h
                        -- the nonce has to be the one the value itself gives
                        · next hnonce =>
                            cases h
                            rw [← not_not.mp hcanon]
                            exact ⟨data, rfl, not_lt.mp hlen, hopen, not_not.mp hnonce⟩
  · rintro ⟨data, rfl, hlen, hopen, hnonce⟩
    have hhead : hasPrefix (tokenHead kind ++ base64Encode data) (tokenHead kind) = true :=
      hasPrefix_iff.mpr ⟨_, rfl⟩
    have htrim : trimPrefix (tokenHead kind ++ base64Encode data) (tokenHead kind) =
        base64Encode data := by
      rw [trimPrefix, if_pos hhead, List.drop_left]
    rw [hnonce] at hopen
    rw [decodeOpaqueToken, hhead, htrim]
    simp only [base64Decode_encode, Bool.not_true, Bool.false_eq_true, if_false, ne_eq, not_true,
      hc, if_neg (not_lt.mpr hlen), hnonce, hopen]

/-- A token is accepted exactly as the token of the identifier it stands for. -/
theorem decodeOpaqueToken_iff_tokenOf (hlaw : cr.Opens)
    (hc : routingTokenCipher cr cfg = .ok c) {token value : Bytes} :
    decodeOpaqueToken cr cfg kind token = .ok value ↔ token = tokenOf cr cfg c kind value := by
  rw [decodeOpaqueToken_ok_iff hc]
  refine ⟨?_, ?_⟩
  · rintro ⟨data, rfl, hlen, hopen, hnonce⟩
    have hsize : (data.take nonceSize).length = nonceSize := by
      rw [List.length_take]
      exact Nat.min_eq_left hlen
    have hsealed := (hlaw _ _ _ _ _ hsize).mp hopen
    rw [tokenOf, ← hnonce, ← hsealed, List.take_append_drop]
  · rintro rfl
    have hsize : (syntheticNonce cr c kind value).length = nonceSize := syntheticNonce_length value
    refine ⟨_, rfl, ?_, ?_, ?_⟩
    · rw [List.length_append, hsize]
      exact Nat.le_add_right _ _
    · rw [List.take_left' hsize, List.drop_left' hsize]
      exact (hlaw _ _ _ _ _ hsize).mpr rfl
    · rw [List.take_left' hsize]

/-- Different identifiers have different tokens, since each can be opened again. -/
theorem tokenOf_injective (hlaw : cr.Opens) (hc : routingTokenCipher cr cfg = .ok c)
    {value value' : Bytes} (h : tokenOf cr cfg c kind value = tokenOf cr cfg c kind value') :
    value = value' := by
  have hone : decodeOpaqueToken cr cfg kind (tokenOf cr cfg c kind value) = .ok value :=
    (decodeOpaqueToken_iff_tokenOf hlaw hc).mpr rfl
  have hother : decodeOpaqueToken cr cfg kind (tokenOf cr cfg c kind value) = .ok value' :=
    (decodeOpaqueToken_iff_tokenOf hlaw hc).mpr h
  exact Except.ok.inj (hone.symm.trans hother)

end

/-- The fields of a mapping that its tokens depend on. -/
structure SameNamespace (cfg cfg' : VBucketConfig) : Prop where
  endpoint : cfg.realEndpoint = cfg'.realEndpoint
  bucket : cfg.realBucket = cfg'.realBucket
  pathPrefix : cfg.pathPrefix = cfg'.pathPrefix
  key : cfg.routingTokenKey = cfg'.routingTokenKey

/-- Two copies of a mapping, each with its own codec, use one cipher. -/
theorem SameNamespace.routingTokenCipher_eq {cr : Crypto} {cfg cfg' : VBucketConfig}
    (h : SameNamespace cfg cfg') (hmade : cfg.CodecMade cr) (hmade' : cfg'.CodecMade cr) :
    routingTokenCipher cr cfg = routingTokenCipher cr cfg' := by
  rw [Mapping.routingTokenCipher_eq hmade, Mapping.routingTokenCipher_eq hmade',
    newOpaqueTokenCipher_eq, newOpaqueTokenCipher_eq, h.key,
    cipherOf_congr h.endpoint h.bucket h.pathPrefix h.key]

/-- Mappings to one namespace bind their tokens to the same names. -/
theorem SameNamespace.opaqueTokenAAD_eq {cfg cfg' : VBucketConfig} (h : SameNamespace cfg cfg')
    (purpose : Bytes) : opaqueTokenAAD cfg purpose = opaqueTokenAAD cfg' purpose := by
  rw [opaqueTokenAAD, opaqueTokenAAD, h.endpoint, h.bucket, h.pathPrefix]

/-- **ROUTING TOKENS ARE A BIJECTION**: every non-empty identifier has exactly one
    accepted token, the one `encodeOpaqueToken` writes; and every copy of the mapping
    writes and accepts the same tokens. -/
theorem routing_tokens_bijective {hp : HostParser} {cr : Crypto} {raw : Option VBucketConfig}
    {cfg : VBucketConfig} (hlaw : cr.Opens) (hcfg : normalizeVBucketConfig hp cr raw = .ok cfg)
    (kind : TokenKind) :
    (∀ value, value ≠ [] → ∃ token, encodeOpaqueToken cr cfg kind value = .ok token ∧
      decodeOpaqueToken cr cfg kind token = .ok value) ∧
    (∀ token value, value ≠ [] → decodeOpaqueToken cr cfg kind token = .ok value →
      encodeOpaqueToken cr cfg kind value = .ok token) ∧
    (∀ value, value ≠ [] → ∃! token, decodeOpaqueToken cr cfg kind token = .ok value) ∧
    (∀ value value' token, encodeOpaqueToken cr cfg kind value = .ok token →
      encodeOpaqueToken cr cfg kind value' = .ok token → value = value') ∧
    (∀ cfg', SameNamespace cfg cfg' → cfg.CodecMade cr → cfg'.CodecMade cr → ∀ text,
      encodeOpaqueToken cr cfg' kind text = encodeOpaqueToken cr cfg kind text ∧
      decodeOpaqueToken cr cfg' kind text = decodeOpaqueToken cr cfg kind text) := by
  have hcipher : ∃ c, routingTokenCipher cr cfg = .ok c :=
    exists_routingTokenCipher (normalize_key hcfg)
  obtain ⟨c, hc⟩ := hcipher
  -- accepting is an equation, and every part below is read off it
  have haccept : ∀ token value, decodeOpaqueToken cr cfg kind token = .ok value ↔
      token = tokenOf cr cfg c kind value := fun _ _ => decodeOpaqueToken_iff_tokenOf hlaw hc
  refine ⟨?_, ?_, ?_, ?_, ?_⟩
  · intro value hne
    exact ⟨_, encodeOpaqueToken_eq hc hne, (haccept _ _).mpr rfl⟩
  · intro token value hne h
    rw [encodeOpaqueToken_eq hc hne, (haccept _ _).mp h]
  · intro value _
    exact ⟨_, (haccept _ _).mpr rfl, fun token h => (haccept _ _).mp h⟩
  · intro value value' token h h'
    have hne : ∀ {text}, encodeOpaqueToken cr cfg kind text = .ok token → text ≠ [] := by
      rintro text htext rfl
      exact nomatch htext
    rw [encodeOpaqueToken_eq hc (hne h)] at h
    rw [encodeOpaqueToken_eq hc (hne h')] at h'
    exact tokenOf_injective hlaw hc (Except.ok.inj (h.trans h'.symm))
  · intro cfg' hsame hmade hmade' text
    have hcipher := hsame.routingTokenCipher_eq hmade hmade'
    rw [encodeOpaqueToken, encodeOpaqueToken, decodeOpaqueToken, decodeOpaqueToken, hcipher,
      hsame.opaqueTokenAAD_eq]
    exact ⟨rfl, rfl⟩

/-- A text with its length before it. -/
def framed (s : Bytes) : Bytes := List.replicate s.length 1 ++ 0 :: s

/-- A framed part ends where its frame says. -/
theorem framed_append_inj {a b s t : Bytes} (h : framed a ++ s = framed b ++ t) :
    a = b ∧ s = t := by
  have hones : ∀ n, (0 : UInt8) ∉ List.replicate n (1 : UInt8) := fun n hn =>
    absurd (List.eq_of_mem_replicate hn) (by decide)
  have hcut : cut 0 (List.replicate a.length 1 ++ 0 :: (a ++ s)) =
      cut 0 (List.replicate b.length 1 ++ 0 :: (b ++ t)) := by
    simpa [framed] using congrArg (cut 0) h
  rw [cut_append (hones _), cut_append (hones _)] at hcut
  obtain ⟨hlen, hrest⟩ := Prod.mk.inj hcut
  have hlength : a.length = b.length := by simpa using congrArg List.length hlen
  exact List.append_inj (Prod.mk.inj hrest).1 hlength

/-- Primitives under which a ciphertext spells out its key, its associated data and its
    plaintext, and a hash is the end of what is hashed. -/
def framedCrypto : Crypto where
  sha256 := fun _ => List.replicate 32 0
  hmacSHA256 := fun _ message => (message.reverse ++ List.replicate 32 0).take 32
  gcmSeal := fun key _ plaintext aad => framed key ++ (framed aad ++ plaintext)
  gcmOpen := fun key _ ciphertext aad =>
    if hasPrefix ciphertext (framed key ++ framed aad) then
      some (ciphertext.drop (framed key ++ framed aad).length)
    else none
  sha256_length := digestZeros_length
  hmacSHA256_length := fun _ message => by simp

/-- The sample library opens exactly what it sealed. -/
theorem framedCrypto_open {key nonce ciphertext aad plaintext : Bytes} :
    framedCrypto.gcmOpen key nonce ciphertext aad = some plaintext ↔
      ciphertext = framedCrypto.gcmSeal key nonce plaintext aad := by
  show (if hasPrefix ciphertext (framed key ++ framed aad) = true then _ else _) = _ ↔
    ciphertext = framed key ++ (framed aad ++ plaintext)
  rw [← List.append_assoc]
  refine ⟨?_, ?_⟩
  · intro h
    split at h
    · next hhead =>
        obtain ⟨rest, rfl⟩ := hasPrefix_iff.mp hhead
        rw [List.drop_left] at h
        rw [Option.some.inj h]
    · cases h
  · rintro rfl
    rw [if_pos (hasPrefix_iff.mpr ⟨_, rfl⟩), List.drop_left]

/-- So it has the law that is assumed of the real one. -/
theorem framedCrypto_opens : framedCrypto.Opens := fun _ _ _ _ _ _ => framedCrypto_open

/-- A mapping in normal form under these primitives. -/
def framedConfig (pathPrefix : Bytes) : VBucketConfig :=
  { S3.sampleConfig pathPrefix with
    routingTokenCodec := some (cipherOf framedCrypto (S3.sampleConfig pathPrefix)) }

/-- The sample mapping: the token of `x` opens to `x`. -/
theorem routing_tokens_bijective_of_sample :
    normalizeVBucketConfig S3.sampleHosts framedCrypto (some (framedConfig (ascii "t"))) =
        .ok (framedConfig (ascii "t")) ∧
      ∃ token, encodeOpaqueToken framedCrypto (framedConfig (ascii "t")) .version (ascii "x") =
          .ok token ∧
        decodeOpaqueToken framedCrypto (framedConfig (ascii "t")) .version token =
          .ok (ascii "x") := by
  have hcfg : normalizeVBucketConfig S3.sampleHosts framedCrypto
      (some (framedConfig (ascii "t"))) = .ok (framedConfig (ascii "t")) := by
    decide +kernel
  exact ⟨hcfg, (routing_tokens_bijective framedCrypto_opens hcfg .version).1 _ (by decide)⟩

/-! ## Domains -/

/-- An ideal AEAD: a ciphertext opens only under the key and the associated data it was
    sealed under. -/
def Crypto.Binds (cr : Crypto) : Prop :=
  ∀ key nonce plaintext aad key' nonce' aad',
    (cr.gcmOpen key' nonce' (cr.gcmSeal key nonce plaintext aad) aad').isSome = true →
      key' = key ∧ aad' = aad

/-- What the encryption key of a mapping is derived from. -/
def subkeyInput (cfg : VBucketConfig) : Bytes × Bytes :=
  (cfg.routingTokenKey, withNul [ascii "vbuckets-routing-token-v1", ascii "encryption",
    cfg.realEndpoint, cfg.realBucket, cfg.pathPrefix])

theorem withNul_cons_inj {a b : Bytes} {s t : Bytes} {ss ts : List Bytes} (ha : (0 : UInt8) ∉ a)
    (hb : (0 : UInt8) ∉ b) (h : withNul (a :: s :: ss) = withNul (b :: t :: ts)) :
    a = b ∧ withNul (s :: ss) = withNul (t :: ts) := by
  have hcut : cut 0 (a ++ 0 :: withNul (s :: ss)) = cut 0 (b ++ 0 :: withNul (t :: ts)) :=
    congrArg (cut 0) h
  rw [cut_append ha, cut_append hb] at hcut
  obtain ⟨hfirst, hrest⟩ := Prod.mk.inj hcut
  exact ⟨hfirst, (Prod.mk.inj hrest).1⟩

section
variable {hp : HostParser} {cr : Crypto} {cfg cfg' : VBucketConfig}

/-- A normalised endpoint contains no zero byte, so the names of a binding do not run
    into each other. -/
theorem Normalized.nul_notMem_endpoint (h : Normalized hp cfg) : (0 : UInt8) ∉ cfg.realEndpoint := by
  obtain ⟨scheme, host, hscheme, hendpoint, _⟩ := h.endpoint
  have hhost : (0 : UInt8) ∉ escape host .host := notMem_escape (by decide) (by decide) rfl host
  rw [hendpoint, List.mem_append, List.mem_append, not_or, not_or]
  refine ⟨⟨?_, by decide⟩, hhost⟩
  rcases hscheme with rfl | rfl
  · decide
  · decide

theorem Normalized.nul_notMem_bucket (h : Normalized hp cfg) : (0 : UInt8) ∉ cfg.realBucket := by
  intro hmem
  have hvalid := h.bucket
  simp only [isValidBucketName, Bool.and_eq_true] at hvalid
  have hbyte := List.all_eq_true.mp hvalid.1.1.1.1.1.2 0 hmem
  exact absurd hbyte (by decide)

/-- The associated data names its kind and its mapping. -/
theorem opaqueTokenAAD_inj (h : Normalized hp cfg) (h' : Normalized hp cfg')
    {kind : TokenKind}
    (haad : opaqueTokenAAD cfg kind.bytes = opaqueTokenAAD cfg' kind.bytes) :
    cfg.realEndpoint = cfg'.realEndpoint ∧ cfg.realBucket = cfg'.realBucket ∧
      cfg.pathPrefix = cfg'.pathPrefix := by
  have hversion : (0 : UInt8) ∉ virtualOpaqueTokenVersion := by decide
  have hkind : (0 : UInt8) ∉ kind.bytes := by cases kind <;> decide
  obtain ⟨-, haad⟩ := withNul_cons_inj hversion hversion haad
  obtain ⟨-, haad⟩ := withNul_cons_inj hkind hkind haad
  obtain ⟨hendpoint, haad⟩ :=
    withNul_cons_inj h.nul_notMem_endpoint h'.nul_notMem_endpoint haad
  obtain ⟨hbucket, hpath⟩ := withNul_cons_inj h.nul_notMem_bucket h'.nul_notMem_bucket haad
  exact ⟨hendpoint, hbucket, hpath⟩

/-- A text that starts with the heads of two kinds has one kind. -/
theorem tokenHead_inj {kind kind' : TokenKind} {s t : Bytes}
    (h : tokenHead kind ++ s = tokenHead kind' ++ t) : kind = kind' := by
  -- the kinds differ in their first letter
  have hlen : ∀ kind : TokenKind, 5 ≤ (tokenHead kind).length := by
    intro kind
    cases kind <;> decide
  have hfive := congrArg (List.take 5) h
  rw [List.take_append_of_le_length (hlen kind), List.take_append_of_le_length (hlen kind')]
    at hfive
  revert hfive
  cases kind <;> cases kind' <;> decide

end

/-- **ROUTING TOKENS DO NOT CROSS DOMAINS**: a token that decodes was encoded for the same
    kind, endpoint, bucket, prefix and key, whatever codecs the two mappings carry, for
    the codec in use is always the one a new codec would be.

    The keyed hash is assumed not to collide on the two key derivations compared; a hash
    with 32-byte results cannot be injective on all inputs. -/
theorem routing_tokens_separated {hp : HostParser} {cr : Crypto}
    {raw raw' : Option VBucketConfig} {cfg cfg' : VBucketConfig}
    {codec codec' : Option OpaqueTokenCipher} (hideal : cr.Binds)
    (hhash : Set.InjOn (fun input : Bytes × Bytes => cr.hmacSHA256 input.1 input.2)
      {subkeyInput cfg, subkeyInput cfg'})
    (hcfg : normalizeVBucketConfig hp cr raw = .ok cfg)
    (hcfg' : normalizeVBucketConfig hp cr raw' = .ok cfg')
    (hmade : ∀ c, codec = some c → c.Made cr) (hmade' : ∀ c, codec' = some c → c.Made cr) :
    (∀ kind kind' value token result,
      encodeOpaqueToken cr { cfg with routingTokenCodec := codec } kind value = .ok token →
      decodeOpaqueToken cr { cfg' with routingTokenCodec := codec' } kind' token = .ok result →
      kind = kind' ∧ SameNamespace cfg cfg') ∧
    (∀ mapping : VBucketConfig, mapping.CodecMade cr →
      routingTokenCipher cr mapping = newOpaqueTokenCipher cr mapping) := by
  refine ⟨?_, fun mapping h => routingTokenCipher_eq h⟩
  intro kind kind' value token result hencode hdecode
  have hcipher : ∀ {mapping : VBucketConfig} {codec : Option OpaqueTokenCipher},
      (∀ c, codec = some c → c.Made cr) → mapping.routingTokenKey.length = 32 →
      routingTokenCipher cr { mapping with routingTokenCodec := codec } =
        .ok (cipherOf cr mapping) := by
    intro mapping codec hm hlen
    have hcodec : VBucketConfig.CodecMade cr { mapping with routingTokenCodec := codec } := hm
    rw [routingTokenCipher_eq hcodec, newOpaqueTokenCipher_eq, if_pos hlen]
    rfl
  have hc := hcipher hmade (normalize_key hcfg)
  have hc' := hcipher hmade' (normalize_key hcfg')
  have hne : value ≠ [] := by
    rintro rfl
    exact nomatch hencode
  rw [encodeOpaqueToken_eq hc hne] at hencode
  cases hencode
  obtain ⟨data, htoken, _, hopen, _⟩ := (decodeOpaqueToken_ok_iff hc').mp hdecode
  obtain rfl : kind = kind' := tokenHead_inj htoken
  -- both sides carry the same bytes, so what is opened is what was sealed
  have hdata := congrArg base64Decode (List.append_cancel_left htoken)
  rw [base64Decode_encode, base64Decode_encode] at hdata
  cases hdata
  rw [List.take_left' (syntheticNonce_length value), List.drop_left' (syntheticNonce_length value)]
    at hopen
  obtain ⟨hkey, haad⟩ := hideal _ _ _ _ _ _ _ (Option.isSome_iff_exists.mpr ⟨_, hopen⟩)
  have hinput : subkeyInput cfg' = subkeyInput cfg :=
    hhash (Set.mem_insert_of_mem _ rfl) (Set.mem_insert _ _) hkey
  obtain ⟨hendpoint, hbucket, hpath⟩ :=
    opaqueTokenAAD_inj (normalize_spec hcfg) (normalize_spec hcfg') haad.symm
  exact ⟨rfl, hendpoint, hbucket, hpath, (congrArg Prod.fst hinput).symm⟩

/-- The sample library binds tokens to their names as the real one is assumed to. -/
theorem framedCrypto_binds : framedCrypto.Binds := by
  intro key nonce plaintext aad key' nonce' aad' h
  obtain ⟨plaintext', hopen⟩ := Option.isSome_iff_exists.mp h
  have hsealed : framed key ++ (framed aad ++ plaintext) =
      framed key' ++ (framed aad' ++ plaintext') := framedCrypto_open.mp hopen
  obtain ⟨hkey, hrest⟩ := framed_append_inj hsealed
  exact ⟨hkey.symm, (framed_append_inj hrest).1.symm⟩

/-- Two prefixes on one bucket: the token of one is refused under the other. -/
theorem routing_tokens_separated_of_prefixes :
    ∃ token, encodeOpaqueToken framedCrypto
        { framedConfig (ascii "t") with routingTokenCodec := none } .version (ascii "x") =
          .ok token ∧
      ∀ kind result, decodeOpaqueToken framedCrypto
        { framedConfig (ascii "u") with routingTokenCodec := none } kind token ≠ .ok result := by
  have hcfg : normalizeVBucketConfig S3.sampleHosts framedCrypto
      (some (framedConfig (ascii "t"))) = .ok (framedConfig (ascii "t")) := by
    decide +kernel
  have hcfg' : normalizeVBucketConfig S3.sampleHosts framedCrypto
      (some (framedConfig (ascii "u"))) = .ok (framedConfig (ascii "u")) := by
    decide +kernel
  -- the two derivations end in different prefixes
  have hne : framedCrypto.hmacSHA256 (subkeyInput (framedConfig (ascii "t"))).1
        (subkeyInput (framedConfig (ascii "t"))).2 ≠
      framedCrypto.hmacSHA256 (subkeyInput (framedConfig (ascii "u"))).1
        (subkeyInput (framedConfig (ascii "u"))).2 := by
    decide +kernel
  have hhash : Set.InjOn
      (fun input : Bytes × Bytes => framedCrypto.hmacSHA256 input.1 input.2)
      {subkeyInput (framedConfig (ascii "t")), subkeyInput (framedConfig (ascii "u"))} := by
    rintro x (rfl | rfl) y (rfl | rfl) hxy
    · rfl
    · exact absurd hxy hne
    · exact absurd hxy.symm hne
    · rfl
  have hnone : ∀ c : OpaqueTokenCipher, (none : Option OpaqueTokenCipher) = some c →
      c.Made framedCrypto := fun _ h => nomatch h
  have hkey : (framedConfig (ascii "t")).routingTokenKey.length = 32 := normalize_key hcfg
  have hcipher : ∃ c, routingTokenCipher framedCrypto
      { framedConfig (ascii "t") with routingTokenCodec := none } = .ok c :=
    exists_routingTokenCipher hkey
  obtain ⟨c, hc⟩ := hcipher
  have htoken : encodeOpaqueToken framedCrypto
      { framedConfig (ascii "t") with routingTokenCodec := none } .version (ascii "x") = .ok _ :=
    encodeOpaqueToken_eq hc (by decide)
  refine ⟨_, htoken, ?_⟩
  intro kind result hdecode
  have hsame := ((routing_tokens_separated framedCrypto_binds hhash hcfg hcfg' hnone hnone).1
    _ _ _ _ _ htoken hdecode).2
  exact absurd hsame.pathPrefix (by decide)

end Mapping
