import VBuckets.MappingProofs
import VBuckets.UrlRoundTripProofs

/-! # Normalised mappings

    What `NormalizeVBucketConfig` leaves in a mapping it accepts: an endpoint that is a
    scheme and a host its own parser reads back, a valid bucket, and a path prefix whose
    segments are all safe. -/

namespace Mapping

open ByteString Url

variable {hp : HostParser} {cr : Crypto}

/-- A mapping in the form the proxy uses. -/
structure Normalized (hp : HostParser) (cfg : VBucketConfig) : Prop where
  endpoint : ∃ scheme host, (scheme = ascii "http" ∨ scheme = ascii "https") ∧
    cfg.realEndpoint = scheme ++ ascii "://" ++ escape host .host ∧
    hp.parseHost scheme (escape host .host) = some host
  bucket : isValidBucketName cfg.realBucket = true
  segments : cfg.pathPrefix ≠ [] → ∀ segment ∈ split 47 cfg.pathPrefix,
    unsafeSegment segment = false

/-! ## The endpoint -/

/-- The text `NormalizeVBucketConfig` parses. -/
def endpointText (raw : Bytes) : Bytes :=
  if contains (trimSpace raw) (ascii "://") then trimSpace raw
  else ascii "https://" ++ trimSpace raw

/-- Nothing but a scheme, a host and the root path. -/
structure Bare (u : URL) : Prop where
  user : u.hasUser = false
  path : u.path = [] ∨ u.path = ascii "/"
  rawPath : u.rawPath = []
  rawQuery : u.rawQuery = []
  forceQuery : u.forceQuery = false
  fragment : u.fragment = []

/-- A scheme and a host a mapping may name. -/
structure Acceptable (hp : HostParser) (usePathStyle : Bool) (scheme host : Bytes) : Prop where
  known : scheme = ascii "http" ∨ scheme = ascii "https"
  given : host ≠ []
  hostname : (splitHostPort host).1 ≠ []
  request : parseRequestURI hp (ascii "//" ++ host) ≠ none
  address : ¬ (usePathStyle = false ∧ Domain.parseIP (splitHostPort host).1 = true)
  port : ¬ ((splitHostPort host).2 ≠ [] ∧ ¬ (1 ≤ Domain.decimal (splitHostPort host).2 ∧
    Domain.decimal (splitHostPort host).2 ≤ 65535))
  portGiven : ¬ ((splitHostPort host).2 = [] ∧ hasSuffix host (ascii ":") = true)

/-- The canonical endpoint. -/
def originText (scheme host : Bytes) : Bytes := scheme ++ ascii "://" ++ escape host .host

theorem originText_eq {u : URL} (h : Bare u) (hhost : u.host ≠ []) :
    trimSuffix { u with path := [], rawPath := [] }.string (ascii "/") =
      originText u.scheme u.host := by
  have hstring : ({ u with path := [], rawPath := [] } : URL).string =
      originText u.scheme u.host := by
    have hplain := string_plain (u := { u with path := [], rawPath := [] }) rfl (Or.inl rfl)
      h.forceQuery h.fragment
    rw [hplain, h.rawQuery]
    simp [originText, escape, queryPart]
  -- the host does not end in a slash
  have hslash : hasSuffix (originText u.scheme u.host) (ascii "/") = false := by
    rw [Bool.eq_false_iff]
    intro hsuf
    obtain ⟨t, ht⟩ := hasSuffix_iff.mp hsuf
    have hlast := congrArg List.getLast? ht
    rw [originText, List.getLast?_append_of_ne_nil _ (fun he => hhost (escape_eq_nil he))] at hlast
    have hmem : (47 : UInt8) ∈ escape u.host .host :=
      List.mem_of_getLast? (hlast.symm.trans (by simp [ascii]))
    exact (isPlain_host u.host 47 hmem).2.1 rfl
  rw [hstring, trimSuffix, hslash]
  rfl

theorem ite_error_ok_iff {α : Type} {p : Prop} [Decidable p] {e : Message}
    {x : Except Message α} {v : α} :
    (if p then .error e else x) = .ok v ↔ ¬ p ∧ x = .ok v := by
  by_cases hp : p
  · rw [if_pos hp]
    exact iff_of_false (fun h => (nomatch h)) (fun h => h.1 hp)
  · rw [if_neg hp]
    exact (and_iff_right hp).symm

/-- **ENDPOINTS**: what `normalizeEndpoint` accepts, and what it makes of it. -/
theorem normalizeEndpoint_ok_iff {raw endpoint : Bytes} {usePathStyle : Bool} :
    normalizeEndpoint hp raw usePathStyle = .ok endpoint ↔
      trimSpace raw ≠ [] ∧ ∃ u, parse hp (endpointText raw) = some u ∧ Bare u ∧
        Acceptable hp usePathStyle u.scheme u.host ∧ endpoint = originText u.scheme u.host := by
  rw [normalizeEndpoint]
  dsimp only
  rw [ite_error_ok_iff]
  refine and_congr_right (fun _ => ?_)
  rw [← endpointText]
  cases hparse : parse hp (endpointText raw) with
  | none =>
      refine iff_of_false (fun h => (nomatch h)) ?_
      rintro ⟨u, hu, -⟩
      exact nomatch hu
  | some u =>
      dsimp only
      rw [ite_error_ok_iff, ite_error_ok_iff, ite_error_ok_iff, ite_error_ok_iff,
        ite_error_ok_iff, ite_error_ok_iff]
      constructor
      · rintro ⟨habs, hbare, hrequest, haddress, hport, hgiven, heq⟩
        simp only [not_or, not_and, not_not, Bool.not_eq_true] at habs hbare
        obtain ⟨hscheme, hhost, hname⟩ := habs
        obtain ⟨huser, hpath, hraw, hquery, hforce, hfragment⟩ := hbare
        have hb : Bare u := by
          refine ⟨huser, ?_, hraw, hquery, hforce, hfragment⟩
          by_cases hnil : u.path = []
          · exact Or.inl hnil
          · exact Or.inr (hpath hnil)
        have hs : u.scheme = ascii "http" ∨ u.scheme = ascii "https" := by
          by_cases hhttp : u.scheme = ascii "http"
          · exact Or.inl hhttp
          · exact Or.inr (hscheme hhttp)
        refine ⟨u, rfl, hb, ⟨hs, hhost, hname, hrequest, haddress, hport, hgiven⟩, ?_⟩
        rw [← originText_eq hb hhost]
        exact (Except.ok.inj heq).symm
      · rintro ⟨v, hv, hb, ha, rfl⟩
        cases hv
        refine ⟨?_, ?_, ha.request, ha.address, ha.port, ha.portGiven,
          congrArg Except.ok (originText_eq hb ha.given)⟩
        · rintro (⟨hhttp, hhttps⟩ | hnil | hnil)
          · exact ha.known.elim hhttp hhttps
          · exact ha.given hnil
          · exact ha.hostname hnil
        · rintro (huser | ⟨hne, hroot⟩ | hraw | hquery | hforce | hfragment)
          · exact nomatch huser.symm.trans hb.user
          · exact hb.path.elim hne hroot
          · exact hraw hb.rawPath
          · exact hquery hb.rawQuery
          · exact nomatch hforce.symm.trans hb.forceQuery
          · exact hfragment hb.fragment

/-- The canonical endpoint text. -/
theorem normalizeEndpoint_spec {raw endpoint : Bytes} {usePathStyle : Bool}
    (h : normalizeEndpoint hp raw usePathStyle = .ok endpoint) :
    ∃ scheme host, (scheme = ascii "http" ∨ scheme = ascii "https") ∧
      endpoint = scheme ++ ascii "://" ++ escape host .host ∧
      hp.parseHost scheme (escape host .host) = some host := by
  obtain ⟨-, u, hu, -, ha, rfl⟩ := normalizeEndpoint_ok_iff.mp h
  exact ⟨u.scheme, u.host, ha.known, rfl, parse_host hu ha.given⟩

/-- The checks a mapping has passed, on the fields it has afterwards. -/
structure Checked (hp : HostParser) (raw cfg : VBucketConfig) : Prop where
  key : cfg.routingTokenKey.length = 32
  endpoint : normalizeEndpoint hp raw.realEndpoint raw.realUsePathStyle = .ok cfg.realEndpoint
  bucket : isValidBucketName cfg.realBucket = true
  accessKey : validAccessKeyID cfg.realAccessKey = true
  region : validBackendRegion cfg.realRegion = true
  segments : ¬ (cfg.pathPrefix ≠ [] ∧ (split 47 cfg.pathPrefix).any unsafeSegment = true)

/-- The last step touches the codec only. -/
theorem ensureRoutingTokenCodec_ok {normalized cfg : VBucketConfig}
    (h : ensureRoutingTokenCodec cr normalized = .ok cfg) :
    ∃ codec, cfg = { normalized with routingTokenCodec := codec } := by
  rw [ensureRoutingTokenCodec] at h
  split at h
  · exact ⟨normalized.routingTokenCodec, (Except.ok.inj h).symm⟩
  · split at h
    · cases h
    · exact ⟨_, (Except.ok.inj h).symm⟩

theorem normalize_checked {raw : Option VBucketConfig} {cfg : VBucketConfig}
    (h : normalizeVBucketConfig hp cr raw = .ok cfg) :
    ∃ mapping, raw = some mapping ∧ Checked hp mapping cfg := by
  rw [normalizeVBucketConfig.eq_def] at h
  split at h
  · exact nomatch h
  · next mapping =>
      refine ⟨mapping, rfl, ?_⟩
      split at h
      · exact nomatch h
      next hlen =>
      split at h
      · exact nomatch h
      next endpoint hendpoint =>
      simp only at h
      split at h
      · exact nomatch h
      next hbucket =>
      split at h
      · exact nomatch h
      next hcredentials =>
      split at h
      · exact nomatch h
      next hregion =>
      split at h
      · exact nomatch h
      next hsegments =>
      simp only [Bool.not_eq_true', Bool.not_eq_false] at hbucket hregion
      simp only [Bool.or_eq_true, Bool.not_eq_true', not_or, Bool.not_eq_false] at hcredentials
      -- the codec is the only field still open
      obtain ⟨codec, rfl⟩ := ensureRoutingTokenCodec_ok h
      exact ⟨not_not.mp hlen, hendpoint, hbucket, hcredentials.1, hregion, hsegments⟩

/-- **NORMALISATION**: what every accepted mapping looks like afterwards. -/
theorem normalize_spec {raw : Option VBucketConfig} {cfg : VBucketConfig}
    (h : normalizeVBucketConfig hp cr raw = .ok cfg) : Normalized hp cfg := by
  obtain ⟨mapping, -, hchecked⟩ := normalize_checked h
  refine ⟨normalizeEndpoint_spec hchecked.endpoint, hchecked.bucket, ?_⟩
  intro hne segment hseg
  rw [Bool.eq_false_iff]
  intro hbad
  exact hchecked.segments ⟨hne, List.any_eq_true.mpr ⟨segment, hseg, hbad⟩⟩

/-! ## The prefix -/

section
variable {cfg : VBucketConfig}

/-- A normalised prefix does not end in a slash. -/
theorem Normalized.trimSuffix_prefix (h : Normalized hp cfg) :
    trimSuffix cfg.pathPrefix (ascii "/") = cfg.pathPrefix := by
  by_cases hsuf : hasSuffix cfg.pathPrefix (ascii "/") = true
  · obtain ⟨t, ht⟩ := hasSuffix_iff.mp hsuf
    have hne : cfg.pathPrefix ≠ [] := by
      rw [← ht]
      exact fun he => nomatch (List.append_eq_nil_iff.mp he).2
    -- its last segment would be empty
    have hmem : ([] : Bytes) ∈ split 47 cfg.pathPrefix := by
      rw [← ht, show t ++ ascii "/" = t ++ 47 :: [] from rfl, split_append]
      exact List.mem_append_right _ List.mem_cons_self
    exact absurd (h.segments hne [] hmem) (by decide)
  · rw [trimSuffix, if_neg hsuf]

theorem isValidBucketName_ne_nil {bucket : Bytes} (h : isValidBucketName bucket = true) :
    bucket ≠ [] := by
  rintro rfl
  exact absurd h (by decide)

end

end Mapping
