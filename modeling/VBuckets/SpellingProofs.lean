import Mathlib.Logic.Relation
import VBuckets.CanonicalProofs
import VBuckets.NormalizationProofs
import VBuckets.TokenProofs
import VBuckets.TrimProofs

/-! # Spellings of a mapping

    `NormalizeVBucketConfig` runs when a mapping enters the cache and again at every
    request, and the tokens of a mapping are bound to what it leaves.  So what it leaves
    must be a fixed point, and must not depend on how the mapping was written.

    * **`readEndpoint_iff`** — an endpoint without a fragment is accepted exactly when it
      is a scheme, `://`, a host and at most one slash.
    * **`normalizeEndpoint_again`** — the endpoint that is written is accepted, and
      written again.
    * **`EndpointRewrite`** — the ways to write one endpoint; the result is invariant
      under their closure.
    * **`normalize_ok_iff`** — what is accepted, and what is returned for it; the second
      pass and the other spellings follow from it. -/

namespace Mapping

open ByteString Url

variable {hp : HostParser} {cr : Crypto}

/-! ## Reading an endpoint -/

theorem cut_fst (sep : UInt8) (s : Bytes) :
    sep ∉ (cut sep s).1 ∧ s = (cut sep s).1 ++ s.drop (cut sep s).1.length := by
  by_cases hmem : sep ∈ s
  · obtain ⟨before, after, rfl, hbefore⟩ := List.eq_append_cons_of_mem hmem
    rw [cut_append hbefore]
    exact ⟨hbefore, by rw [List.drop_left]⟩
  · rw [cut_of_notMem hmem]
    exact ⟨hmem, by rw [List.drop_length, List.append_nil]⟩

/-- A query that is empty and not forced was not there. -/
theorem question_notMem {rest : Bytes}
    (hforce : (hasSuffix rest (ascii "?") && rest.count 63 == 1) = false)
    (hquery : (cut 63 rest).2.1 = []) : (63 : UInt8) ∉ rest := by
  intro hmem
  obtain ⟨before, after, rfl, hbefore⟩ := List.eq_append_cons_of_mem hmem
  rw [cut_append hbefore] at hquery
  have hnil : after = [] := hquery
  subst hnil
  have hsuffix : hasSuffix (before ++ [63]) (ascii "?") = true := hasSuffix_iff.mpr ⟨before, rfl⟩
  have hcount : (before ++ [63]).count 63 = 1 := by
    rw [List.count_append, List.count_eq_zero_of_not_mem hbefore]
    rfl
  rw [hsuffix, hcount] at hforce
  exact nomatch hforce

/-- A path in default spelling that decodes to nothing or to a slash is that text. -/
theorem setPath_root {u v : URL} {p : Bytes} (h : setPath u p = some v)
    (hpath : v.path = [] ∨ v.path = ascii "/") (hraw : v.rawPath = []) :
    p = [] ∨ p = ascii "/" := by
  rw [setPath] at h
  split at h
  · cases h
  · next path _ =>
      cases h
      by_cases hspelled : escape path .path = p
      · rw [← hspelled]
        rcases hpath with hnil | hslash
        · exact Or.inl (congrArg (escape · .path) hnil)
        · exact Or.inr (congrArg (escape · .path) hslash)
      · exact Or.inl ((if_neg hspelled).symm.trans hraw)

/-- `setPath` sets the path only. -/
theorem setPath_eq {u v : URL} {p : Bytes} (h : setPath u p = some v) :
    v = { u with path := v.path, rawPath := v.rawPath } := by
  rw [setPath] at h
  split at h
  · cases h
  · cases h
    rfl

/-- An authority without user information. -/
theorem parseAuthority_plain {scheme authority host : Bytes}
    (h : parseAuthority hp scheme authority = some (false, host)) :
    (64 : UInt8) ∉ authority ∧ hp.parseHost scheme authority = some host := by
  rw [parseAuthority] at h
  split at h
  · next hcut =>
      obtain ⟨host', hhost, heq⟩ := Option.map_eq_some_iff.mp h
      cases heq
      refine ⟨?_, hhost⟩
      intro hmem
      obtain ⟨before, after, heq, hbefore⟩ := List.eq_append_cons_of_mem (List.mem_reverse.mpr hmem)
      rw [cutLast, heq, cut_append hbefore] at hcut
      cases hcut
  · split at h
    · cases h
    · split at h
      · cases h
      · cases h

/-- The text is written from a scheme, a host and at most one slash. -/
def Written (hp : HostParser) (text scheme host : Bytes) : Prop :=
  ∃ spelled authority p, text = spelled ++ ascii "://" ++ authority ++ p ∧
    SchemeText spelled ∧ toLower spelled = scheme ∧
    (∀ b ∈ authority, IsPlain b ∧ b ≠ 47 ∧ b ≠ 64) ∧ (p = [] ∨ p = ascii "/") ∧
    hp.parseHost scheme authority = some host

/-- What is written from such parts is read. -/
theorem Written.parse {text scheme host : Bytes} (h : Written hp text scheme host) :
    ∃ u, Url.parse hp text = some u ∧ Bare u ∧ u.scheme = scheme ∧ u.host = host := by
  obtain ⟨spelled, authority, p, rfl, hspelled, rfl, hplain, hp', hhost⟩ := h
  have hpath : ∀ b ∈ p, IsPlain b := by
    rcases hp' with rfl | rfl
    · exact fun b hb => nomatch hb
    · rintro b hb
      rw [List.mem_singleton.mp hb]
      exact ⟨by decide, by decide, by decide⟩
  have habs : p = [] ∨ ∃ t, p = 47 :: t := hp'.imp id (fun h => ⟨[], h⟩)
  have hread := parse_spelled hp (q := []) hspelled hplain hpath habs (fun b hb => nomatch hb)
  rw [show queryPart [] = [] from rfl, List.append_nil, hhost, Option.bind_some] at hread
  rcases hp' with rfl | rfl
  · exact ⟨_, hread, ⟨rfl, Or.inl rfl, rfl, rfl, rfl, rfl⟩, rfl, rfl⟩
  · exact ⟨_, hread, ⟨rfl, Or.inr rfl, rfl, rfl, rfl, rfl⟩, rfl, rfl⟩

/-- What is read without a fragment was written from such parts. -/
theorem written_of_parse {text : Bytes} {u : URL} (h : Url.parse hp text = some u)
    (hfragment : (35 : UInt8) ∉ text) (hbare : Bare u) (hscheme : u.scheme ≠ [])
    (hhost : u.host ≠ []) : Written hp text u.scheme u.host := by
  rw [Url.parse, cut_of_notMem hfragment] at h
  have hread : parseNoFragment hp text false = some u := by
    cases hparse : parseNoFragment hp text false with
    | none =>
        rw [hparse] at h
        cases h
    | some v =>
        rw [hparse] at h
        exact h
  -- of the branches of the reader only one gives a scheme and a host
  simp only [parseNoFragment] at hread
  split at hread
  · cases hread
  next hcontrol =>
  split at hread
  · cases hread
  split at hread
  · cases hread
    exact absurd rfl hhost
  split at hread
  · cases hread
  next spelled rest hget =>
  split at hread
  · cases hread
    exact absurd rfl hhost
  split at hread
  · cases hread
  split at hread
  case isFalse => exact absurd (setPath_host hread).1 hhost
  next hdouble =>
  split at hread
  · cases hread
  next user host hauthority =>
  have hp' := setPath_root hread hbare.path hbare.rawPath
  have hu := setPath_eq hread
  have hlower : u.scheme = toLower spelled := congrArg URL.scheme hu
  have hhosts : u.host = host := congrArg URL.host hu
  -- a bare URL has no user, query or path, so nothing was cut off
  have huser : user = false := (congrArg URL.hasUser hu).symm.trans hbare.user
  have hforce := (congrArg URL.forceQuery hu).symm.trans hbare.forceQuery
  have hquery := (congrArg URL.rawQuery hu).symm.trans hbare.rawQuery
  dsimp only at hforce hquery
  rw [hforce, if_neg Bool.false_ne_true] at hquery
  have hquestion := question_notMem hforce hquery
  rw [cut_of_notMem hquestion] at hp' hdouble hauthority
  obtain ⟨-, hslashes⟩ := Bool.and_eq_true_iff.mp hdouble
  obtain ⟨tail, rfl⟩ := hasPrefix_iff.mp hslashes
  rw [show (ascii "//" ++ tail).drop 2 = tail from rfl] at hp' hauthority
  have hspelled : spelled ≠ [] := by
    rintro rfl
    exact hscheme hlower
  obtain ⟨hschemeText, rfl⟩ := (getScheme_iff hspelled).mp hget
  rw [huser] at hauthority
  obtain ⟨hat, hparsed⟩ := parseAuthority_plain hauthority
  obtain ⟨hslash, htail⟩ := cut_fst 47 tail
  rw [hlower, hhosts]
  refine ⟨spelled, (cut 47 tail).1, tail.drop (cut 47 tail).1.length, ?_, hschemeText, rfl, ?_, hp',
    hparsed⟩
  · rw [List.append_assoc, ← htail, show ascii "://" = 58 :: ascii "//" from rfl, List.append_assoc]
    rfl
  · intro b hb
    have hrest : b ∈ ascii "//" ++ tail := by
      rw [htail]
      exact List.mem_append_right _ (List.mem_append_left _ hb)
    have htext : b ∈ spelled ++ 58 :: (ascii "//" ++ tail) :=
      List.mem_append_right _ (List.mem_cons_of_mem _ hrest)
    refine ⟨⟨?_, ?_, ?_⟩, ?_, ?_⟩
    · rintro rfl
      exact hfragment htext
    · rintro rfl
      exact hquestion hrest
    · rw [Bool.eq_false_iff]
      intro hbad
      exact hcontrol (List.any_eq_true.mpr ⟨b, htext, hbad⟩)
    · rintro rfl
      exact hslash hb
    · rintro rfl
      exact hat hb

theorem fragment_mem_endpointText {raw : Bytes} :
    (35 : UInt8) ∈ endpointText raw ↔ 35 ∈ trimSpace raw := by
  rw [endpointText]
  split
  · rfl
  · rw [List.mem_append]
    exact or_iff_right (by decide +kernel)

/-- **ENDPOINTS WITHOUT A FRAGMENT**: accepted exactly when they are written from a scheme,
    a host and at most one slash. -/
theorem readEndpoint_iff {raw endpoint : Bytes} {usePathStyle : Bool}
    (hfragment : (35 : UInt8) ∉ trimSpace raw) :
    normalizeEndpoint hp raw usePathStyle = .ok endpoint ↔
      trimSpace raw ≠ [] ∧ ∃ scheme host, Written hp (endpointText raw) scheme host ∧
        Acceptable hp usePathStyle scheme host ∧ endpoint = originText scheme host := by
  rw [normalizeEndpoint_ok_iff]
  refine and_congr_right (fun _ => ?_)
  constructor
  · rintro ⟨u, hu, hbare, ha, heq⟩
    have hscheme : u.scheme ≠ [] := by
      rcases ha.known with h | h
      · rw [h]
        decide
      · rw [h]
        decide
    exact ⟨u.scheme, u.host, written_of_parse hu (fun h => hfragment (fragment_mem_endpointText.mp h))
      hbare hscheme ha.given, ha, heq⟩
  · rintro ⟨scheme, host, hwritten, ha, heq⟩
    obtain ⟨u, hu, hbare, rfl, rfl⟩ := hwritten.parse
    exact ⟨u, hu, hbare, ha, heq⟩

/-! ## The endpoint that is written -/

/-- An escaped host is printable ASCII. -/
theorem escape_host_ascii {host : Bytes} {b : UInt8} (hb : b ∈ escape host .host) :
    b < 0x80 ∧ isASCIISpace b = false := by
  rcases mem_escape hb with rfl | ⟨rfl, -⟩ | h
  · exact ⟨by decide, rfl⟩
  · exact ⟨by decide, rfl⟩
  · exact forall_byte (P := fun b => shouldEscape b .host = false →
      b < 0x80 ∧ isASCIISpace b = false) (by decide +kernel) b h

theorem originText_ascii {scheme host : Bytes}
    (hs : scheme = ascii "http" ∨ scheme = ascii "https") :
    ∀ b ∈ originText scheme host, b < 0x80 ∧ isASCIISpace b = false := by
  intro b hb
  rw [originText, List.mem_append] at hb
  rcases hb with hb | hb
  · rcases hs with rfl | rfl
    · exact (show ∀ b ∈ ascii "http" ++ ascii "://", b < 0x80 ∧ isASCIISpace b = false by
        decide +kernel) b hb
    · exact (show ∀ b ∈ ascii "https" ++ ascii "://", b < 0x80 ∧ isASCIISpace b = false by
        decide +kernel) b hb
  · exact escape_host_ascii hb

/-- **THE ENDPOINT IS A FIXED POINT**: what is written for an accepted endpoint is accepted
    and written again. -/
theorem normalizeEndpoint_again {raw endpoint : Bytes} {usePathStyle : Bool}
    (h : normalizeEndpoint hp raw usePathStyle = .ok endpoint) :
    normalizeEndpoint hp endpoint usePathStyle = .ok endpoint := by
  obtain ⟨-, u, hu, -, ha, rfl⟩ := normalizeEndpoint_ok_iff.mp h
  have htrim : trimSpace (originText u.scheme u.host) = originText u.scheme u.host :=
    (S3.NoSpace.of_ascii (originText_ascii ha.known)).trimSpace_eq
  have htext : endpointText (originText u.scheme u.host) = originText u.scheme u.host := by
    have hcontains : contains (originText u.scheme u.host) (ascii "://") = true :=
      contains_iff.mpr ⟨u.scheme, escape u.host .host, rfl⟩
    rw [endpointText, htrim, if_pos hcontains]
  obtain ⟨hschemeText, hlower⟩ := schemeText_http ha.known
  have hwritten : Written hp (originText u.scheme u.host) u.scheme u.host :=
    ⟨u.scheme, escape u.host .host, [], (List.append_nil _).symm, hschemeText, hlower,
      isPlain_host u.host, Or.inl rfl, parse_host hu ha.given⟩
  obtain ⟨v, hv, hbare, hscheme, hhost⟩ := hwritten.parse
  refine normalizeEndpoint_ok_iff.mpr ⟨?_, v, ?_, hbare, ?_, ?_⟩
  · rw [htrim]
    intro hnil
    exact ha.given (escape_eq_nil (List.append_eq_nil_iff.mp hnil).2)
  · rw [htext]
    exact hv
  · rw [hscheme, hhost]
    exact ha
  · rw [hscheme, hhost]

/-! ## Spellings of an endpoint -/

/-- The ways to write one endpoint.  A slash behind a `#` would be part of a fragment. -/
inductive EndpointRewrite : Bytes → Bytes → Prop
  /-- Spaces around it. -/
  | spaces {e e' : Bytes} (h : trimSpace e = trimSpace e') : EndpointRewrite e e'
  /-- `https` left out. -/
  | scheme {e : Bytes} (htrim : trimSpace e = e) (hne : e ≠ [])
      (hbare : contains e (ascii "://") = false) : EndpointRewrite e (ascii "https://" ++ e)
  /-- A slash behind it. -/
  | slash {e : Bytes} (htrim : trimSpace e = e) (hne : e ≠ []) (hlast : e.getLast? ≠ some 47)
      (hfragment : (35 : UInt8) ∉ e) : EndpointRewrite e (e ++ ascii "/")

/-- Some of these, in any order and either way. -/
def SameEndpoint : Bytes → Bytes → Prop := Relation.EqvGen EndpointRewrite

theorem getLast?_slash (t : Bytes) : (t ++ ascii "/").getLast? = some 47 :=
  List.getLast?_concat

/-- One slash more or less does not matter to what is read. -/
theorem written_slash {text scheme host : Bytes} (hlast : text.getLast? ≠ some 47) :
    Written hp text scheme host ↔ Written hp (text ++ ascii "/") scheme host := by
  constructor
  · rintro ⟨spelled, authority, p, rfl, hspelled, hlower, hplain, hp' | hp', hhost⟩
    · subst hp'
      refine ⟨spelled, authority, ascii "/", ?_, hspelled, hlower, hplain, Or.inr rfl, hhost⟩
      rw [List.append_nil]
    · subst hp'
      exact absurd (getLast?_slash _) hlast
  · rintro ⟨spelled, authority, p, htext, hspelled, hlower, hplain, hp' | hp', hhost⟩
    · subst hp'
      rw [List.append_nil] at htext
      cases authority using List.reverseRecOn with
      | nil =>
          -- the slash is the last of `://`
          rw [List.append_nil, show ascii "://" = ascii ":" ++ ascii "/" ++ ascii "/" from rfl,
            ← List.append_assoc, ← List.append_assoc] at htext
          refine absurd ?_ hlast
          rw [List.append_cancel_right htext]
          exact getLast?_slash _
      | append_singleton authority b _ =>
          have hends := congrArg List.getLast? htext
          rw [← List.append_assoc, List.getLast?_concat, getLast?_slash] at hends
          have hslash : (47 : UInt8) = b := Option.some.inj hends
          exact absurd hslash.symm (hplain b (List.mem_append_right _ (List.mem_singleton.mpr rfl))).2.1
    · subst hp'
      refine ⟨spelled, authority, [], ?_, hspelled, hlower, hplain, Or.inl rfl, hhost⟩
      rw [List.append_nil]
      exact List.append_cancel_right htext

theorem contains_slash {e : Bytes} (hlast : e.getLast? ≠ some 47) :
    contains (e ++ ascii "/") (ascii "://") = contains e (ascii "://") := by
  rw [Bool.eq_iff_iff, contains_iff, contains_iff]
  refine List.infix_concat_iff.trans (or_iff_right ?_)
  rintro ⟨t, ht⟩
  have hends : t ++ ascii ":" ++ ascii "/" ++ ascii "/" = e ++ ascii "/" := by
    rw [List.append_assoc, List.append_assoc]
    exact ht
  refine hlast ?_
  rw [← List.append_cancel_right hends]
  exact getLast?_slash _

theorem endpointText_slash {e : Bytes} (htrim : trimSpace e = e) (hlast : e.getLast? ≠ some 47) :
    endpointText (e ++ ascii "/") = endpointText e ++ ascii "/" := by
  have htrim' : trimSpace (e ++ ascii "/") = e ++ ascii "/" :=
    trimSpace_append_graphic htrim (by decide) rfl
  rw [endpointText, endpointText, htrim, htrim', contains_slash hlast]
  split
  · rfl
  · rw [List.append_assoc]

/-- **ONE ENDPOINT, ONE RESULT**: a rewrite changes neither what is accepted nor what is
    written for it. -/
theorem EndpointRewrite.normalizeEndpoint_iff {e e' endpoint : Bytes} {usePathStyle : Bool}
    (h : EndpointRewrite e e') :
    normalizeEndpoint hp e usePathStyle = .ok endpoint ↔
      normalizeEndpoint hp e' usePathStyle = .ok endpoint := by
  cases h with
  | spaces h =>
      rw [normalizeEndpoint_ok_iff, normalizeEndpoint_ok_iff, endpointText, endpointText, h]
  | scheme htrim hne hbare =>
      have hhead : ascii "https://" ++ e = 104 :: ascii "ttps:/" ++ 47 :: e := by
        rw [show ascii "https://" = 104 :: ascii "ttps:/" ++ [47] by decide +kernel,
          List.append_assoc]
        rfl
      have htrim' : trimSpace (ascii "https://" ++ e) = ascii "https://" ++ e := by
        rw [hhead]
        exact trimSpace_graphic_append htrim (by decide) rfl (by decide) rfl
      have hcontains : contains (ascii "https://" ++ e) (ascii "://") = true :=
        contains_iff.mpr ⟨ascii "https", e, by
          rw [show ascii "https" ++ ascii "://" = ascii "https://" by decide +kernel]⟩
      -- the source writes the scheme itself when none is given
      have htext : endpointText (ascii "https://" ++ e) = endpointText e := by
        rw [endpointText, endpointText, htrim', htrim, if_pos hcontains,
          if_neg (Bool.eq_false_iff.mp hbare)]
      rw [normalizeEndpoint_ok_iff, normalizeEndpoint_ok_iff, htext, htrim, htrim']
      exact and_congr_left (fun _ => iff_of_true hne (List.append_ne_nil_of_right_ne_nil _ hne))
  | slash htrim hne hlast hfragment =>
      have htrim' : trimSpace (e ++ ascii "/") = e ++ ascii "/" :=
        trimSpace_append_graphic htrim (by decide) rfl
      have hfragment' : (35 : UInt8) ∉ e ++ ascii "/" := by
        rw [List.mem_append, not_or]
        exact ⟨hfragment, by decide⟩
      -- a second slash would be a path of its own
      have htextLast : (endpointText e).getLast? ≠ some 47 := by
        rw [endpointText, htrim]
        split
        · exact hlast
        · rw [List.getLast?_append_of_ne_nil _ hne]
          exact hlast
      rw [readEndpoint_iff (by rwa [htrim]), readEndpoint_iff (by rwa [htrim']),
        endpointText_slash htrim hlast, htrim, htrim']
      refine and_congr (iff_of_true hne (List.append_ne_nil_of_left_ne_nil hne _)) ?_
      refine exists_congr (fun scheme => exists_congr (fun host => and_congr_left (fun _ => ?_)))
      exact written_slash htextLast

theorem SameEndpoint.normalizeEndpoint_iff {e e' endpoint : Bytes} {usePathStyle : Bool}
    (h : SameEndpoint e e') :
    normalizeEndpoint hp e usePathStyle = .ok endpoint ↔
      normalizeEndpoint hp e' usePathStyle = .ok endpoint := by
  induction h with
  | rel e e' h => exact h.normalizeEndpoint_iff
  | refl e => exact Iff.rfl
  | symm e e' _ ih => exact ih.symm
  | trans e e' e'' _ _ ih ih' => exact ih.trans ih'

/-! ## The whole mapping -/

/-- A mapping passes every check, and its endpoint is written this way. -/
structure Passes (hp : HostParser) (cfg : VBucketConfig) (endpoint : Bytes) : Prop where
  key : cfg.routingTokenKey.length = 32
  endpoint : normalizeEndpoint hp cfg.realEndpoint cfg.realUsePathStyle = .ok endpoint
  bucket : isValidBucketName (trimSpace cfg.realBucket) = true
  accessKey : validAccessKeyID cfg.realAccessKey = true
  secretKey : printableASCII cfg.realSecretKey = true
  region : validBackendRegion (trimSpace cfg.realRegion) = true
  segments : ¬ (trimByte 47 cfg.pathPrefix ≠ [] ∧
    (split 47 (trimByte 47 cfg.pathPrefix)).any unsafeSegment = true)

/-- The fields in canonical form; the codec is still the one that was given. -/
def VBucketConfig.canonical (cfg : VBucketConfig) (endpoint : Bytes) : VBucketConfig :=
  { cfg with
    realEndpoint := endpoint
    realBucket := trimSpace cfg.realBucket
    realRegion := trimSpace cfg.realRegion
    pathPrefix := trimByte 47 cfg.pathPrefix }

/-- The codec of a mapping is kept if it matches, and made otherwise. -/
def VBucketConfig.withCodec (cr : Crypto) (cfg : VBucketConfig) : VBucketConfig :=
  match cfg.routingTokenCodec with
  | some codec =>
      if codec.matches cfg then cfg else { cfg with routingTokenCodec := some (cipherOf cr cfg) }
  | none => { cfg with routingTokenCodec := some (cipherOf cr cfg) }

theorem matches_cipherOf {cfg : VBucketConfig} (hkey : cfg.routingTokenKey.length = 32) :
    (cipherOf cr cfg).matches cfg = true := by
  simp only [OpaqueTokenCipher.matches, cipherOf, hkey, beq_self_eq_true, Bool.and_self]

/-- The last step of normalisation cannot fail with a key of 32 bytes. -/
theorem ensureRoutingTokenCodec_eq {m : VBucketConfig} (hkey : m.routingTokenKey.length = 32) :
    ensureRoutingTokenCodec cr m = .ok (m.withCodec cr) := by
  rw [ensureRoutingTokenCodec, newOpaqueTokenCipher_eq, if_pos hkey, VBucketConfig.withCodec]
  cases m.routingTokenCodec with
  | none => rfl
  | some codec =>
      dsimp only [Option.any_some]
      split
      · rfl
      · rfl

/-- **NORMALISATION IS EXACT**: what is accepted, and what is returned for it. -/
theorem normalize_ok_iff {cfg n : VBucketConfig} :
    normalizeVBucketConfig hp cr (some cfg) = .ok n ↔
      ∃ endpoint, Passes hp cfg endpoint ∧ n = (cfg.canonical endpoint).withCodec cr := by
  rw [normalizeVBucketConfig.eq_def]
  dsimp only
  rw [ite_error_ok_iff]
  cases hendpoint : normalizeEndpoint hp cfg.realEndpoint cfg.realUsePathStyle with
  | error e =>
      refine iff_of_false (fun h => by cases h.2) ?_
      rintro ⟨endpoint, hpasses, -⟩
      cases hendpoint.symm.trans hpasses.endpoint
  | ok endpoint =>
      dsimp only
      rw [ite_error_ok_iff, ite_error_ok_iff, ite_error_ok_iff, ite_error_ok_iff]
      constructor
      · rintro ⟨hkey, hbucket, hcredentials, hregion, hsegments, hcodec⟩
        simp only [Bool.or_eq_true, Bool.not_eq_true', not_or, Bool.not_eq_false]
          at hbucket hcredentials hregion
        refine ⟨endpoint, ⟨not_not.mp hkey, hendpoint, hbucket, hcredentials.1, hcredentials.2,
          hregion, hsegments⟩, ?_⟩
        exact Except.ok.inj (hcodec.symm.trans
          (ensureRoutingTokenCodec_eq (m := cfg.canonical endpoint) (not_not.mp hkey)))
      · rintro ⟨endpoint', hpasses, rfl⟩
        cases hendpoint.symm.trans hpasses.endpoint
        simp only [Bool.or_eq_true, Bool.not_eq_true', not_or, Bool.not_eq_false]
        refine ⟨not_not.mpr hpasses.key, hpasses.bucket, ⟨hpasses.accessKey, hpasses.secretKey⟩,
          hpasses.region, hpasses.segments, ?_⟩
        exact ensureRoutingTokenCodec_eq (m := cfg.canonical endpoint) hpasses.key

section
variable {cfg n : VBucketConfig} {endpoint : Bytes}

theorem withCodec_fields (m : VBucketConfig) :
    m.withCodec cr = { m with routingTokenCodec := (m.withCodec cr).routingTokenCodec } := by
  rw [VBucketConfig.withCodec]
  split
  · split
    · rfl
    · rfl
  · rfl

/-- The codec of a normalised mapping is its own. -/
theorem withCodec_matches {m : VBucketConfig} (hkey : m.routingTokenKey.length = 32) :
    ∃ codec, (m.withCodec cr).routingTokenCodec = some codec ∧
      codec.matches (m.withCodec cr) = true := by
  rw [VBucketConfig.withCodec]
  split
  · next codec hcodec =>
      split
      · next hmatches => exact ⟨codec, hcodec, hmatches⟩
      · exact ⟨cipherOf cr m, rfl, matches_cipherOf hkey⟩
  · exact ⟨cipherOf cr m, rfl, matches_cipherOf hkey⟩

theorem withCodec_self {m : VBucketConfig} {codec : OpaqueTokenCipher}
    (hcodec : m.routingTokenCodec = some codec) (hmatches : codec.matches m = true) :
    m.withCodec cr = m := by
  rw [VBucketConfig.withCodec, hcodec]
  exact if_pos hmatches

/-- With a codec the program made, the codec is the one a new codec would be. -/
theorem withCodec_made {m : VBucketConfig} (hkey : m.routingTokenKey.length = 32)
    (hmade : m.CodecMade cr) :
    m.withCodec cr = { m with routingTokenCodec := some (cipherOf cr m) } := by
  have hcipher := routingTokenCipher_eq hmade
  rw [newOpaqueTokenCipher_eq, if_pos hkey, routingTokenCipher] at hcipher
  rw [VBucketConfig.withCodec]
  split
  · next codec hcodec =>
      split
      · next hmatches =>
          rw [hcodec] at hcipher
          have heq : codec = cipherOf cr m := Except.ok.inj ((if_pos hmatches).symm.trans hcipher)
          rw [← heq, ← hcodec]
      · rfl
  · rfl

/-- **THE SECOND PASS RETURNS THE MAPPING OF THE FIRST.** -/
theorem normalize_again (h : normalizeVBucketConfig hp cr (some cfg) = .ok n) :
    normalizeVBucketConfig hp cr (some n) = .ok n := by
  obtain ⟨endpoint, hpasses, rfl⟩ := normalize_ok_iff.mp h
  obtain ⟨codec, hcodec, hmatches⟩ :
      ∃ codec, ((cfg.canonical endpoint).withCodec cr).routingTokenCodec = some codec ∧
        codec.matches ((cfg.canonical endpoint).withCodec cr) = true :=
    withCodec_matches hpasses.key
  have hn : (cfg.canonical endpoint).withCodec cr =
      { cfg.canonical endpoint with routingTokenCodec := some codec } :=
    (withCodec_fields _).trans (by rw [hcodec])
  rw [hn] at hmatches ⊢
  -- every field is trimmed already
  refine normalize_ok_iff.mpr ⟨endpoint, ⟨hpasses.key, normalizeEndpoint_again hpasses.endpoint, ?_,
    hpasses.accessKey, hpasses.secretKey, ?_, ?_⟩, ?_⟩
  · show isValidBucketName (trimSpace (trimSpace cfg.realBucket)) = true
    rw [trimSpace_trimSpace]
    exact hpasses.bucket
  · show validBackendRegion (trimSpace (trimSpace cfg.realRegion)) = true
    rw [trimSpace_trimSpace]
    exact hpasses.region
  · show ¬ (trimByte 47 (trimByte 47 cfg.pathPrefix) ≠ [] ∧
      (split 47 (trimByte 47 (trimByte 47 cfg.pathPrefix))).any unsafeSegment = true)
    rw [trimByte_trimByte]
    exact hpasses.segments
  · have hcanonical : VBucketConfig.canonical
        { cfg.canonical endpoint with routingTokenCodec := some codec } endpoint =
        { cfg.canonical endpoint with routingTokenCodec := some codec } := by
      simp only [VBucketConfig.canonical, trimSpace_trimSpace, trimByte_trimByte]
    rw [hcanonical]
    exact (withCodec_self rfl hmatches).symm

/-- The prefix of a normalised mapping, as a path. -/
structure SafePrefix (pathPrefix : Bytes) : Prop where
  leading : pathPrefix.head? ≠ some 47
  trailing : pathPrefix.getLast? ≠ some 47
  doubled : ¬ ascii "//" <:+: pathPrefix
  segments : ∀ segment ∈ split 47 pathPrefix, segment ≠ ascii "." ∧ segment ≠ ascii ".." ∧
    (92 : UInt8) ∉ segment ∧ noASCIIControls segment = true

theorem unsafeSegment_false {segment : Bytes} (h : unsafeSegment segment = false) :
    segment ≠ [] ∧ segment ≠ ascii "." ∧ segment ≠ ascii ".." ∧ (92 : UInt8) ∉ segment ∧
      noASCIIControls segment = true := by
  simp only [unsafeSegment, Bool.or_eq_false_iff, decide_eq_false_iff_not,
    Bool.not_eq_false'] at h
  obtain ⟨⟨⟨⟨hnil, hdot⟩, hdots⟩, hbackslash⟩, hcontrol⟩ := h
  refine ⟨hnil, hdot, hdots, ?_, hcontrol⟩
  intro hmem
  rw [List.contains_iff_mem.mpr hmem] at hbackslash
  exact nomatch hbackslash

theorem Passes.safePrefix (h : Passes hp cfg endpoint) :
    SafePrefix (trimByte 47 cfg.pathPrefix) := by
  obtain ⟨hleading, htrailing⟩ := trimByte_ends 47 cfg.pathPrefix
  have hsafe : trimByte 47 cfg.pathPrefix ≠ [] → ∀ segment ∈ split 47 (trimByte 47 cfg.pathPrefix),
      unsafeSegment segment = false := by
    intro hne segment hsegment
    rw [Bool.eq_false_iff]
    intro hbad
    exact h.segments ⟨hne, List.any_eq_true.mpr ⟨segment, hsegment, hbad⟩⟩
  generalize trimByte 47 cfg.pathPrefix = p at hleading htrailing hsafe ⊢
  refine ⟨hleading, htrailing, ?_, ?_⟩
  · rintro ⟨before, after, hp'⟩
    -- between two slashes stands an empty segment
    have hmem : ([] : Bytes) ∈ split 47 p := by
      have hp'' : p = before ++ 47 :: ([] ++ 47 :: after) := by
        rw [← hp', List.append_assoc]
        rfl
      rw [hp'', split_append, split_append]
      exact List.mem_append_right _ (List.mem_append_left _ (List.mem_singleton.mpr rfl))
    have hne : p ≠ [] := by
      rintro rfl
      exact nomatch (List.append_eq_nil_iff.mp (List.append_eq_nil_iff.mp hp').1).2
    exact (unsafeSegment_false (hsafe hne [] hmem)).1 rfl
  · intro segment hsegment
    by_cases hne : p = []
    · subst hne
      rw [List.mem_singleton.mp hsegment]
      exact ⟨by decide, by decide, List.not_mem_nil, rfl⟩
    · exact (unsafeSegment_false (hsafe hne segment hsegment)).2

/-- Two ways to write one mapping. -/
structure Spelling (cfg cfg' : VBucketConfig) : Prop where
  endpoint : SameEndpoint cfg.realEndpoint cfg'.realEndpoint
  bucket : trimSpace cfg.realBucket = trimSpace cfg'.realBucket
  region : trimSpace cfg.realRegion = trimSpace cfg'.realRegion
  pathPrefix : trimByte 47 cfg.pathPrefix = trimByte 47 cfg'.pathPrefix
  accessKey : cfg.realAccessKey = cfg'.realAccessKey
  secretKey : cfg.realSecretKey = cfg'.realSecretKey
  style : cfg.realUsePathStyle = cfg'.realUsePathStyle
  key : cfg.routingTokenKey = cfg'.routingTokenKey

theorem Spelling.passes {cfg' : VBucketConfig} (h : Spelling cfg cfg')
    (hpasses : Passes hp cfg endpoint) : Passes hp cfg' endpoint where
  key := by
    rw [← h.key]
    exact hpasses.key
  endpoint := by
    rw [← h.style]
    exact h.endpoint.normalizeEndpoint_iff.mp hpasses.endpoint
  bucket := by
    rw [← h.bucket]
    exact hpasses.bucket
  accessKey := by
    rw [← h.accessKey]
    exact hpasses.accessKey
  secretKey := by
    rw [← h.secretKey]
    exact hpasses.secretKey
  region := by
    rw [← h.region]
    exact hpasses.region
  segments := by
    rw [← h.pathPrefix]
    exact hpasses.segments

/-- The canonical fields of two spellings differ in the given codec at most. -/
theorem Spelling.canonical_eq {cfg' : VBucketConfig} (h : Spelling cfg cfg') (endpoint : Bytes) :
    cfg'.canonical endpoint =
      { cfg.canonical endpoint with routingTokenCodec := cfg'.routingTokenCodec } := by
  simp only [VBucketConfig.canonical, h.bucket, h.region, h.pathPrefix, h.accessKey, h.secretKey,
    h.style, h.key]

/-- Two spellings, whatever codecs the program left in them, have one normal form. -/
theorem Spelling.normalize_eq {cfg' : VBucketConfig} (h : Spelling cfg cfg')
    (hmade : cfg.CodecMade cr) (hmade' : cfg'.CodecMade cr)
    (hn : normalizeVBucketConfig hp cr (some cfg) = .ok n) :
    normalizeVBucketConfig hp cr (some cfg') = .ok n := by
  obtain ⟨endpoint, hpasses, rfl⟩ := normalize_ok_iff.mp hn
  refine normalize_ok_iff.mpr ⟨endpoint, h.passes hpasses, ?_⟩
  have hpasses' := h.passes hpasses
  have hleft : (cfg.canonical endpoint).withCodec cr = _ := withCodec_made hpasses.key hmade
  have hright : (cfg'.canonical endpoint).withCodec cr = _ := withCodec_made hpasses'.key hmade'
  rw [hleft, hright, h.canonical_eq endpoint]
  rfl

end

/-- **MAPPINGS HAVE ONE NORMAL FORM**: an accepted mapping is left as it is by a second
    pass, which finds its codec matching; its prefix is a path of safe segments; and every
    other spelling is accepted with the same result, so that tokens are shared.

    Codecs are made by the program alone, hence `CodecMade`. -/
theorem mapping_normal_form {hp : HostParser} {cr : Crypto} {cfg n : VBucketConfig}
    (h : normalizeVBucketConfig hp cr (some cfg) = .ok n) :
    normalizeVBucketConfig hp cr (some n) = .ok n ∧
    (∃ codec, n.routingTokenCodec = some codec ∧ codec.matches n = true) ∧
    SafePrefix n.pathPrefix ∧
    (∀ cfg', Spelling cfg cfg' → cfg.CodecMade cr → cfg'.CodecMade cr →
      ∃ n', normalizeVBucketConfig hp cr (some cfg') = .ok n' ∧ n' = n ∧
        (cr.Opens → ∀ kind value token, encodeOpaqueToken cr n kind value = .ok token →
          decodeOpaqueToken cr n' kind token = .ok value)) := by
  refine ⟨normalize_again h, ?_, ?_, ?_⟩
  · obtain ⟨endpoint, hpasses, rfl⟩ := normalize_ok_iff.mp h
    exact withCodec_matches hpasses.key
  · obtain ⟨endpoint, hpasses, rfl⟩ := normalize_ok_iff.mp h
    rw [withCodec_fields]
    exact hpasses.safePrefix
  · intro cfg' hspelling hmade hmade'
    refine ⟨n, hspelling.normalize_eq hmade hmade' h, rfl, ?_⟩
    intro hlaw kind value token hencode
    obtain ⟨c, hc⟩ : ∃ c, routingTokenCipher cr n = .ok c :=
      exists_routingTokenCipher (normalize_key h)
    have hne : value ≠ [] := by
      rintro rfl
      exact nomatch hencode
    rw [encodeOpaqueToken_eq hc hne] at hencode
    exact (decodeOpaqueToken_iff_tokenOf hlaw hc).mpr (Except.ok.inj hencode).symm

/-- A mapping as the control plane may send it. -/
def tightConfig : VBucketConfig :=
  { S3.sampleConfig (ascii "t") with
    realEndpoint := ascii "https://h"
    routingTokenCodec := none }

/-- The same, written another way. -/
def looseConfig : VBucketConfig :=
  { S3.sampleConfig (ascii "/t/") with
    realEndpoint := ascii " h/"
    realBucket := ascii "abc "
    realRegion := ascii " r"
    routingTokenCodec := none }

theorem mapping_normal_form_loose :
    ∃ n, normalizeVBucketConfig S3.sampleHosts framedCrypto (some tightConfig) = .ok n ∧
      normalizeVBucketConfig S3.sampleHosts framedCrypto (some n) = .ok n ∧
      normalizeVBucketConfig S3.sampleHosts framedCrypto (some looseConfig) = .ok n := by
  have htight : S3.okAnd (normalizeVBucketConfig S3.sampleHosts framedCrypto (some tightConfig))
      (fun _ => true) = true := by decide +kernel
  obtain ⟨n, hn, -⟩ := S3.exists_of_okAnd htight
  have hendpoint : SameEndpoint (ascii "https://h") (ascii " h/") := by
    have hscheme : EndpointRewrite (ascii "h") (ascii "https://" ++ ascii "h") :=
      .scheme (by decide +kernel) (by decide) (by decide +kernel)
    have hslash : EndpointRewrite (ascii "h") (ascii "h" ++ ascii "/") :=
      .slash (by decide +kernel) (by decide) (by decide) (by decide)
    have hspaces : EndpointRewrite (ascii "h/") (ascii " h/") := .spaces (by decide +kernel)
    rw [show ascii "https://" ++ ascii "h" = ascii "https://h" by decide +kernel] at hscheme
    rw [show ascii "h" ++ ascii "/" = ascii "h/" by decide +kernel] at hslash
    exact .trans _ _ _ (.symm _ _ (.rel _ _ hscheme)) (.trans _ _ _ (.rel _ _ hslash) (.rel _ _ hspaces))
  have hspelling : Spelling tightConfig looseConfig :=
    ⟨hendpoint, by decide +kernel, by decide +kernel, by decide +kernel, rfl, rfl, rfl, rfl⟩
  obtain ⟨hagain, -, -, hother⟩ := mapping_normal_form hn
  obtain ⟨n', hn', rfl, -⟩ := hother looseConfig hspelling (fun c hc => nomatch hc)
    (fun c hc => nomatch hc)
  exact ⟨n', hn, hagain, hn'⟩

end Mapping
