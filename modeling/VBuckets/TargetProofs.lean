import VBuckets.MiddlewareProofs
import VBuckets.CoverageProofs
import VBuckets.CanonicalProofs
import VBuckets.SigningProofs

/-! # The bucket of a request

    `S3Auth` cuts a bucket and a key from the host or the path (`resolveBucket`), checks the
    name only if there is one, and plans by whether the key is empty.  Between the three a
    path-style request with an empty first segment, `//key`, is planned as an operation on an
    object of the bucket without a name.

    Stated of the first half of `S3Auth` (`resolvePlan`); everything after it consults the
    mapping, the policy or the handler. -/

namespace Interleaving

variable {S : Sig} {α β : Type}

/-- The results of a program whose operations are answered as `A` allows. -/
inductive Returns (A : (o : S.Op) → S.Res o → Prop) : Prog S α → α → Prop where
  | ret (a : α) : Returns A (.ret a) a
  | act {o : S.Op} {k : S.Res o → Prog S α} {a : α} (r : S.Res o) :
      A o r → Returns A (k r) a → Returns A (.act o k) a

variable {A : (o : S.Op) → S.Res o → Prop}

theorem returns_ret {a b : α} : Returns A (.ret a) b ↔ b = a := by
  constructor
  · intro h
    cases h
    rfl
  · rintro rfl
    exact .ret b

/-- A program that asks returns what it returns for some answer that is allowed. -/
theorem returns_act {o : S.Op} {k : S.Res o → Prog S α} {a : α} :
    Returns A (.act o k) a ↔ ∃ r, A o r ∧ Returns A (k r) a := by
  constructor
  · intro h
    cases h with
    | act r hr h => exact ⟨r, hr, h⟩
  · rintro ⟨r, hr, h⟩
    exact .act r hr h

end Interleaving

namespace S3

open ByteString Url Http Mapping ControlPlane Interleaving

/-! ## Reaching a plan -/

/-- The registry answers for base hosts when it is synchronized; nothing is assumed of the
    other answers. -/
def registryAnswers (registered : Bytes → Bool) : (c : Call) → c.Res → Prop
  | .lookupBaseHost host, answer =>
      answer = .error .unsynchronized ∨ answer = Domain.lookupBaseHost registered host
  | _, _ => True

/-- `S3Auth` gets as far as a plan, with which it consults the mapping, the policy and the
    next handler. -/
def Resolved (lib : AuthLibrary) (registered : Bytes → Bool) (r : Request)
    (plan : S3OperationPlan) : Prop :=
  ∃ authInfo used, Returns (S := calls) (registryAnswers registered) (resolvePlan lib r)
    (.ok (authInfo, used, plan))

section
variable {lib : AuthLibrary} {registered : Bytes → Bool} {r : Request} {plan : S3OperationPlan}

/-- The second part of the first half: the plan is that of the base host the registry
    answered. -/
theorem resolveVerified_returns {authInfo authInfo' : AuthInfo} {stamp : ResolutionStamp}
    {credentials : VirtualCredentials} {now : Time.Instant} {used : Resolution}
    (h : Returns (S := calls) (registryAnswers registered)
      (resolveVerified lib r authInfo stamp credentials now) (.ok (authInfo', used, plan))) :
    ∃ baseHost, Domain.lookupBaseHost registered (requestHost r) = .ok baseHost ∧
      planTarget lib r (requestTarget r baseHost) = .ok plan := by
  obtain ⟨answer, hanswer, h⟩ := returns_act.mp h
  cases answer with
  | error e => cases returns_ret.mp h
  | ok baseHost =>
      refine ⟨baseHost, ?_, ?_⟩
      · rcases hanswer with hanswer | hanswer
        · cases hanswer
        · exact hanswer.symm
      · have hplanned : _ = (planTarget lib r (requestTarget r baseHost)).map _ :=
          returns_ret.mp h
        cases hplan : planTarget lib r (requestTarget r baseHost) with
        | error refusal =>
            rw [hplan] at hplanned
            cases hplanned
        | ok plan' =>
            rw [hplan] at hplanned
            cases hplanned
            rfl

/-- The same from the signature on; a signature that does not verify gives no plan. -/
theorem resolveSigned_returns {authInfo authInfo' : AuthInfo} {stamp : ResolutionStamp}
    {credentials : VirtualCredentials} {now : Time.Instant} {used : Resolution}
    (h : Returns (S := calls) (registryAnswers registered)
      (resolveSigned lib r authInfo stamp credentials now) (.ok (authInfo', used, plan))) :
    ∃ baseHost, Domain.lookupBaseHost registered (requestHost r) = .ok baseHost ∧
      planTarget lib r (requestTarget r baseHost) = .ok plan := by
  rw [resolveSigned] at h
  cases hver : verifySignatureAtTime lib.crypto r authInfo credentials.secretKey now
      lib.maxSkew with
  | error e =>
      rw [hver] at h
      cases returns_ret.mp h
  | ok u =>
      rw [hver] at h
      exact resolveVerified_returns h

/-- A plan that is reached is the plan of the request's target. -/
theorem Resolved.target (h : Resolved lib registered r plan) :
    ∃ baseHost, Domain.lookupBaseHost registered (requestHost r) = .ok baseHost ∧
      planTarget lib r (requestTarget r baseHost) = .ok plan := by
  obtain ⟨authInfo, used, h⟩ := h
  rw [resolvePlan] at h
  cases hread : readAuthorization r with
  | error refusal =>
      rw [hread] at h
      cases returns_ret.mp h
  | ok authInfo' =>
      rw [hread] at h
      obtain ⟨answer, -, h⟩ := returns_act.mp h
      cases answer with
      | error e => cases returns_ret.mp h
      | ok stamp =>
          obtain ⟨answer, -, h⟩ := returns_act.mp h
          cases answer with
          | error e => cases returns_ret.mp h
          | ok credentials =>
              obtain ⟨now, -, h⟩ := returns_act.mp h
              exact resolveSigned_returns h

/-- A request with a signature that verifies reaches the plan of its target. -/
theorem resolved_of {authInfo : AuthInfo} {credentials : VirtualCredentials} {now : Time.Instant}
    {baseHost : Option Bytes} (hread : readAuthorization r = .ok authInfo)
    (hver : verifySignatureAtTime lib.crypto r authInfo credentials.secretKey now lib.maxSkew =
      .ok ())
    (hhost : Domain.lookupBaseHost registered (requestHost r) = .ok baseHost)
    (hplan : planTarget lib r (requestTarget r baseHost) = .ok plan) :
    Resolved lib registered r plan := by
  refine ⟨authInfo, ⟨⟨0, 0⟩, credentials, now, baseHost⟩, ?_⟩
  rw [resolvePlan, hread]
  refine .act (Except.ok ⟨0, 0⟩) trivial ?_
  refine .act (Except.ok credentials) trivial ?_
  refine .act now trivial ?_
  show Returns (S := calls) (registryAnswers registered)
    (resolveSigned lib r authInfo ⟨0, 0⟩ credentials now) _
  rw [resolveSigned, hver]
  refine .act (Except.ok baseHost) (Or.inr hhost.symm) ?_
  refine returns_ret.mpr ?_
  rw [hplan]
  rfl

end

/-! ## Targets without a name -/

section
variable {registered : Bytes → Bool}

theorem dropSpace_dot (s : Bytes) : dropSpace isSpace2 isSpace3 (46 :: s) = 46 :: s := by
  cases s with
  | nil => rfl
  | cons b s =>
      cases s with
      | nil | cons => rfl

/-- A host that starts with a dot keeps it. -/
theorem canonicalHost_dot (s : Bytes) :
    Domain.canonicalHost (46 :: s) = [] ∨ ∃ t, Domain.canonicalHost (46 :: s) = 46 :: t := by
  have hspace : trimSpace (46 :: s) <+: 46 :: s := by
    rw [trimSpace, dropSpace_dot]
    have hback := dropSpace_suffix (fun a b => isSpace2 b a) (fun a b c => isSpace3 c b a)
      (46 :: s).reverse
    rw [← List.reverse_prefix, List.reverse_reverse] at hback
    exact hback
  have hdot : trimSuffix (trimSpace (46 :: s)) (ascii ".") <+: 46 :: s := by
    rw [trimSuffix]
    split
    · exact (List.take_prefix _ _).trans hspace
    · exact hspace
  rw [Domain.canonicalHost]
  cases hhost : trimSuffix (trimSpace (46 :: s)) (ascii ".") with
  | nil => exact Or.inl rfl
  | cons b t =>
      rw [hhost] at hdot
      obtain rfl := (List.cons_prefix_cons.mp hdot).1
      exact Or.inr ⟨toLower t, toLower_cons (by decide) t⟩

/-- No base host is looked up for a host with an empty label in front. -/
theorem lookupBaseHost_dot (s : Bytes) :
    Domain.lookupBaseHost registered (46 :: s) = .error .invalidArgument := by
  rw [Domain.lookupBaseHost]
  rcases canonicalHost_dot s with h | ⟨t, h⟩
  · simp only [h]
    rfl
  · have hsplit : split 46 (46 :: t) = [] :: split 46 t := by
      rw [split, if_pos rfl]
    have hip : Domain.parseIP (46 :: t) = false := by
      show Domain.isIPv4 (46 :: t) = false
      rw [Domain.isIPv4, hsplit, List.all_cons]
      simp [Domain.validOctet]
    simp only [h, hip, hsplit, List.all_cons]
    simp [Domain.validLabel]

end

/-- A path-style request whose first segment is empty: the path is two slashes and a key. -/
structure Unnamed (registered : Bytes → Bool) (r : Request) (key : Bytes) : Prop where
  pathStyle : ∃ baseHost, Domain.lookupBaseHost registered (requestHost r) = .ok baseHost ∧
    ∀ host, baseHost = some host → requestHost r = host
  path : r.url.path = ascii "//" ++ key
  nonempty : key ≠ []
  valid : validateVirtualObjectKey key = .ok ()

section
variable {registered : Bytes → Bool} {r : Request} {baseHost : Option Bytes}

/-- Only a text that is the suffix is trimmed to nothing. -/
theorem trimSuffix_eq_nil {s p : Bytes} (h : trimSuffix s p = []) : s = [] ∨ s = p := by
  rw [trimSuffix] at h
  split at h
  · next hsuffix =>
      obtain ⟨t, ht⟩ := hasSuffix_iff.mp hsuffix
      have hlength := congrArg List.length ht
      rw [List.length_append] at hlength
      right
      rw [← ht]
      rcases List.take_eq_nil_iff.mp h with h | h
      · rw [List.length_eq_zero_iff.mp (show t.length = 0 by omega), List.nil_append]
      · rw [h, List.append_eq_nil_iff] at ht
        rw [ht.1, List.nil_append]
  · exact Or.inl h

/-- A virtual-hosted request names its bucket. -/
theorem vhost_bucket_ne {host : Bytes}
    (hhost : Domain.lookupBaseHost registered (requestHost r) = .ok (some host)) :
    trimSuffix (requestHost r) (ascii "." ++ host) ≠ [] := by
  intro hempty
  rcases trimSuffix_eq_nil hempty with h | h
  · rw [h] at hhost
    exact nomatch hhost
  · rw [h] at hhost
    exact nomatch hhost.symm.trans (lookupBaseHost_dot host)

/-- The first segment is empty, with something behind it, exactly for texts that begin
    with a slash. -/
theorem cut_nil_iff {s key : Bytes} (hkey : key ≠ []) :
    (cut 47 s).1 = [] ∧ (cut 47 s).2.1 = key ↔ s = 47 :: key := by
  cases s with
  | nil => exact ⟨fun h => absurd h.2.symm hkey, fun h => nomatch h⟩
  | cons b s =>
      by_cases hb : b = 47
      · subst hb
        rw [show cut 47 (47 :: s) = ([], s, true) from cut_append List.not_mem_nil s]
        simp
      · rw [cut, if_neg hb]
        simp [hb]

/-- So that happens exactly to paths that begin with two. -/
theorem trimPrefix_slash_iff {s t : Bytes} : trimPrefix s (ascii "/") = 47 :: t ↔
    s = ascii "//" ++ t := by
  constructor
  · intro h
    cases s with
    | nil => exact nomatch h
    | cons b s =>
        by_cases hb : b = 47
        · subst hb
          rw [show trimPrefix (47 :: s) (ascii "/") = s from trimPrefix_append (ascii "/") s] at h
          rw [h]
          rfl
        · have hkeep : trimPrefix (b :: s) (ascii "/") = b :: s := by
            rw [trimPrefix, if_neg (fun hp => hb ?_)]
            exact ((List.cons_prefix_cons.mp (hasPrefix_iff.mp hp)).1).symm
          rw [hkeep] at h
          exact absurd (List.cons.inj h).1 hb
  · rintro rfl
    exact trimPrefix_append (ascii "/") (47 :: t)

/-- The targets without a name but with a key. -/
theorem target_unnamed_iff {key : Bytes} (hkey : key ≠ [])
    (hhost : Domain.lookupBaseHost registered (requestHost r) = .ok baseHost) :
    (requestTarget r baseHost).bucket = [] ∧ (requestTarget r baseHost).objectKey = key ↔
      (∀ host, baseHost = some host → requestHost r = host) ∧ r.url.path = ascii "//" ++ key := by
  have hpath : (cut 47 (trimPrefix r.url.path (ascii "/"))).1 = [] ∧
      (cut 47 (trimPrefix r.url.path (ascii "/"))).2.1 = key ↔
      r.url.path = ascii "//" ++ key :=
    (cut_nil_iff hkey).trans trimPrefix_slash_iff
  cases baseHost with
  | none => exact hpath.trans ⟨fun h => ⟨fun host he => (by cases he), h⟩, fun h => h.2⟩
  | some host =>
      rw [requestTarget]
      by_cases hsame : requestHost r = host
      · simp only [if_neg (fun hne : requestHost r ≠ host => hne hsame)]
        exact hpath.trans
          ⟨fun h => ⟨fun host' he => hsame.trans (Option.some.inj he), h⟩, fun h => h.2⟩
      · simp only [if_pos (show requestHost r ≠ host from hsame)]
        exact ⟨fun h => absurd h.1 (vhost_bucket_ne hhost), fun h => absurd (h.1 host rfl) hsame⟩

end

/-! ## Names and resources -/

/-- The bucket of a plan, and of its copy source, has a valid name. -/
structure NamesBucket (plan : S3OperationPlan) : Prop where
  bucket : isValidBucketName plan.bucket = true
  source : ∀ source, plan.copySource = some source → isValidBucketName source.bucket = true

/-- The checks of a plan are about its bucket and the objects it names, and their resources
    tell those apart from the ones of another plan. -/
structure TellsApart (plan plan' : S3OperationPlan) : Prop where
  checks : ∀ check ∈ plan.iamChecks, check.resource = s3BucketARN plan.bucket ∨
    ∃ key, (key = plan.objectKey ∨ ∃ source, plan.copySource = some source ∧ key = source.key) ∧
      check.resource = s3ObjectARN plan.bucket key
  objects : ∀ key key', s3ObjectARN plan.bucket key = s3ObjectARN plan'.bucket key' →
    plan.bucket = plan'.bucket ∧ key = key'
  buckets : ∀ key, s3BucketARN plan.bucket ≠ s3ObjectARN plan'.bucket key ∧
    s3BucketARN plan'.bucket ≠ s3ObjectARN plan.bucket key

/-- Without slashes in buckets, a resource name belongs to one object. -/
theorem s3ObjectARN_inj {bucket bucket' key key' : Bytes} (hb : 47 ∉ bucket) (hb' : 47 ∉ bucket')
    (h : s3ObjectARN bucket key = s3ObjectARN bucket' key') : bucket = bucket' ∧ key = key' := by
  simp only [s3ObjectARN, List.append_assoc, List.append_cancel_left_eq] at h
  exact append_sep_inj hb hb' h

/-- And never to a bucket and to an object. -/
theorem s3BucketARN_ne {bucket bucket' : Bytes} (hb : 47 ∉ bucket) (key : Bytes) :
    s3BucketARN bucket ≠ s3ObjectARN bucket' key := by
  intro h
  simp only [s3BucketARN, s3ObjectARN, List.append_assoc, List.append_cancel_left_eq] at h
  refine hb ?_
  rw [h]
  exact List.mem_append_right _ List.mem_cons_self

section
variable {lib : AuthLibrary} {registered registered' : Bytes → Bool} {r r' : Request}
  {plan plan' : S3OperationPlan}

/-- **APART**: two requests whose plans differ in bucket or key are authorized on
    different resources. -/
theorem tellsApart (h : Resolved lib registered r plan) (h' : Resolved lib registered' r' plan')
    (hkind : plan.kind ≠ .listBuckets) : TellsApart plan plan' := by
  obtain ⟨baseHost, -, hplan⟩ := h.target
  obtain ⟨baseHost', -, hplan'⟩ := h'.target
  have hb := (planTarget_ok hplan).2
  have hb' := (planTarget_ok hplan').2
  refine ⟨?_, fun key key' => s3ObjectARN_inj hb hb',
    fun key => ⟨s3BucketARN_ne hb key, s3BucketARN_ne hb' key⟩⟩
  obtain ⟨-, planned, data, length, hplanned, rfl⟩ := planTarget_spec hplan
  intro check hcheck
  replace hcheck : check ∈ planned.iamChecks := hcheck
  rw [(plan_spec hplanned).iamChecks_eq] at hcheck
  rcases mem_iamChecksFor hkind hcheck with hbucket | hobject | ⟨source, hsource, rfl⟩
  · exact Or.inl hbucket
  · exact Or.inr ⟨_, Or.inl rfl, hobject⟩
  · exact Or.inr ⟨_, Or.inr ⟨source, hsource, rfl⟩, rfl⟩

/-- A plan whose target has a name names it. -/
theorem namesBucket_of_target {target : Target} (h : planTarget lib r target = .ok plan)
    (hname : target.bucket ≠ []) : NamesBucket plan := by
  obtain ⟨hvalid, planned, data, length, hplanned, rfl⟩ := planTarget_spec h
  have hspec := plan_spec hplanned
  refine ⟨?_, ?_⟩
  · show isValidBucketName planned.bucket = true
    rw [hspec.bucket_eq]
    exact hvalid hname
  · intro source hsource
    obtain ⟨-, hparse⟩ := hspec.copySource_spec hsource
    rw [(parseCopySource_ok hparse).bucket_eq]
    exact hvalid hname

/-- Only the list of buckets has neither a bucket nor a key. -/
theorem listBuckets_of_target {target : Target} (h : planTarget lib r target = .ok plan)
    (hbucket : target.bucket = []) (hkey : target.objectKey = []) : plan.kind = .listBuckets := by
  obtain ⟨-, planned, data, length, hplanned, rfl⟩ := planTarget_spec h
  have hclass := (plan_spec hplanned).pathClass_eq
  rw [hbucket, hkey, show pathClass [] [] = .service from rfl] at hclass
  show planned.kind = .listBuckets
  cases hkind : planned.kind with
  | listBuckets => rfl
  | _ =>
      rw [hkind] at hclass
      exact nomatch hclass

end

/-! ## A read of an object without a bucket -/

/-- A read of a path. -/
def plainRead (host path : Bytes) : Request where
  method := methodGet
  host := host
  url := { path := path }
  header := ∅
  contentLength := 0
  transferEncoding := []
  tls := false
  body := none
  tokens := isToken_of_mem_empty

/-- The read, signed at the epoch. -/
def readOf (cr : Crypto) (host path : Bytes) : Request :=
  signRequest cr (plainRead host path) (ascii "k") (ascii "s") (ascii "r") 0

section
variable {registered : Bytes → Bool} {host path key : Bytes}

theorem signable_empty : Signable (∅ : Header) :=
  ⟨fun name h => absurd h (AList.notMem_empty name), AList.notMem_empty _, AList.notMem_empty _,
    AList.notMem_empty _⟩

/-- The sample request carries the fields it was signed with. -/
theorem readAuthorization_readOf (cr : Crypto) :
    readAuthorization (readOf cr host path) =
      .ok (signedInfo cr (plainRead host path) (ascii "k") (ascii "s") (ascii "r") 0) := by
  have hframed : Framed (ascii "k") (Time.formatDate 0) (ascii "r") :=
    ⟨by decide, by decide +kernel, by decide +kernel, by decide +kernel⟩
  have hparse : parseAuthorizationHeader (headerGet (readOf cr host path) (ascii "Authorization")) =
      .ok (signedInfo cr (plainRead host path) (ascii "k") (ascii "s") (ascii "r") 0) :=
    parse_signRequest signable_empty hframed
  have hvalues : (readOf cr host path).header.values (ascii "Authorization") =
      [headerGet (readOf cr host path) (ascii "Authorization")] := rfl
  have hne : headerGet (readOf cr host path) (ascii "Authorization") ≠ [] :=
    List.cons_ne_nil _ _
  rw [readAuthorization, hvalues]
  split
  · next h => cases h
  · next h => exact absurd (List.cons.inj h).1 hne
  · next text h =>
      obtain rfl := (List.cons.inj h).1
      rw [hparse]
      rfl
  · next h1 h2 h3 => exact absurd rfl (h3 _)

/-- The plan of the read. -/
theorem plan_readOf (cr : Crypto) (hkey : key ≠ [])
    (hvalid : validateVirtualObjectKey key = .ok ()) :
    ∃ plan, planS3Operation (readOf cr host path) [] key = .ok plan ∧
      plan.kind = .getObject ∧ plan.bodyKind ≠ .completeMultipartXML ∧ plan.bucket = [] := by
  have hsample : ∃ plan, planS3Operation (readOf cr host path) [] (ascii "k") = .ok plan ∧
      plan.kind = .getObject := by
    -- no check looks at the text of the signature
    rw [readOf, signRequest_eq]
    generalize authorizationText _ _ _ _ = text
    exact ⟨_, rfl, rfl⟩
  obtain ⟨plan, hplan, hkind⟩ := hsample
  refine ⟨_, planS3Operation_key hplan (by decide) hkey hvalid, hkind, ?_, rfl⟩
  show bodyKindForOperation plan.kind ≠ .completeMultipartXML
  rw [hkind]
  decide

/-- The read of an unnamed target gets as far as its plan. -/
theorem resolved_readOf (lib : AuthLibrary) {r : Request} (h : Unnamed registered r key) :
    ∃ plan, Resolved lib registered (readOf lib.crypto r.host r.url.path) plan ∧
      plan.kind = .getObject ∧ plan.bucket = [] := by
  obtain ⟨⟨baseHost, hhost, hstyle⟩, hpath, hne, hvalid⟩ := h
  have hplanned : ∃ plan, planS3Operation (readOf lib.crypto r.host r.url.path) [] key = .ok plan ∧
      plan.kind = .getObject ∧ plan.bodyKind ≠ .completeMultipartXML ∧ plan.bucket = [] :=
    plan_readOf lib.crypto hne hvalid
  obtain ⟨plan, hplan, hkind, hbody, hbucket⟩ := hplanned
  -- host and path alone decide the target
  have htarget := (target_unnamed_iff (r := readOf lib.crypto r.host r.url.path) hne hhost).mpr
    ⟨hstyle, hpath⟩
  let credentials : VirtualCredentials := ⟨ascii "s", allowAll⟩
  have hver : verifySignatureAtTime lib.crypto (readOf lib.crypto r.host r.url.path)
      (signedInfo lib.crypto (plainRead r.host r.url.path) (ascii "k") (ascii "s") (ascii "r") 0)
      credentials.secretKey 0 lib.maxSkew = .ok () :=
    verify_signRequest signable_empty rfl ⟨by decide +kernel, by decide +kernel⟩
      (fun hpos => Int.le_of_lt hpos)
  let target := requestTarget (readOf lib.crypto r.host r.url.path) baseHost
  refine ⟨plan.withRequestMetadata target.isVHost [],
    resolved_of (readAuthorization_readOf lib.crypto) hver hhost ?_, hkind, hbucket⟩
  rw [planTarget, htarget.1, htarget.2, hplan, if_neg (fun hc => hc.1 rfl)]
  simp only [S3OperationPlan.withCompleteMultipartBody.eq_def]
  rw [if_pos (show (plan.withRequestMetadata target.isVHost []).bodyKind ≠ .completeMultipartXML
    from hbody)]
  rfl

end

/-- **EVERY OPERATION NAMES A BUCKET**, and resources tell operations apart, for all requests
    with a given host and path exactly when these do not make up a path-style request with two
    slashes and a key. -/
theorem bucket_named_iff (lib : AuthLibrary) (registered : Bytes → Bool) (r₀ : Request) :
    (∀ r plan, r.host = r₀.host → r.url.path = r₀.url.path → Resolved lib registered r plan →
      plan.kind ≠ .listBuckets → NamesBucket plan ∧
        ∀ registered' r' plan', Resolved lib registered' r' plan' → plan'.kind ≠ .listBuckets →
          TellsApart plan plan') ↔
      ¬ ∃ key, Unnamed registered r₀ key := by
  constructor
  · rintro h ⟨key, hunnamed⟩
    obtain ⟨plan, hresolved, hkind, hbucket⟩ := resolved_readOf lib hunnamed
    have hnamed := (h (readOf lib.crypto r₀.host r₀.url.path) plan rfl rfl hresolved
      (by rw [hkind]; decide)).1.bucket
    rw [hbucket] at hnamed
    exact nomatch hnamed
  · intro h r plan hhost hpath hresolved hkind
    refine ⟨?_, fun registered' r' plan' hresolved' _ => tellsApart hresolved hresolved' hkind⟩
    obtain ⟨baseHost, hbase, hplan⟩ := hresolved.target
    by_cases hname : (requestTarget r baseHost).bucket = []
    · exfalso
      have hkey : (requestTarget r baseHost).objectKey ≠ [] :=
        fun hkey => hkind (listBuckets_of_target hplan hname hkey)
      obtain ⟨hstyle, hslashes⟩ := (target_unnamed_iff hkey hbase).mp ⟨hname, rfl⟩
      have hsame : requestHost r₀ = requestHost r := by
        rw [requestHost, requestHost, hhost]
      obtain ⟨-, planned, data, length, hplanned, -⟩ := planTarget_spec hplan
      refine h ⟨_, ⟨⟨baseHost, hsame ▸ hbase, hsame ▸ hstyle⟩, hpath ▸ hslashes, hkey, ?_⟩⟩
      exact (plan_spec hplanned).key hkey
    · exact namesBucket_of_target hplan hname

/-- The signed request `GET //key` to a host that no base domain covers looks up the mapping
    of a bucket without a name. -/
theorem unnamed_bucket_looked_up :
    ∃ authInfo used plan,
      Returns (S := calls) (registryAnswers (fun _ => false))
        (resolvePlan readLibrary (readOf sampleCrypto (ascii "proxy.example") (ascii "//key")))
        (.ok (authInfo, used, plan)) ∧
      (∃ next, afterPlan readLibrary
        (readOf sampleCrypto (ascii "proxy.example") (ascii "//key"))
        (.ok (authInfo, used, plan)) =
          .act (.lookupVBucket authInfo.accessKeyID plan.bucket) next) ∧
      plan.kind = .getObject ∧ isValidBucketName plan.bucket = false := by
  have hunnamed : Unnamed (fun _ => false) (plainRead (ascii "proxy.example") (ascii "//key"))
      (ascii "key") :=
    ⟨⟨none, by decide +kernel, fun host h => by cases h⟩, by decide, by decide, by decide +kernel⟩
  obtain ⟨plan, ⟨authInfo, used, hreturns⟩, hkind, hbucket⟩ :=
    resolved_readOf readLibrary hunnamed
  refine ⟨authInfo, used, plan, hreturns, ?_, hkind, ?_⟩
  · rw [afterPlan, authorizePlan, if_neg (by rw [hkind]; decide), if_neg (by rw [hkind]; decide)]
    exact ⟨_, rfl⟩
  · rw [hbucket]
    decide

end S3
