import VBuckets.AuthorizationProofs
import VBuckets.FreshnessProofs
import VBuckets.ForwardingProofs

/-! # Authorization in one view

    `S3Auth` (`http_server/s3_middleware.go`) as a caller of the control-plane client:
    it takes a stamp, looks up credentials, base host and mapping, each of which may
    retry at a newer revision, and lets the request through only if the stamp is still
    valid at the end.

    A fact learned in between is first known only CONDITIONALLY (`Vouched`): it is the
    control plane's at the stamp's revision if the stamp is accepted later on.  The last
    step discharges the condition for all of them at once. -/

namespace S3

open ByteString Url Http Mapping ControlPlane Interleaving

/-! ## The target of a request -/

/-- `net.SplitHostPort`, without its errors: a host with brackets ends at the one that
    closes, any other must have no colon of its own. -/
def netSplitHostPort (hostPort : Bytes) : Option (Bytes × Bytes) :=
  match cutLast 58 hostPort with
  | none => none
  | some (before, port) =>
      if hasPrefix hostPort (ascii "[") then
        -- the first bracket that closes stands just before the last colon
        let inner := hostPort.takeWhile (· != 93)
        if before ≠ inner ++ [93] then none
        else if (hostPort.drop 1).contains 91 || port.contains 93 then none
        else some (inner.drop 1, port)
      else if before.contains 58 || hostPort.contains 91 || hostPort.contains 93 then none
      else some (before, port)

/-- `strings.Trim(s, "[]")`. -/
def trimBrackets (s : Bytes) : Bytes :=
  let bracket := fun c : UInt8 => c == 91 || c == 93
  ((s.dropWhile bracket).reverse.dropWhile bracket).reverse

/-- The host name `resolveBucket` looks up: without port and brackets, in lower case,
    without one trailing dot. -/
def requestHost (r : Request) : Bytes :=
  let host :=
    match netSplitHostPort r.host with
    | some (host, _) => host
    | none =>
        if hasPrefix r.host (ascii "[") && hasSuffix r.host (ascii "]") then trimBrackets r.host
        else r.host
  toLower (trimSuffix host (ascii "."))

structure Target where
  bucket : Bytes
  objectKey : Bytes
  isVHost : Bool
  deriving DecidableEq

/-- The target `resolveBucket` derives from the base host that was found.  What stands
    before the base host is the bucket; if nothing does, the path names it. -/
def requestTarget (r : Request) (baseHost : Option Bytes) : Target :=
  let path := trimPrefix r.url.path (ascii "/")
  let pathStyle : Target :=
    { bucket := (cut 47 path).1, objectKey := (cut 47 path).2.1, isVHost := false }
  match baseHost with
  | none => pathStyle
  | some baseHost =>
      if requestHost r ≠ baseHost then
        { bucket := trimSuffix (requestHost r) (ascii "." ++ baseHost)
          objectKey := path
          isVHost := true }
      else pathStyle

/-! ## Refusals -/

/-- An error document: status, code and message. -/
structure Refusal where
  status : Nat
  code : String
  message : Reason
  deriving DecidableEq

/-- `writeResolverError`.  An unknown access key and an unknown bucket are told apart;
    everything unexpected is the control plane's fault. -/
def resolverRefusal (error : ResolverError) (credentials : Bool) : Refusal :=
  match error with
  | .notFound =>
      if credentials then
        ⟨403, "InvalidAccessKeyId",
          { format := "The AWS Access Key Id you provided does not exist in our records." }⟩
      else ⟨403, "AccessDenied", { format := "Access Denied" }⟩
  | .accessDenied => ⟨403, "AccessDenied", { format := "Access Denied" }⟩
  | .throttled => ⟨503, "SlowDown", { format := "Please reduce your request rate." }⟩
  | .unavailable =>
      ⟨503, "ServiceUnavailable", { format := "Control plane is temporarily unavailable." }⟩
  | .invalidArgument => ⟨400, "InvalidRequest", { format := "Invalid request." }⟩
  | _ => ⟨502, "InternalError", { format := "Invalid control-plane response." }⟩

def hostError : Domain.HostError → ResolverError
  | .unsynchronized => .unavailable
  | .invalidArgument => .invalidArgument

def signatureRefusal (error : SignatureError) : Refusal :=
  match error.cause with
  | some .requestTimeTooSkewed =>
      ⟨403, "RequestTimeTooSkewed",
        { format :=
            "The difference between the request time and server time is too large." }⟩
  | some .unsupportedPayloadHash =>
      ⟨400, "InvalidRequest", { format := "x-amz-content-sha256 must be UNSIGNED-PAYLOAD." }⟩
  | some .unsignedAmzHeader =>
      ⟨403, "AccessDenied",
        { format := "There were headers present in the request which were not signed." }⟩
  | some .unsupportedAuthMode => ⟨400, "InvalidRequest", error.reason⟩
  | none =>
      ⟨403, "SignatureDoesNotMatch",
        { format := "The request signature we calculated does not match the signature " ++
            "you provided." }⟩

/-! ## `S3Auth` -/

/-- What the middleware takes from the environment and from libraries. -/
structure AuthLibrary where
  crypto : Crypto
  maxSkew : Int
  xml : XmlReader
  matchers : Iam.Matchers

/-- What the handler finds in the request's context. -/
structure RequestContext where
  vbConfig : Option VBucketConfig
  authInfo : AuthInfo
  plan : S3OperationPlan

/-- What the control plane contributed to a decision, and when the clock was read. -/
structure Resolution where
  stamp : ResolutionStamp
  credentials : VirtualCredentials
  verifiedAt : Time.Instant
  baseHost : Option Bytes

/-- A request is refused, or handed to the next handler. -/
inductive AuthOutcome where
  | refused (refusal : Refusal)
  | next (used : Resolution) (ctx : RequestContext)

/-- The one `Authorization` header: a missing or empty one is refused as
    unauthenticated, several as malformed. -/
def readAuthorization (r : Request) : Except Refusal AuthInfo :=
  match r.header.values (ascii "Authorization") with
  | [] => .error ⟨403, "AccessDenied", { format := "Missing Authorization header" }⟩
  | [] :: _ => .error ⟨403, "AccessDenied", { format := "Missing Authorization header" }⟩
  | [header] =>
      (parseAuthorizationHeader header).mapError
        (fun e => ⟨400, "AuthorizationHeaderMalformed", e⟩)
  | _ =>
      .error ⟨400, "AuthorizationHeaderMalformed",
        { format := "Authorization header must occur exactly once" }⟩

def maxCreateBucketConfigBytes : Nat := 1048576

def parseCreateBucketLocationConstraint (xml : XmlReader) (body : Option Body) :
    Except Reason Bytes :=
  match body with
  | none => .ok []
  | some body =>
      match body.readLimited maxCreateBucketConfigBytes with
      | none => .error { format := "%w" }
      | some data =>
          if maxCreateBucketConfigBytes < data.length then
            .error { format := "CreateBucketConfiguration is too large" }
          else if trimSpace data = [] then .ok []
          else
            match xml.createBucketConfiguration data with
            | none => .error { format := "%w" }
            | some (root, location) =>
                if root ≠ ascii "CreateBucketConfiguration" then
                  .error
                    { format := "unexpected CreateBucketConfiguration root %q", args := [root] }
                else .ok (trimSpace location)

section
variable (lib : AuthLibrary) (r : Request)

/-- The plan of a target, with the body it must carry. -/
def planTarget (target : Target) : Except Refusal S3OperationPlan :=
  if target.bucket ≠ [] ∧ isValidBucketName target.bucket = false then
    .error ⟨400, "InvalidBucketName", { format := "The specified bucket is not valid." }⟩
  else
    match planS3Operation r target.bucket target.objectKey with
    | .error _ =>
        .error ⟨400, "InvalidRequest",
          { format := "The requested S3 operation or request shape is not supported." }⟩
    | .ok plan =>
        ((plan.withRequestMetadata target.isVHost []).withCompleteMultipartBody lib.xml
          r.body).mapError
          (fun _ => ⟨400, "InvalidRequest",
            { format := "Invalid CompleteMultipartUpload body." }⟩)

/-- Authorize the sealed plan and validate the stamp. -/
def dispatch (authInfo : AuthInfo) (used : Resolution) (vbConfig : Option VBucketConfig)
    (plan : S3OperationPlan) (locationConstraint : Bytes) : Caller AuthOutcome := do
  let now ← call .now
  let plan := plan.withAuthorizationContext locationConstraint now
  match authorizeS3Plan lib.matchers (some used.credentials.iamPolicy) plan with
  | .error _ => pure (.refused ⟨403, "AccessDenied", { format := "Access Denied" }⟩)
  | .ok () =>
      if ← call (.validateResolution used.stamp) then
        pure (.next used { vbConfig := vbConfig, authInfo := authInfo, plan := plan })
      else pure (.refused (resolverRefusal (mapResolverError .revisionRace) false))

/-- The switch over the operation: only forwarded operations need a mapping. -/
def authorizePlan (authInfo : AuthInfo) (used : Resolution) (plan : S3OperationPlan) :
    Caller AuthOutcome :=
  if plan.kind = .listBuckets then dispatch lib authInfo used none plan []
  else if plan.kind = .createBucket then
    match parseCreateBucketLocationConstraint lib.xml r.body with
    | .error _ =>
        pure (.refused
          ⟨400, "InvalidArgument", { format := "Invalid CreateBucketConfiguration" }⟩)
    | .ok location =>
        dispatch lib authInfo used none (plan.withRequestMetadata plan.isVHost location) location
  else do
    match ← call (.lookupVBucket authInfo.accessKeyID plan.bucket) with
    | .error e => pure (.refused (resolverRefusal (mapResolverError e) false))
    | .ok vbConfig => dispatch lib authInfo used (some vbConfig) plan []

/-- From a verified signature to the plan. -/
def resolveVerified (authInfo : AuthInfo) (stamp : ResolutionStamp)
    (credentials : VirtualCredentials) (verifiedAt : Time.Instant) :
    Caller (Except Refusal (AuthInfo × Resolution × S3OperationPlan)) := do
  match ← call (.lookupBaseHost (requestHost r)) with
  | .error e => pure (.error (resolverRefusal (hostError e) false))
  | .ok baseHost =>
      pure ((planTarget lib r (requestTarget r baseHost)).map (fun plan =>
        (authInfo,
          { stamp := stamp, credentials := credentials, verifiedAt := verifiedAt,
            baseHost := baseHost }, plan)))

/-- From the credentials to the plan: `now` is read once they are known. -/
def resolveSigned (authInfo : AuthInfo) (stamp : ResolutionStamp)
    (credentials : VirtualCredentials) (now : Time.Instant) :
    Caller (Except Refusal (AuthInfo × Resolution × S3OperationPlan)) :=
  match verifySignatureAtTime lib.crypto r authInfo credentials.secretKey now lib.maxSkew with
  | .error e => pure (.error (signatureRefusal e))
  | .ok () => resolveVerified lib r authInfo stamp credentials now

/-- `S3Auth` as far as the plan: the header, the stamp, the credentials, the signature
    and the target, each with its refusal. -/
def resolvePlan : Caller (Except Refusal (AuthInfo × Resolution × S3OperationPlan)) :=
  match readAuthorization r with
  | .error refusal => pure (.error refusal)
  | .ok authInfo => do
      match ← call .beginResolution with
      | .error e => pure (.error (resolverRefusal e false))
      | .ok stamp =>
          match ← call (.lookupCredentials authInfo.accessKeyID) with
          | .error e => pure (.error (resolverRefusal (mapResolverError e) true))
          | .ok credentials =>
              let now ← call .now
              resolveSigned lib r authInfo stamp credentials now

/-- The rest of `S3Auth`: the mapping, the policy and the next handler. -/
def afterPlan :
    Except Refusal (AuthInfo × Resolution × S3OperationPlan) → Caller AuthOutcome
  | .error refusal => pure (.refused refusal)
  | .ok (authInfo, used, plan) => authorizePlan lib r authInfo used plan

/-- The target of the request, then what is decided of it. -/
def s3Auth : Caller AuthOutcome := (resolvePlan lib r).bind (afterPlan lib r)

end

/-! ## What a plan keeps of its target -/

/-- Reading the document of a completion replaces the body only. -/
theorem withCompleteMultipartBody_ok {plan plan' : S3OperationPlan} {xml : XmlReader}
    {body : Option Body} (h : plan.withCompleteMultipartBody xml body = .ok plan') :
    ∃ data length, plan' = { plan with controlBody := data, contentLength := length } := by
  rw [S3OperationPlan.withCompleteMultipartBody.eq_def] at h
  split at h
  · exact ⟨plan.controlBody, plan.contentLength, (Except.ok.inj h).symm⟩
  · split at h
    · exact nomatch h
    · split at h
      · exact nomatch h
      · split at h
        · exact nomatch h
        · split at h
          · exact nomatch h
          · split at h
            · exact nomatch h
            · split at h
              · exact nomatch h
              · exact ⟨_, _, (Except.ok.inj h).symm⟩

/-- The plan of a target: its name is valid if there is one, and only the style and the body
    are added to what `planS3Operation` gives. -/
theorem planTarget_spec {lib : AuthLibrary} {r : Request} {target : Target}
    {plan : S3OperationPlan} (h : planTarget lib r target = .ok plan) :
    (target.bucket ≠ [] → isValidBucketName target.bucket = true) ∧
      ∃ planned data length, planS3Operation r target.bucket target.objectKey = .ok planned ∧
        plan = { planned with
          isVHost := target.isVHost
          locationConstraint := []
          controlBody := data
          contentLength := length } := by
  rw [planTarget] at h
  split at h
  · exact nomatch h
  · next hname =>
      split at h
      · exact nomatch h
      · next planned hplanned =>
          obtain ⟨data, length, rfl⟩ := withCompleteMultipartBody_ok (mapError_ok h)
          refine ⟨fun hempty => ?_, planned, data, length, hplanned, rfl⟩
          rw [← Bool.not_eq_false]
          exact fun hinvalid => hname ⟨hempty, hinvalid⟩

theorem planTarget_ok {lib : AuthLibrary} {r : Request} {target : Target}
    {plan : S3OperationPlan} (h : planTarget lib r target = .ok plan) :
    target = ⟨plan.bucket, plan.objectKey, plan.isVHost⟩ ∧ 47 ∉ plan.bucket := by
  obtain ⟨hname, planned, data, length, hplanned, rfl⟩ := planTarget_spec h
  have hspec := plan_spec hplanned
  refine ⟨by rw [hspec.bucket_eq, hspec.objectKey_eq], ?_⟩
  show 47 ∉ planned.bucket
  rw [hspec.bucket_eq]
  by_cases hempty : target.bucket = []
  · rw [hempty]
    exact List.not_mem_nil
  · exact slash_notMem_of_isValidBucketName (hname hempty)

theorem readAuthorization_ok {r : Request} {authInfo : AuthInfo}
    (h : readAuthorization r = .ok authInfo) : 47 ∉ authInfo.accessKeyID := by
  rw [readAuthorization] at h
  split at h
  · exact nomatch h
  · exact nomatch h
  · exact slash_notMem_of_validAccessKeyID (parseAuthorizationHeader_ok (mapError_ok h)).2.accessKey
  · exact nomatch h

/-! ## Facts that hold if the stamp does -/

section
variable {deps : Deps} {α : Type} {lim : Limits} {log : Log}
  (ρ : Run (machine deps α) (SystemState.init lim) (log.guard deps α))

/-- `P` holds if the stamp is still valid at some moment from `n` on. -/
def Vouched (stamp : ResolutionStamp) (n : Nat) (P : Prop) : Prop :=
  ∀ k, n ≤ k → ReadyAt ρ k stamp.revision → (clientAt ρ k).sync.epoch = stamp.epoch → P

end

section
variable {deps : Deps} {α : Type} {lim : Limits} {log : Log}
  {ρ : Run (machine deps α) (SystemState.init lim) (log.guard deps α)}
  {stamp : ResolutionStamp} {start a b : Nat}

theorem stamped_later (hs : Stamped ρ start stamp a) (hab : a ≤ b) : Stamped ρ start stamp b := by
  obtain ⟨s, h1, h2, h3⟩ := hs
  exact ⟨s, h1, by omega, h3⟩

theorem Vouched.later {P : Prop} (h : Vouched ρ stamp a P) (hab : a ≤ b) :
    Vouched ρ stamp b P :=
  fun k hk => h k (Nat.le_trans hab hk)

/-- Between the stamp and a moment that accepts it the client is ready at its revision. -/
theorem ready_between (hs : Stamped ρ start stamp a) {m k : Nat} (ham : a ≤ m) (hmk : m ≤ k)
    (hready : ReadyAt ρ k stamp.revision) (hepoch : (clientAt ρ k).sync.epoch = stamp.epoch) :
    ReadyAt ρ m stamp.revision := by
  obtain ⟨s, -, hsa, ⟨hsready, hsrev⟩, hsepoch⟩ := hs
  obtain ⟨hm, hmrev, -, -⟩ := view_constant (i := s) (j := k) (k := m) (by omega) hmk hsready
    (hready.2.trans hsrev.symm) (hepoch.trans hsepoch.symm)
  exact ⟨hm, hmrev.trans hsrev⟩

/-- What a lookup returned is the log's value. -/
theorem vouched_value (hs : Stamped ρ start stamp a) {l : Lane} {key : l.Key} {v : l.Value}
    (hkey : ValidKey l key) {s : Nat} (has : a ≤ s)
    (h : Answered ρ log.truth l key s (.ok v) b) :
    Vouched ρ stamp b (log.value l stamp.revision key = some v) := by
  intro k hk hready hepoch
  obtain ⟨m, revision, hsm, hmb, hm, htrue⟩ := h (some v) rfl
  have hview := ready_between hs (m := m) (by omega) (by omega) hready hepoch
  rw [← hview.2, hm.2]
  exact htrue key hkey rfl

/-- The base host was found among the log's domains. -/
theorem vouched_baseHost (hs : Stamped ρ start stamp a) {hostname : Bytes}
    {baseHost : Option Bytes} {s : Nat} (has : a ≤ s)
    (h : ∃ m, s ≤ m ∧ m < b ∧ (clientAt ρ m).lookupBaseHost hostname = .ok baseHost) :
    Vouched ρ stamp b (Domain.lookupBaseHost
      (fun d => d ∈ log.domains deps.hasETLDPlusOne stamp.revision) hostname = .ok baseHost) := by
  intro k hk hready hepoch
  obtain ⟨m, hsm, hmb, hfound⟩ := h
  obtain ⟨hm, hmrev⟩ := ready_between hs (m := m) (by omega) (by omega) hready hepoch
  rw [Client.lookupBaseHost, if_neg (fun hne => hne hm)] at hfound
  have hpos : 0 < (clientAt ρ m).sync.revision := ((run_inv ρ m).sync.ready hm).2.2.2.1
  have hlists := (run_follows ρ m).mirrors.hosts (Nat.pos_iff_ne_zero.mp hpos)
  have hsame : (fun d => decide (d ∈ log.domains deps.hasETLDPlusOne stamp.revision)) =
      fun d => decide (d ∈ (clientAt ρ m).sync.baseHosts) := by
    funext d
    rw [← hmrev]
    exact decide_eq_decide.mpr (hlists d).symm
  rw [hsame]
  exact hfound

/-! ## Every step of `S3Auth` -/

variable {lib : AuthLibrary} {r : Request}

/-- What a request let through was decided on: everything is the control plane's at the
    revision of the stamp. -/
structure OneView (deps : Deps) (log : Log) (lib : AuthLibrary) (r : Request)
    (used : Resolution) (ctx : RequestContext) : Prop where
  /-- The credentials are those of the access key. -/
  credentials : log.value .credentials used.stamp.revision ctx.authInfo.accessKeyID =
    some used.credentials
  /-- Their secret verified the signature. -/
  verified : verifySignatureAtTime lib.crypto r ctx.authInfo used.credentials.secretKey
    used.verifiedAt lib.maxSkew = .ok ()
  /-- Their policy allows every check of the plan. -/
  authorized : authorizeS3Plan lib.matchers (some used.credentials.iamPolicy) ctx.plan = .ok ()
  /-- The base host was found among the base domains. -/
  baseHost : Domain.lookupBaseHost
    (fun d => d ∈ log.domains deps.hasETLDPlusOne used.stamp.revision) (requestHost r) =
      .ok used.baseHost
  /-- It decided bucket and key. -/
  target : requestTarget r used.baseHost =
    ⟨ctx.plan.bucket, ctx.plan.objectKey, ctx.plan.isVHost⟩
  /-- The operations of the control plane itself pass no mapping on. -/
  unmapped : ctx.plan.kind = .listBuckets ∨ ctx.plan.kind = .createBucket → ctx.vbConfig = none
  /-- All others pass on the mapping of the bucket. -/
  mapped : ¬ (ctx.plan.kind = .listBuckets ∨ ctx.plan.kind = .createBucket) →
    ∃ cfg, ctx.vbConfig = some cfg ∧
      log.value .vbuckets used.stamp.revision (ctx.authInfo.accessKeyID, ctx.plan.bucket) =
        some cfg

/-- The stamp was taken since `start`, and what was decided was decided in its view. -/
def Decided (ρ : Run (machine deps α) (SystemState.init lim) (log.guard deps α))
    (lib : AuthLibrary) (r : Request) (start : Nat) (outcome : AuthOutcome) (n : Nat) : Prop :=
  ∀ used ctx, outcome = .next used ctx →
    Stamped ρ start used.stamp n ∧ OneView deps log lib r used ctx

theorem decided_stable : Stable (Decided ρ lib r start) := by
  intro outcome n m hnm h used ctx ho
  obtain ⟨hs, hview⟩ := h used ctx ho
  exact ⟨stamped_later hs hnm, hview⟩

/-- A refusal decides nothing. -/
theorem refused_checked {B : SystemState → Prop} {n : Nat} (refusal : Refusal) :
    Checked ρ log.truth B (interpret (pure (.refused refusal)))
      (Decided ρ lib r start) n :=
  fun _ _ h => nomatch h

variable {authInfo : AuthInfo} {used : Resolution} {plan : S3OperationPlan} {n : Nat}

/-- The invariant of the system over a conforming peer. -/
abbrev Conforming (deps : Deps) (log : Log) (lim : Limits) (s : SystemState) : Prop :=
  s.Current deps log lim.maxBaseHosts

/-- **DISPATCH**: an accepted stamp discharges every fact that was vouched for. -/
theorem dispatch_checked (hs : Stamped ρ start used.stamp n) {vbConfig : Option VBucketConfig}
    {locationConstraint : Bytes}
    (h : ∀ now, authorizeS3Plan lib.matchers (some used.credentials.iamPolicy)
        (plan.withAuthorizationContext locationConstraint now) = .ok () →
      Vouched ρ used.stamp n (OneView deps log lib r used
        ⟨vbConfig, authInfo, plan.withAuthorizationContext locationConstraint now⟩)) :
    Checked ρ log.truth (Conforming deps log lim)
      (interpret (dispatch lib authInfo used vbConfig plan locationConstraint))
      (Decided ρ lib r start) n := by
  have hrel := Log.reliable deps α log lim.maxBaseHosts
  refine Checked.call hrel ?_
  intro now m hm _
  show Checked ρ log.truth (Conforming deps log lim) (interpret
    (match authorizeS3Plan lib.matchers (some used.credentials.iamPolicy)
        (plan.withAuthorizationContext locationConstraint now) with
      | .error _ => _
      | .ok () => _)) _ m
  cases hauth : authorizeS3Plan lib.matchers (some used.credentials.iamPolicy)
      (plan.withAuthorizationContext locationConstraint now) with
  | error denial => exact refused_checked _
  | ok u =>
      refine Checked.call hrel ?_
      intro valid m' hm' hvalid
      cases valid with
      | false => exact refused_checked _
      | true =>
          intro used' ctx ho
          cases ho
          obtain ⟨k, hk, hkm, hready, hepoch⟩ := hvalid rfl
          exact ⟨stamped_later hs (by omega), h now hauth k (by omega) hready hepoch⟩

/-- What is settled before the mapping is looked up. -/
structure Gathered (deps : Deps) (log : Log) (lib : AuthLibrary) (r : Request)
    (authInfo : AuthInfo) (used : Resolution) : Prop where
  credentials : log.value .credentials used.stamp.revision authInfo.accessKeyID =
    some used.credentials
  verified : verifySignatureAtTime lib.crypto r authInfo used.credentials.secretKey
    used.verifiedAt lib.maxSkew = .ok ()
  baseHost : Domain.lookupBaseHost
    (fun d => d ∈ log.domains deps.hasETLDPlusOne used.stamp.revision) (requestHost r) =
      .ok used.baseHost

/-- **MAPPING**: the three branches of the switch over the operation. -/
theorem authorizePlan_checked (hs : Stamped ρ start used.stamp n)
    (hkey : 47 ∉ authInfo.accessKeyID) (hbucket : 47 ∉ plan.bucket)
    (htarget : requestTarget r used.baseHost = ⟨plan.bucket, plan.objectKey, plan.isVHost⟩)
    (hg : Vouched ρ used.stamp n (Gathered deps log lib r authInfo used)) :
    Checked ρ log.truth (Conforming deps log lim)
      (interpret (authorizePlan lib r authInfo used plan)) (Decided ρ lib r start) n := by
  have hrel := Log.reliable deps α log lim.maxBaseHosts
  -- an operation of the control plane itself has no mapping
  have unmapped : plan.kind = .listBuckets ∨ plan.kind = .createBucket →
      ∀ plan' : S3OperationPlan, plan'.kind = plan.kind →
        (⟨plan'.bucket, plan'.objectKey, plan'.isVHost⟩ : Target) =
          ⟨plan.bucket, plan.objectKey, plan.isVHost⟩ → ∀ locationConstraint,
        Checked ρ log.truth (Conforming deps log lim)
          (interpret (dispatch lib authInfo used none plan' locationConstraint))
          (Decided ρ lib r start) n := by
    intro hkind plan' hk ht locationConstraint
    refine dispatch_checked hs ?_
    intro now hauth k hk' hready hepoch
    obtain ⟨hcred, hver, hhost⟩ := hg k hk' hready hepoch
    have hkind' : plan'.kind = .listBuckets ∨ plan'.kind = .createBucket := by
      rw [hk]
      exact hkind
    exact ⟨hcred, hver, hauth, hhost, htarget.trans ht.symm, fun _ => rfl,
      fun hmapped => absurd hkind' hmapped⟩
  rw [authorizePlan]
  by_cases hlist : plan.kind = .listBuckets
  · rw [if_pos hlist]
    exact unmapped (Or.inl hlist) plan rfl rfl []
  rw [if_neg hlist]
  by_cases hcreate : plan.kind = .createBucket
  · rw [if_pos hcreate]
    cases parseCreateBucketLocationConstraint lib.xml r.body with
    | error e => exact refused_checked _
    | ok location => exact unmapped (Or.inr hcreate) _ rfl rfl location
  rw [if_neg hcreate]
  refine Checked.call hrel ?_
  intro answer m hm hanswer
  cases answer with
  | error e => exact refused_checked _
  | ok vbConfig =>
      have hvalid : ValidKey .vbuckets (authInfo.accessKeyID, plan.bucket) := ⟨hkey, hbucket⟩
      have hvalue := vouched_value hs hvalid (Nat.le_refl n) hanswer
      refine dispatch_checked (stamped_later hs hm) ?_
      intro now hauth k hk hready hepoch
      obtain ⟨hcred, hver, hhost⟩ := hg k (by omega) hready hepoch
      have hmapped : ¬ (plan.kind = .listBuckets ∨ plan.kind = .createBucket) :=
        not_or.mpr ⟨hlist, hcreate⟩
      exact ⟨hcred, hver, hauth, hhost, htarget, fun hun => absurd hun hmapped,
        fun _ => ⟨vbConfig, rfl, hvalue k hk hready hepoch⟩⟩

/-- What is known when a plan has been made: the stamp was taken since `start`, and all that
    went into the plan is vouched for. -/
structure Prepared (ρ : Run (machine deps α) (SystemState.init lim) (log.guard deps α))
    (lib : AuthLibrary) (r : Request) (start : Nat) (authInfo : AuthInfo) (used : Resolution)
    (plan : S3OperationPlan) (n : Nat) : Prop where
  stamped : Stamped ρ start used.stamp n
  accessKey : 47 ∉ authInfo.accessKeyID
  bucket : 47 ∉ plan.bucket
  target : requestTarget r used.baseHost = ⟨plan.bucket, plan.objectKey, plan.isVHost⟩
  gathered : Vouched ρ used.stamp n (Gathered deps log lib r authInfo used)

/-- The postcondition of the first half; a refusal is known nothing of. -/
def Resolves (ρ : Run (machine deps α) (SystemState.init lim) (log.guard deps α))
    (lib : AuthLibrary) (r : Request) (start : Nat) :
    Except Refusal (AuthInfo × Resolution × S3OperationPlan) → Nat → Prop
  | .error _, _ => True
  | .ok (authInfo, used, plan), n => Prepared ρ lib r start authInfo used plan n

/-- **TARGET**: the base host and the plan made from it. -/
theorem resolveVerified_checked {stamp : ResolutionStamp} {credentials : VirtualCredentials}
    {verifiedAt : Time.Instant} (hs : Stamped ρ start stamp n) (hkey : 47 ∉ authInfo.accessKeyID)
    (hcred : Vouched ρ stamp n
      (log.value .credentials stamp.revision authInfo.accessKeyID = some credentials))
    (hver : verifySignatureAtTime lib.crypto r authInfo credentials.secretKey verifiedAt
      lib.maxSkew = .ok ()) :
    Checked ρ log.truth (Conforming deps log lim)
      (interpret (resolveVerified lib r authInfo stamp credentials verifiedAt))
      (Resolves ρ lib r start) n := by
  refine Checked.call (Log.reliable deps α log lim.maxBaseHosts) ?_
  intro answer m hm hanswer
  cases answer with
  | error e => exact trivial
  | ok baseHost =>
      have hhost := vouched_baseHost hs (Nat.le_refl n) hanswer
      show Resolves ρ lib r start ((planTarget lib r (requestTarget r baseHost)).map _) m
      cases hplan : planTarget lib r (requestTarget r baseHost) with
      | error refusal => exact trivial
      | ok plan =>
          obtain ⟨htarget, hbucket⟩ := planTarget_ok hplan
          show Prepared ρ lib r start authInfo ⟨stamp, credentials, verifiedAt, baseHost⟩ plan m
          refine ⟨stamped_later hs hm, hkey, hbucket, htarget, ?_⟩
          intro k hk hready hepoch
          exact ⟨hcred k (by omega) hready hepoch, hver, hhost k hk hready hepoch⟩

/-- **FIRST HALF**: a plan that is made is planned from one view, if the stamp is accepted. -/
theorem resolvePlan_checked :
    Checked ρ log.truth (Conforming deps log lim) (interpret (resolvePlan lib r))
      (Resolves ρ lib r n) n := by
  have hrel := Log.reliable deps α log lim.maxBaseHosts
  rw [resolvePlan]
  cases hread : readAuthorization r with
  | error refusal => exact trivial
  | ok authInfo =>
      -- the calls in order: the stamp, the credentials, the clock
      have hkey := readAuthorization_ok hread
      refine Checked.call hrel ?_
      intro begun m hm hbegun
      cases begun with
      | error e => exact trivial
      | ok stamp =>
          have hs := hbegun stamp rfl
          refine Checked.call hrel ?_
          intro answer m₁ hm₁ hanswer
          cases answer with
          | error e => exact trivial
          | ok credentials =>
              have hvalid : ValidKey .credentials authInfo.accessKeyID := trivial
              have hcred := vouched_value hs hvalid (Nat.le_refl m) hanswer
              refine Checked.call hrel ?_
              intro now m₂ hm₂ _
              show Checked ρ log.truth (Conforming deps log lim)
                (interpret (resolveSigned lib r authInfo stamp credentials now)) _ m₂
              rw [resolveSigned]
              cases hver : verifySignatureAtTime lib.crypto r authInfo credentials.secretKey now
                  lib.maxSkew with
              | error e => exact trivial
              | ok u =>
                  exact resolveVerified_checked (stamped_later hs (by omega)) hkey
                    (hcred.later hm₂) hver

/-- Both halves together decide in one view. -/
theorem s3Auth_checked :
    Checked ρ log.truth (Conforming deps log lim) (interpret (s3Auth lib r))
      (Decided ρ lib r n) n := by
  rw [s3Auth, interpret_bind]
  refine Wp.bind (resolvePlan_checked.weaken ?_)
  intro answer m _ hplanned
  cases answer with
  | error refusal => exact refused_checked _
  | ok planned =>
      obtain ⟨authInfo, used, plan⟩ := planned
      obtain ⟨hs, hkey, hbucket, htarget, hgathered⟩ :
        Prepared ρ lib r n authInfo used plan m := hplanned
      exact authorizePlan_checked hs hkey hbucket htarget hgathered

/-- **ONE VIEW**: over any conforming log and any interleaving, if a request that entered
    `S3Auth` at `i` has been handed to the next handler by `j`, then the stamp was taken in
    between, and the secret that verified the signature, the policy that authorized every
    check, the base domains that decided bucket and key, and the mapping passed on are all
    the log's values at the revision of that stamp. -/
theorem authorized_in_one_view {i j t : Nat} {f : AuthOutcome → α} {b : Option α}
    (hcall : ρ.label i = .spawn t ((s3Auth lib r).bind (fun outcome => .ret (f outcome))))
    (hret : ρ.thread j t = some (.ret b)) :
    ∃ outcome, b = some (f outcome) ∧ ∀ used ctx, outcome = .next used ctx →
      (∃ m, i < m ∧ m < j ∧ ReadyAt ρ m used.stamp.revision ∧
        (clientAt ρ m).sync.epoch = used.stamp.epoch) ∧
      OneView deps log lib r used ctx := by
  have hjob : Checked ρ log.truth (Conforming deps log lim)
      (interpret ((s3Auth lib r).bind (fun outcome => .ret (f outcome))))
      (fun a n => ∃ outcome, a = f outcome ∧ Decided ρ lib r (i + 1) outcome n) (i + 1) := by
    rw [interpret_bind]
    refine Wp.bind (s3Auth_checked.weaken ?_)
    intro outcome m _ hdecided
    exact ⟨outcome, rfl, hdecided⟩
  have hstable : Stable (fun (a : α) n =>
      ∃ outcome, a = f outcome ∧ Decided ρ lib r (i + 1) outcome n) := by
    rintro a n m hnm ⟨outcome, ha, hdecided⟩
    exact ⟨outcome, ha, decided_stable outcome n m hnm hdecided⟩
  obtain ⟨a, hb, outcome, ha, hdecided⟩ :=
    caller_returns (run_current ρ) hstable hcall hjob hret
  refine ⟨outcome, by rw [hb, ha], ?_⟩
  intro used ctx ho
  obtain ⟨⟨m, h1, h2, h3⟩, hview⟩ := hdecided used ctx ho
  exact ⟨⟨m, h1, h2, h3⟩, hview⟩

end

/-! ## A request that is let through -/

/-- The policy that allows everything. -/
def allowAll : Iam.Policy where
  statements :=
    [{ sid := [], effect := .allow, actionMode := .positive, actions := [ascii "*"],
       resourceMode := .positive, resources := [ascii "*"], conditions := [] }]

def readDeps : Deps :=
  { sampleDeps with parsePolicy := fun _ => .ok allowAll, hostParser := sampleHosts }

def readLibrary : AuthLibrary where
  crypto := sampleCrypto
  maxSkew := 900000000000
  xml := ⟨fun _ => none, fun _ => none⟩
  matchers := ⟨fun _ _ => true, fun _ => none, fun _ => none, fun _ => none⟩

/-- A control plane with the domain `a.b`, one access key and one bucket. -/
def readLog : Log where
  event := fun _ => .baseHost (some ⟨[97, 46, 98], false⟩)
  value := fun l _ key =>
    match l, key with
    | .credentials, key => if key = ascii "k" then some ⟨ascii "s", allowAll⟩ else none
    | .vbuckets, key =>
        if key = (ascii "k", ascii "vbk") then some (sampleConfig (ascii "t")) else none
  initial := ∅
  changed := fun _ _ _ h => absurd rfl h
  removed := fun _ _ _ h _ => nomatch h

def credentialsAnswer : LookupCredentialsResponse where
  secretKey := ascii "s"
  iamPolicyJSON := []
  ttl := some ⟨true, 60000000000⟩
  found := true
  negativeTTL := none
  revision := 1

def vbucketAnswer : LookupVBucketResponse where
  realEndpoint := ascii "http://h"
  realBucket := ascii "abc"
  realAccessKey := ascii "k"
  realSecretKey := ascii "s"
  realRegion := ascii "r"
  pathPrefix := ascii "t"
  realUsePathStyle := true
  ttl := some ⟨true, 60000000000⟩
  routingTokenKey := List.replicate 32 0
  found := true
  negativeTTL := none
  revision := 1

/-- The clock stands at the date of the request. -/
def readChoice : Choice :=
  { plainChoice with
    readAt := 1577836800000000000
    lookupResponse := fun l =>
      match l with
      | .credentials => .ok (some credentialsAnswer)
      | .vbuckets => .ok (some vbucketAnswer) }

/-- A signed read of the key `k`. -/
def signedRead : Request where
  method := methodGet
  host := ascii "a.b"
  url := { path := ascii "/vbk/k" }
  header := ⟨[⟨ascii "Authorization", [ascii "AWS4-HMAC-SHA256 " ++
      ascii "Credential=k/20200101/r/s3/aws4_request, SignedHeaders=host;x-amz-date, " ++
      ascii "Signature=" ++ List.replicate 64 48]⟩,
    ⟨ascii "X-Amz-Date", [ascii "20200101T000000Z"]⟩,
    ⟨ascii "X-Amz-Content-Sha256", [ascii "UNSIGNED-PAYLOAD"]⟩],
    show (List.keys _).Nodup by decide⟩
  contentLength := 0
  transferEncoding := []
  tls := false
  body := none
  tokens := fun name h => (show ∀ name ∈ List.keys _, isToken name = true by decide) name h

/-- The read misses both caches and loads what it needs. -/
def readScript : List (Label (machine readDeps AuthOutcome)) :=
  snapshotScript ++ [.spawn 0 ((s3Auth readLibrary signedRead).bind (fun outcome => .ret outcome))] ++
    List.replicate 4 (.thread 0 readChoice) ++ List.replicate 5 (.thread 1 readChoice) ++
    List.replicate 7 (.thread 0 readChoice) ++ List.replicate 5 (.thread 2 readChoice) ++
    List.replicate 4 (.thread 0 readChoice)

/-- Both answers are the ones the log gives. -/
def readTrusted : (l : Lane) → l.Key → l.Response → Bool
  | .credentials, key, resp => key = ascii "k" && resp = credentialsAnswer
  | .vbuckets, key, resp => key = (ascii "k", ascii "vbk") && resp = vbucketAnswer

theorem readTrusted_reports (l : Lane) (key : l.Key) (resp : l.Response)
    (h : readTrusted l key resp = true) : readLog.Reports readDeps l key resp := by
  cases l with
  | credentials =>
      simp only [readTrusted, Bool.and_eq_true, decide_eq_true_eq] at h
      obtain ⟨hkey, hresp⟩ := h
      subst hkey hresp
      intro e he
      cases he
      rfl
  | vbuckets =>
      simp only [readTrusted, Bool.and_eq_true, decide_eq_true_eq] at h
      obtain ⟨hkey, hresp⟩ := h
      subst hkey hresp
      have hentry : okAnd (Lane.responseEntry readDeps .vbuckets vbucketAnswer)
          (fun e => e.value = some (sampleConfig (ascii "t"))) = true := by
        decide +kernel
      obtain ⟨e', he', hvalue⟩ := exists_of_okAnd hentry
      intro e he
      cases he'.symm.trans he
      exact (of_decide_eq_true hvalue).symm

/-- Whether a thread has handed its request on, under which revision and with a mapping. -/
def handedOn : Option (Program (Option AuthOutcome)) → Bool
  | some (.ret (some (.next used ctx))) =>
      used.stamp = ⟨1, 0⟩ && ctx.plan.kind = .getObject && ctx.plan.objectKey = ascii "k" &&
        ctx.authInfo.accessKeyID = ascii "k"
  | _ => false

theorem exists_of_handedOn {p : Option (Program (Option AuthOutcome))} (h : handedOn p = true) :
    ∃ used ctx, p = some (.ret (some (.next used ctx))) ∧ used.stamp = ⟨1, 0⟩ := by
  match p with
  | some (.ret (some (.next used ctx))) =>
      simp only [handedOn, Bool.and_eq_true, decide_eq_true_eq] at h
      exact ⟨used, ctx, rfl, h.1.1.1⟩
  | none => exact nomatch h
  | some (.ret none) => exact nomatch h
  | some (.ret (some (.refused refusal))) => exact nomatch h
  | some (.act o k) => exact nomatch h

/-- The script can be carried out, trusts only reports of the log, and ends with the request
    handed on. -/
theorem readScript_runs : (after ⟨sampleInit, []⟩ readScript).isSome = true ∧
    checkAll (readLog.check readDeps readTrusted) ⟨sampleInit, []⟩ readScript = true ∧
    handedOn ((played sampleInit (readScript.take 36)).pool[0]?) = true := by
  -- one evaluation: the three share every step of the script
  decide +kernel

theorem authorized_in_one_view_of_read :
    ∃ (ρ : Run (machine readDeps AuthOutcome) sampleInit (readLog.guard readDeps AuthOutcome))
      (used : Resolution) (ctx : RequestContext),
      ρ.thread 36 0 = some (.ret (some (.next used ctx))) ∧ used.stamp = ⟨1, 0⟩ ∧
      OneView readDeps readLog readLibrary signedRead used ctx := by
  obtain ⟨hcarried, htrusted, hfinal⟩ := readScript_runs
  obtain ⟨ρ, hlabel, hcfg⟩ := exists_run hcarried
    (Guard.admitsAll_of_check (Log.admits_of_check readDeps readTrusted readTrusted_reports)
      htrusted)
  have hdone : handedOn (ρ.thread 36 0) = true := by
    show handedOn ((ρ.cfg 36).pool[0]?) = true
    rw [hcfg 36 (by decide)]
    exact hfinal
  obtain ⟨used, ctx, hret, hstamp⟩ := exists_of_handedOn hdone
  obtain ⟨outcome, hb, hview⟩ :=
    authorized_in_one_view (f := fun outcome => outcome) (hlabel 10 _ rfl) hret
  cases hb
  exact ⟨ρ, used, ctx, hret, hstamp, (hview used ctx rfl).2⟩

end S3
