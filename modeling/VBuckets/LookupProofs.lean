import VBuckets.WatchProofs
import VBuckets.LoadGroupProofs
import VBuckets.InterleavingProofs

/-! # The control-plane client — lookups

    `controlplane/lookup.go` and `errors.go`.  A call of the client is a program over
    ATOMIC operations: one per critical section, cache operation, RPC or wait.  The two
    lookups are one program over a lane (`lookup`), with its retry, and the loader they
    leave behind (`loader`).

    A cache read that falls inside the loader's last section (`Client.install`) has the
    effect of one just before it: reads change nothing but recency and drop expired
    entries, and the section acts on what its own reads return. -/

namespace ControlPlane

open ByteString LocalCache Mapping LoadGroup Interleaving

/-! ## Library functions and errors -/

/-- What the client calls outside its package: the public suffix list, the policy parser, and
    what the parser of mappings needs.  The parser of policies decodes JSON and then does what
    `Iam.parsePolicyJSON` does; the client's behaviour is proved for any. -/
structure Deps where
  hasETLDPlusOne : Bytes → Bool
  parsePolicy : Bytes → Except Message Iam.Policy
  hostParser : Url.HostParser
  crypto : Crypto

/-- The status codes the client tells apart. -/
inductive Code where
  | notFound | permissionDenied | unauthenticated | resourceExhausted | alreadyExists
  | aborted | failedPrecondition | invalidArgument | other
  deriving DecidableEq

/-- The errors of a lookup: those of the client itself, a code of the control plane,
    or a response that cannot be used. -/
inductive LookupError where
  | unsynchronized
  | notConnected
  | notFound
  | missRejected
  | revisionRace
  | canceled
  | rpc (code : Code)
  | invalidResponse (m : Message)
  deriving DecidableEq

/-- The error categories of the resolver contract. -/
inductive ResolverError where
  | notFound | unavailable | throttled | invalidResponse | accessDenied
  | alreadyOwnedByYou | alreadyExists | invalidArgument
  deriving DecidableEq

/-- What the middleware is told.  A race, a lost connection and a canceled wait are all
    reported as a temporary failure. -/
def mapResolverError : LookupError → ResolverError
  | .unsynchronized => .unavailable
  | .notConnected => .unavailable
  | .notFound => .notFound
  | .missRejected => .throttled
  | .revisionRace => .unavailable
  | .canceled => .unavailable
  | .rpc .notFound => .notFound
  | .rpc .permissionDenied => .accessDenied
  | .rpc .unauthenticated => .accessDenied
  | .rpc .resourceExhausted => .throttled
  | .rpc _ => .unavailable
  | .invalidResponse _ => .invalidResponse

/-- Codes have other meanings when a bucket is created: `aborted` and
    `failedPrecondition` say that someone else has the name. -/
def mapCreateVBucketError : Code → ResolverError
  | .alreadyExists => .alreadyOwnedByYou
  | .aborted => .alreadyExists
  | .failedPrecondition => .alreadyExists
  | .invalidArgument => .invalidArgument
  | .permissionDenied => .accessDenied
  | .unauthenticated => .accessDenied
  | .notFound => .accessDenied
  | code => mapResolverError (.rpc code)

/-- For a listing an unknown key is a refused one. -/
def mapListVBucketsError : Code → ResolverError
  | .permissionDenied => .accessDenied
  | .unauthenticated => .accessDenied
  | .notFound => .accessDenied
  | code => mapResolverError (.rpc code)

/-! ## Unary responses -/

/-- `LookupCredentialsResponse`, with the fields that are read.  A response that found
    nothing carries the lifetime of the negative entry. -/
structure LookupCredentialsResponse where
  secretKey : Bytes
  iamPolicyJSON : Bytes
  ttl : Option Duration
  found : Bool
  negativeTTL : Option Duration
  revision : Nat
  deriving DecidableEq

/-- A mapping as the control plane sends it, before it is normalised. -/
structure LookupVBucketResponse where
  realEndpoint : Bytes
  realBucket : Bytes
  realAccessKey : Bytes
  realSecretKey : Bytes
  realRegion : Bytes
  pathPrefix : Bytes
  realUsePathStyle : Bool
  ttl : Option Duration
  routingTokenKey : Bytes
  found : Bool
  negativeTTL : Option Duration
  revision : Nat
  deriving DecidableEq

section
variable (deps : Deps)

/-- The cache entry of a response.  A negative one may hold nothing but its lifetime,
    and neither kind may hold the other's. -/
def credentialResponseEntry (resp : LookupCredentialsResponse) :
    Except Message (Cached VirtualCredentials) :=
  if resp.revision = 0 then .error "invalid credential lookup revision"
  else if !resp.found then
    if resp.secretKey ≠ [] ∨ resp.iamPolicyJSON ≠ [] ∨ resp.ttl.isSome then
      .error "negative credential response contains positive fields"
    else
      match cacheTTL "LookupCredentials negative response" resp.negativeTTL with
      | .error e => .error e
      | .ok ttl => .ok ⟨none, resp.revision, ttl⟩
  else if resp.negativeTTL.isSome then
    .error "found credential response contains negative TTL"
  else
    match cacheTTL "LookupCredentials response" resp.ttl with
    | .error e => .error e
    | .ok ttl =>
        match deps.parsePolicy resp.iamPolicyJSON with
        | .error e => .error e
        | .ok policy =>
            if resp.secretKey = [] then .error "credential secret key is required"
            else .ok ⟨some ⟨resp.secretKey, policy⟩, resp.revision, ttl⟩

/-- The same for mappings; a positive one is normalised here, so every cached mapping
    is in normal form. -/
def vbucketResponseEntry (resp : LookupVBucketResponse) :
    Except Message (Cached VBucketConfig) :=
  if resp.revision = 0 then .error "invalid vbucket lookup revision"
  else if !resp.found then
    if resp.realEndpoint ≠ [] ∨ resp.realBucket ≠ [] ∨ resp.realAccessKey ≠ [] ∨
        resp.realSecretKey ≠ [] ∨ resp.realRegion ≠ [] ∨ resp.pathPrefix ≠ [] ∨
        resp.realUsePathStyle = true ∨ resp.routingTokenKey ≠ [] ∨ resp.ttl.isSome then
      .error "negative vbucket response contains positive fields"
    else
      match cacheTTL "LookupVBucket negative response" resp.negativeTTL with
      | .error e => .error e
      | .ok ttl => .ok ⟨none, resp.revision, ttl⟩
  else if resp.negativeTTL.isSome then
    .error "found vbucket response contains negative TTL"
  else
    match cacheTTL "LookupVBucket response" resp.ttl with
    | .error e => .error e
    | .ok ttl =>
        match normalizeVBucketConfig deps.hostParser deps.crypto (some
            { realEndpoint := resp.realEndpoint
              realBucket := resp.realBucket
              realAccessKey := resp.realAccessKey
              realSecretKey := resp.realSecretKey
              realRegion := resp.realRegion
              pathPrefix := resp.pathPrefix
              realUsePathStyle := resp.realUsePathStyle
              routingTokenKey := resp.routingTokenKey
              routingTokenCodec := none }) with
        | .error e => .error ("invalid LookupVBucket mapping: " ++ e)
        | .ok cfg => .ok ⟨some cfg, resp.revision, ttl⟩

/-- The response to a lookup in each lane. -/
abbrev Lane.Response : Lane → Type
  | .credentials => LookupCredentialsResponse
  | .vbuckets => LookupVBucketResponse

/-- The revision a response was answered at. -/
def Lane.responseRevision : (l : Lane) → l.Response → Nat
  | .credentials, resp => resp.revision
  | .vbuckets, resp => resp.revision

/-- The cache entry a response stands for. -/
def Lane.responseEntry : (l : Lane) → l.Response → Except Message (Cached l.Value)
  | .credentials, resp => credentialResponseEntry deps resp
  | .vbuckets, resp => vbucketResponseEntry deps resp

/-- A `timestamppb.Timestamp` as its library reads it: whether `CheckValid` accepts it, and the
    nanoseconds of `AsTime`.  Both are any. -/
structure Timestamp where
  checkValid : Bool
  asTime : Time

/-- A bucket in a listing, as the control plane sends it. -/
structure VBucketSummary where
  bucketName : Bytes
  creationDate : Option Timestamp

/-- `ListVBucketsResponse`; a summary may be nil. -/
structure ListVBucketsResponse where
  buckets : List (Option VBucketSummary)
  revision : Nat

/-- The same with its date read. -/
structure ListedVBucket where
  name : Bytes
  creationDate : Time

/-- The loop of `ListVBuckets` over the summaries: one that is missing or has no valid
    date makes the whole listing invalid. -/
def listedVBuckets : List (Option VBucketSummary) → Except Message (List ListedVBucket)
  | [] => .ok []
  | some ⟨name, some date⟩ :: rest =>
      if !date.checkValid then .error "invalid ListVBuckets creation date"
      else
        match listedVBuckets rest with
        | .ok buckets => .ok (⟨name, date.asTime⟩ :: buckets)
        | .error e => .error e
  | _ :: _ =>
      .error "invalid ListVBuckets response: bucket summary and creation date are required"

/-! ## The loader's last section -/

/-- The end of a loader's last section: the candidate is for the current revision,
    unless the cache has something at least as new. -/
def Client.store (c : Client) (l : Lane) (key : Bytes) (revision : Nat)
    (candidate : Cached l.Value) (readAt setAt : Time) :
    Except LookupError (Cached l.Value) × Client :=
  if c.sync.revision < candidate.revision then
    (.error .revisionRace, { c with sync := c.sync.requestResync })
  else if c.sync.revision ≠ revision ∨ candidate.revision ≠ c.sync.revision then
    (.error .revisionRace, c)
  else
    let read := (c.caches.lane l).getIfPresent key readAt
    let write : Except LookupError (Cached l.Value) × Client :=
      (.ok candidate, c.withLane l (read.2.set key candidate candidate.ttl setAt))
    match read.1 with
    | some newer =>
        if candidate.revision ≤ newer.revision then
          (.ok newer, c.withLane l read.2)
        else write
    | none => write

/-- The last section of a loader: the epoch must be the one the load started in, and a
    newer entry for the current revision wins. -/
def Client.install (c : Client) (l : Lane) (key : Bytes) (revision epoch : Nat)
    (candidate : Cached l.Value) (readAt rereadAt setAt : Time) :
    Except LookupError (Cached l.Value) × Client :=
  if c.sync.state ≠ .ready ∨ c.sync.epoch ≠ epoch then (.error .revisionRace, c)
  else
    let read := (c.caches.lane l).getIfPresent key readAt
    let c' := c.withLane l read.2
    match read.1 with
    | some newer =>
        if candidate.revision < newer.revision ∧ newer.revision = c.sync.revision then
          (.ok newer, c')
        else c'.store l key revision candidate rereadAt setAt
    | none => c'.store l key revision candidate rereadAt setAt

end

/-! ## What the loader's last section can do -/

section
variable {c : Client} {l : Lane} {key : Bytes} {revision epoch : Nat}
  {candidate : Cached l.Value}

/-- Reading a lane adds nothing to the caches. -/
theorem Client.readLane_within (c : Client) (l : Lane) (key : Bytes) (now : Time) :
    (c.withLane l ((c.caches.lane l).getIfPresent key now).2).caches.Within c.caches :=
  Caches.setLane_within (fun _ _ h => holds_getIfPresent h)

/-- A lane gains at most one entry: the candidate under its key. -/
def Caches.Gains (d c : Caches) (l : Lane) (key : Bytes) (candidate : Cached l.Value) : Prop :=
  (∀ l', l' ≠ l → d.lane l' = c.lane l') ∧
  ∀ k v, d.Holds l k v → c.Holds l k v ∨ (k = key ∧ v = candidate)

/-- What the last section of a loader leaves: the state as it was, or a resync request;
    and the candidate added only for the current revision of a ready client. -/
structure Installed (c : Client) (l : Lane) (key : Bytes) (candidate : Cached l.Value)
    (out : Except LookupError (Cached l.Value) × Client) : Prop where
  sync : out.2.sync = c.sync ∨ out.2.sync = c.sync.requestResync
  connected : out.2.connected = c.connected
  caches : out.2.caches.Within c.caches ∨
    (c.sync.state = .ready ∧ candidate.revision = c.sync.revision ∧ out.2.sync = c.sync ∧
      out.2.caches.Gains c.caches l key candidate)
  answer : ∀ e, out.1 = .ok e → c.caches.Holds l key e ∨ e = candidate
  failure : ∀ e, out.1 = .error e → e = .revisionRace

/-- Dropping expired entries beforehand changes none of this. -/
private theorem Installed.after_read {out : Except LookupError (Cached l.Value) × Client}
    (readAt : Time)
    (h : Installed (c.withLane l ((c.caches.lane l).getIfPresent key readAt).2)
      l key candidate out) : Installed c l key candidate out := by
  have hw := c.readLane_within l key readAt
  refine ⟨h.sync, h.connected, ?_, ?_, h.failure⟩
  · rcases h.caches with hc | ⟨hr, hrev, hs, hother, hgain⟩
    · exact Or.inl (hc.trans hw)
    · refine Or.inr ⟨hr, hrev, hs, ?_, ?_⟩
      · intro l' hl'
        rw [hother l' hl']
        exact Caches.lane_setLane_ne _ _ hl'
      · intro k v hv
        rcases hgain k v hv with hold | heq
        · exact Or.inl (hw l k v hold)
        · exact Or.inr heq
  · intro e he
    rcases h.answer e he with hold | heq
    · exact Or.inl (hw l key e hold)
    · exact Or.inr heq

/-- The second half of the section: a candidate newer than the client's revision makes
    it resync, an older one is dropped, and the cache keeps the newer of two entries. -/
private theorem store_spec (hready : c.sync.state = .ready) (readAt setAt : Time) :
    Installed c l key candidate (c.store l key revision candidate readAt setAt) := by
  -- the two outcomes, stated for every branch that leads to them
  have nothing : ∀ {s : Sync}, s = c.sync ∨ s = c.sync.requestResync →
      Installed c l key candidate (.error .revisionRace, { c with sync := s }) := by
    intro s hs
    refine ⟨hs, rfl, Or.inl (Caches.Within.refl _), ?_, ?_⟩
    · intro e he; exact nomatch he
    · intro e he; exact (Except.error.inj he).symm
  have written : candidate.revision = c.sync.revision →
      Installed c l key candidate
        (.ok candidate, c.withLane l
          (((c.caches.lane l).getIfPresent key readAt).2.set key candidate candidate.ttl
            setAt)) := by
    intro hrev
    refine ⟨Or.inl rfl, rfl, Or.inr ⟨hready, hrev, rfl, ?_, ?_⟩, ?_, ?_⟩
    · intro l' hl'
      exact Caches.lane_setLane_ne _ _ hl'
    · intro k v hv
      have hv' : ((c.caches.setLane l (((c.caches.lane l).getIfPresent key readAt).2.set key
          candidate candidate.ttl setAt)).lane l).Holds k v := hv
      rw [Caches.lane_setLane] at hv'
      rcases holds_set hv' with heq | hold
      · exact Or.inr heq
      · exact Or.inl (holds_getIfPresent hold)
    · intro e he
      exact Or.inr (Except.ok.inj he).symm
    · intro e he; exact nomatch he
  simp only [Client.store]
  by_cases hlt : c.sync.revision < candidate.revision
  · rw [if_pos hlt]; exact nothing (Or.inr rfl)
  · rw [if_neg hlt]
    by_cases hne : c.sync.revision ≠ revision ∨ candidate.revision ≠ c.sync.revision
    · rw [if_pos hne]; exact nothing (Or.inl rfl)
    · rw [if_neg hne]
      have hrev : candidate.revision = c.sync.revision := not_not.mp (not_or.mp hne).2
      cases hr : ((c.caches.lane l).getIfPresent key readAt).1 with
      | none => exact written hrev
      | some newer =>
          -- somebody else has stored an entry in the meantime, and a newer one stays
          by_cases hle : candidate.revision ≤ newer.revision
          · simp only [if_pos hle]
            refine ⟨Or.inl rfl, rfl, Or.inl (c.readLane_within l key readAt), ?_, ?_⟩
            · intro e he
              rw [← Except.ok.inj he]
              exact Or.inl (holds_of_getIfPresent hr)
            · intro e he; exact nomatch he
          · simp only [if_neg hle]
            exact written hrev

/-- **INSTALL**: what a loader can leave behind and answer. -/
theorem install_spec (c : Client) (l : Lane) (key : Bytes) (revision epoch : Nat)
    (candidate : Cached l.Value) (readAt rereadAt setAt : Time) :
    Installed c l key candidate
      (c.install l key revision epoch candidate readAt rereadAt setAt) := by
  simp only [Client.install]
  by_cases hrace : c.sync.state ≠ .ready ∨ c.sync.epoch ≠ epoch
  · rw [if_pos hrace]
    refine ⟨Or.inl rfl, rfl, Or.inl (Caches.Within.refl _), ?_, ?_⟩
    · intro e he; exact nomatch he
    · intro e he; exact (Except.error.inj he).symm
  · rw [if_neg hrace]
    have hready : c.sync.state = .ready := not_not.mp (not_or.mp hrace).1
    -- the cache is read twice, since the source looks once more before it writes
    have stored : Installed c l key candidate
        ((c.withLane l ((c.caches.lane l).getIfPresent key readAt).2).store l key revision
          candidate rereadAt setAt) := by
      refine Installed.after_read readAt (store_spec ?_ rereadAt setAt)
      exact hready
    cases hr : ((c.caches.lane l).getIfPresent key readAt).1 with
    | none => exact stored
    | some newer =>
        by_cases hn : candidate.revision < newer.revision ∧ newer.revision = c.sync.revision
        · simp only [if_pos hn]
          refine ⟨Or.inl rfl, rfl, Or.inl (c.readLane_within l key readAt), ?_, ?_⟩
          · intro e he
            rw [← Except.ok.inj he]
            exact Or.inl (holds_of_getIfPresent hr)
          · intro e he; exact nomatch he
        · simp only [if_neg hn]
          exact stored

end

/-! ## Operations -/

/-- The operations of the shared client.  Each is one section under `mu`, one access
    to a cache, or one message; everything between two of them may be interleaved with
    other goroutines. -/
inductive Op where
  | lookupSnapshot
  | stillCurrent (revision epoch : Nat)
  | ready
  | lookupBaseHost (hostname : Bytes)
  | getIfPresent (l : Lane) (key : Bytes)
  | startLoad (l : Lane) (key : l.Key) (revision epoch : Nat)
  | await (l : Lane) (call : Nat)
  | rpcLookup (l : Lane) (key : l.Key) (minimumRevision : Nat)
  | checkUnaryRevision (revision expected : Nat)
  | install (l : Lane) (key : l.Key) (revision epoch : Nat) (candidate : Cached l.Value)
  | publish (l : Lane) (call : Nat) (result : Except LookupError (Cached l.Value))
  | close (l : Lane) (call : Nat)
  | rpcCreate (accessKeyID bucketName locationConstraint : Bytes) (minimumRevision : Nat)
  | commitCreate (response : Option Nat) (revision : Nat)
  | rpcList (accessKeyID : Bytes) (minimumRevision : Nat)
  | requestResync
  | now

/-- What each operation answers. -/
abbrev Op.Res : Op → Type
  | .lookupSnapshot => Except LookupError (Nat × Nat)
  | .stillCurrent _ _ => Bool
  | .ready => Bool
  | .lookupBaseHost _ => Except Domain.HostError (Option Bytes)
  | .getIfPresent l _ => Option (Cached l.Value)
  | .startLoad _ _ _ _ => Except LookupError Nat
  | .await l _ => Except LookupError (Cached l.Value)
  | .rpcLookup l _ _ => Except Code (Option l.Response)
  | .checkUnaryRevision _ _ => Bool
  | .install l _ _ _ _ => Except LookupError (Cached l.Value)
  | .publish _ _ _ => Unit
  | .close _ _ => Unit
  | .rpcCreate _ _ _ _ => Except Code (Option Nat)
  | .commitCreate _ _ => Bool
  | .rpcList _ _ => Except Code (Option ListVBucketsResponse)
  | .requestResync => Unit
  | .now => Time

/-- The operations with their results. -/
def sig : Sig := ⟨Op, Op.Res⟩

/-- Programs of the client. -/
abbrev Program (α : Type) := Prog sig α

/-- A program that is one operation. -/
def perform (o : Op) : Program o.Res := Prog.perform (S := sig) o

/-! ## The calls of the client -/

section
variable (deps : Deps)

/-- What a lookup makes of a cache entry. -/
def entryResult {V : Type} (e : Cached V) : Except LookupError V :=
  match e.value with
  | none => .error .notFound
  | some v => .ok v

/-- The load function of the two lookups: ask the control plane, compare its revision
    with the one the lookup started at, then install the answer if the client's view
    has not moved on. -/
def load (l : Lane) (key : l.Key) (revision epoch : Nat) :
    Program (Except LookupError (Cached l.Value)) := do
  match ← perform (.rpcLookup l key revision) with
  | .error code => pure (.error (.rpc code))
  | .ok none => pure (.error (.invalidResponse ("missing " ++ l.text ++ " lookup response")))
  | .ok (some resp) =>
      if ← perform (.checkUnaryRevision (l.responseRevision resp) revision) then
        match l.responseEntry deps resp with
        | .error e => pure (.error (.invalidResponse e))
        | .ok candidate => perform (.install l key revision epoch candidate)
      else pure (.error .revisionRace)

/-- The goroutine of `loadGroup.Do`: it leaves its result for all that wait and then
    takes the call off the map. -/
def loader (l : Lane) (key : l.Key) (call revision epoch : Nat) : Program Unit := do
  let result ← load deps l key revision epoch
  perform (.publish l call result)
  perform (.close l call)

/-- One attempt of a lookup.  It takes revision and epoch, reads the cache, joins or
    starts a load on a miss, and answers only while the view it started from still
    stands; `onRace` is what it does otherwise. -/
def attempt (l : Lane) (key : l.Key) (onRace : Program (Except LookupError l.Value)) :
    Program (Except LookupError l.Value) := do
  match ← perform .lookupSnapshot with
  | .error e => if e = .revisionRace then onRace else pure (.error e)
  | .ok (revision, epoch) =>
      let miss : Program (Except LookupError l.Value) := do
        match ← perform (.startLoad l key revision epoch) with
        | .error e => if e = .revisionRace then onRace else pure (.error e)
        | .ok call =>
            match ← perform (.await l call) with
            | .error e => if e = .revisionRace then onRace else pure (.error e)
            | .ok result =>
                if ← perform (.stillCurrent result.revision epoch) then
                  pure (entryResult result)
                else onRace
      match ← perform (.getIfPresent l (l.cacheKey key)) with
      | some cached =>
          if cached.revision ≤ revision then
            if ← perform (.stillCurrent revision epoch) then pure (entryResult cached)
            else onRace
          else miss
      | none => miss

/-- `lookupCredentials` and `lookupVBucket`: a race is retried once, if the client is
    ready. -/
def lookup (l : Lane) (key : l.Key) (retry : Bool) : Program (Except LookupError l.Value) :=
  let final := attempt l key (pure (.error .revisionRace))
  if retry then
    attempt l key do
      if ← perform .ready then final else pure (.error .revisionRace)
  else final

/-- `LookupCredentials`. -/
def lookupCredentials (accessKeyID : Bytes) (retry : Bool) :
    Program (Except LookupError VirtualCredentials) :=
  lookup .credentials accessKeyID retry

/-- `LookupVBucket`. -/
def lookupVBucket (accessKeyID bucketName : Bytes) (retry : Bool) :
    Program (Except LookupError VBucketConfig) :=
  lookup .vbuckets (accessKeyID, bucketName) retry

/-- The revision and epoch a request was begun at.  As long as both stand, the client has
    shown one view. -/
structure ResolutionStamp where
  revision : Nat
  epoch : Nat
  deriving DecidableEq

/-- The stamp is the revision and the epoch of a ready and connected client. -/
def beginResolution : Program (Except ResolverError ResolutionStamp) := do
  match ← perform .lookupSnapshot with
  | .error e => pure (.error (mapResolverError e))
  | .ok (revision, epoch) => pure (.ok ⟨revision, epoch⟩)

/-- Whether the stamp still stands.  If not, the source returns `ErrRevisionRace`. -/
def validateResolution (stamp : ResolutionStamp) : Program Bool :=
  perform (.stillCurrent stamp.revision stamp.epoch)

/-- `CreateVBucket`.  The committed revision is noted before the call returns, so the
    caller's next lookup waits for it. -/
def createVBucket (accessKeyID bucketName locationConstraint : Bytes) :
    Program (Except ResolverError Unit) := do
  match ← perform .lookupSnapshot with
  | .error e => pure (.error (mapResolverError e))
  | .ok (revision, _) =>
      match ← perform (.rpcCreate accessKeyID bucketName locationConstraint revision) with
      | .error code => pure (.error (mapCreateVBucketError code))
      | .ok response =>
          if ← perform (.commitCreate response revision) then pure (.ok ())
          else pure (.error (mapResolverError .revisionRace))

/-- The response is used only if the view it was asked for is still the current one. -/
def listVBuckets (accessKeyID : Bytes) :
    Program (Except ResolverError (List ListedVBucket)) := do
  match ← perform .lookupSnapshot with
  | .error e => pure (.error (mapResolverError e))
  | .ok (revision, epoch) =>
      match ← perform (.rpcList accessKeyID revision) with
      | .error code => pure (.error (mapListVBucketsError code))
      | .ok none => do
          perform .requestResync
          pure (.error (mapResolverError .revisionRace))
      | .ok (some resp) =>
          if ← perform (.checkUnaryRevision resp.revision revision) then
            if ← perform (.stillCurrent revision epoch) then
              match listedVBuckets resp.buckets with
              | .error e => pure (.error (mapResolverError (.invalidResponse e)))
              | .ok buckets =>
                  if ← perform (.stillCurrent revision epoch) then pure (.ok buckets)
                  else pure (.error (mapResolverError .revisionRace))
            else pure (.error (mapResolverError .revisionRace))
          else pure (.error (mapResolverError .revisionRace))

/-! ## Callers

    Code that uses the client is a program over its calls; `interpret` puts each call's
    own program in its place. -/

/-- What the middleware asks of the client and of the clock. -/
inductive Call where
  | beginResolution
  | validateResolution (stamp : ResolutionStamp)
  | lookupCredentials (accessKeyID : Bytes)
  | lookupVBucket (accessKeyID bucketName : Bytes)
  | lookupBaseHost (hostname : Bytes)
  | createVBucket (accessKeyID bucketName locationConstraint : Bytes)
  | listVBuckets (accessKeyID : Bytes)
  | now

/-- What it is told. -/
abbrev Call.Res : Call → Type
  | .beginResolution => Except ResolverError ResolutionStamp
  | .validateResolution _ => Bool
  | .lookupCredentials _ => Except LookupError VirtualCredentials
  | .lookupVBucket _ _ => Except LookupError VBucketConfig
  | .lookupBaseHost _ => Except Domain.HostError (Option Bytes)
  | .createVBucket _ _ _ => Except ResolverError Unit
  | .listVBuckets _ => Except ResolverError (List ListedVBucket)
  | .now => Time

/-- These calls with their results. -/
def calls : Sig := ⟨Call, Call.Res⟩

/-- Code that uses the client. -/
abbrev Caller (α : Type) := Prog calls α

/-- A caller that makes one call. -/
def call (c : Call) : Caller c.Res := Prog.perform (S := calls) c

/-- The client's program for a call. -/
def Call.program : (c : Call) → Program c.Res
  | .beginResolution => ControlPlane.beginResolution
  | .validateResolution stamp => ControlPlane.validateResolution stamp
  | .lookupCredentials accessKeyID => ControlPlane.lookupCredentials accessKeyID true
  | .lookupVBucket accessKeyID bucketName =>
      ControlPlane.lookupVBucket accessKeyID bucketName true
  | .lookupBaseHost hostname => perform (.lookupBaseHost hostname)
  | .createVBucket accessKeyID bucketName locationConstraint =>
      ControlPlane.createVBucket accessKeyID bucketName locationConstraint
  | .listVBuckets accessKeyID => ControlPlane.listVBuckets accessKeyID
  | .now => perform .now

/-- A caller as a program of the client: each call is replaced by its program, so that
    the callers of all requests interleave at the operations inside their calls. -/
def interpret {α : Type} : Caller α → Program α
  | .ret a => .ret a
  | .act c k => (Call.program c).bind (fun r => interpret (k r))

theorem interpret_bind {α β : Type} (p : Caller α) (f : α → Caller β) :
    interpret (p.bind f) = (interpret p).bind (fun a => interpret (f a)) := by
  induction p with
  | ret a => rfl
  | act c k ih =>
      refine Eq.trans ?_ (Prog.bind_assoc (Call.program c) (fun r => interpret (k r)) _).symm
      exact congrArg (Prog.bind (Call.program c)) (funext ih)

end

end ControlPlane
