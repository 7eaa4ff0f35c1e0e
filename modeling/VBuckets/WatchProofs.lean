import VBuckets.ClientProofs

/-! # The control-plane client — watch frames

    `processWatch` and `applyEntityLocked` of `controlplane/watch.go`.  A frame is
    handled under `syncMu`, but the caches have locks of their own, so a concurrent
    cache read can fall between the moment the frame reads whether its key is cached
    (`watchRead`) and the moment it acts on the answer (`watchApply`).  The two halves
    are kept apart for that reason; `processWatch` is one after the other.

    `Accepted` says once what an accepted frame can do, `watchApply_cases` that nothing
    else happens; every invariant of the client is derived from these two. -/

namespace ControlPlane

open ByteString LocalCache Mapping

/-! ## Frames -/

/-- A `durationpb.Duration` as its library reads it: whether `CheckValid` accepts it, and the
    nanoseconds `AsDuration` gives.  Both are any. -/
structure Duration where
  checkValid : Bool
  asDuration : Time
  deriving DecidableEq

/-- The lifetime of an entry has to be given, valid and positive.  Each refusal names what the
    lifetime was for. -/
def cacheTTL (source : String) (ttl : Option Duration) : Except Message Time :=
  match ttl with
  | none => .error (source ++ " TTL is required")
  | some ttl =>
      if !ttl.checkValid then .error (source ++ " TTL is invalid")
      else if ttl.asDuration ≤ 0 then .error (source ++ " TTL must be positive")
      else .ok ttl.asDuration

/-- What is accepted as a lifetime is positive, so that storing with it always stores. -/
theorem cacheTTL_pos {source : String} {ttl : Option Duration} {t : Time}
    (h : cacheTTL source ttl = .ok t) : 0 < t := by
  cases ttl with
  | none => exact nomatch h
  | some d =>
      simp only [cacheTTL] at h
      by_cases hv : (!d.checkValid) = true
      · rw [if_pos hv] at h; exact nomatch h
      · rw [if_neg hv] at h
        by_cases hp : d.asDuration ≤ 0
        · rw [if_pos hp] at h; exact nomatch h
        · rw [if_neg hp] at h
          have ht : d.asDuration = t := Except.ok.inj h
          rw [← ht]
          exact Int.not_le.mp hp

/-- A change of the credentials under an access key. -/
structure CredentialsDelta where
  accessKeyID : Bytes
  remove : Bool
  negativeTTL : Option Duration
  deriving DecidableEq

/-- A base domain that is added or removed. -/
structure BaseHostDelta where
  baseHost : Bytes
  remove : Bool
  deriving DecidableEq

/-- A change of a mapping. -/
structure VBucketDelta where
  accessKeyID : Bytes
  bucketName : Bytes
  remove : Bool
  negativeTTL : Option Duration
  deriving DecidableEq

/-- The `event` of a frame: three kinds of deltas and three markers.  The payload of a
    delta is a pointer in the source, and may be missing. -/
inductive Event where
  | credentials (d : Option CredentialsDelta)
  | baseHost (d : Option BaseHostDelta)
  | vbucket (d : Option VBucketDelta)
  | snapshotBegin
  | synchronizationBarrier
  | heartbeat
  deriving DecidableEq

/-- A watch frame; a nil frame is treated as one without event. -/
structure WatchEvent where
  event : Option Event
  revision : Nat
  cursor : Bytes
  deriving DecidableEq

/-! ## Entities -/

/-- A delta about one key of a lane. -/
structure Invalidation (l : Lane) where
  key : l.Key
  remove : Bool
  negativeTTL : Option Duration

/-- The lane and key of a credential or vbucket delta that names one. -/
def Event.invalidation : Event → Option ((l : Lane) × Invalidation l)
  | .credentials (some d) =>
      if d.accessKeyID = [] then none
      else some ⟨.credentials, d.accessKeyID, d.remove, d.negativeTTL⟩
  | .vbucket (some d) =>
      if d.accessKeyID = [] ∨ d.bucketName = [] then none
      else some ⟨.vbuckets, (d.accessKeyID, d.bucketName), d.remove, d.negativeTTL⟩
  | _ => none

/-- How a lane is named in messages. -/
def Lane.text : Lane → String
  | .credentials => "credential"
  | .vbuckets => "vbucket"

/-- What `applyEntityLocked` does to a lane once it knows whether the key is hot.  Only
    keys that are in the cache are touched: a removal leaves a negative entry there, a
    change removes the entry, and the next lookup asks the control plane. -/
def applyInvalidation (l : Lane) (d : Invalidation l) (revision : Nat) (hot : Bool)
    (now : Time) (c : Cache Bytes (Cached l.Value)) :
    Option Message × Cache Bytes (Cached l.Value) :=
  let key := l.cacheKey d.key
  if d.remove then
    match cacheTTL (l.text ++ " removal") d.negativeTTL with
    | .error e => (some e, c.invalidate key)
    | .ok ttl =>
        if hot then (none, c.set key ⟨none, revision, ttl⟩ ttl now) else (none, c)
  else if d.negativeTTL.isSome then
    (some (l.text ++ " invalidation must not include negative TTL"), c)
  else if hot then (none, c.invalidate key)
  else (none, c)

section
variable (hasETLDPlusOne : Bytes → Bool)

/-- The messages for domains that are refused. -/
def domainErrorText : Domain.DomainError → Message
  | .invalid => "invalid base domain"
  | .publicSuffix => "base domain must not be a public suffix"

/-- The domain a change names, in normal form. -/
def baseHostDeltaDomain (delta : Option BaseHostDelta) : Except Message Bytes :=
  match delta with
  | none => .error "missing base host delta"
  | some d =>
      match Domain.normalizeBaseDomain hasETLDPlusOne d.baseHost with
      | .error e => .error (domainErrorText e)
      | .ok domain => .ok domain

/-- The registry after a live base-host delta.  A new domain needs room below the
    configured bound; one that is registered already gets the new revision. -/
def applyBaseHost (delta : Option BaseHostDelta) (revision : Nat) (s : Sync) :
    Except Message Domain.Registry :=
  match baseHostDeltaDomain hasETLDPlusOne delta with
  | .error e => .error e
  | .ok domain =>
      if (delta.map (·.remove)).getD false then .ok (s.baseHosts.erase domain)
      else if domain ∉ s.baseHosts ∧ s.baseHostMax ≤ s.baseHosts.keys.length then
        .error "base-domain registry exceeds configured bound"
      else .ok (s.baseHosts.insert domain revision)

/-- A credential or vbucket delta applied to its lane. -/
def Client.applyToLane (c : Client) (l : Lane) (d : Invalidation l) (revision : Nat)
    (hot : Bool) (now : Time) : Option Message × Client :=
  let out := applyInvalidation l d revision hot now (c.caches.lane l)
  (out.1, c.withLane l out.2)

/-- `applyEntityLocked`, given whether the named key was found in its cache.  A marker
    that gets here is refused as an unknown event. -/
def Client.applyEntity (c : Client) (event : Event) (revision : Nat) (hot : Bool)
    (now : Time) : Option Message × Client :=
  match event with
  | .baseHost d =>
      match applyBaseHost hasETLDPlusOne d revision c.sync with
      | .error e => (some e, c)
      | .ok hosts => (none, { c with sync := { c.sync with baseHosts := hosts } })
  | .credentials _ =>
      match event.invalidation with
      | none => (some "invalid credential delta", c)
      | some ⟨l, d⟩ => c.applyToLane l d revision hot now
  | .vbucket _ =>
      match event.invalidation with
      | none => (some "invalid vbucket delta", c)
      | some ⟨l, d⟩ => c.applyToLane l d revision hot now
  | _ => (some "unknown watch event", c)

/-! ## Frame classes -/

/-- The state after an accepted SnapshotBegin.  The registry is staged apart from the
    one in use; a snapshot of the revision the client is at must end with its cursor. -/
def Sync.beginSnapshot (s : Sync) (revision : Nat) : Sync :=
  { s.transition .synchronizing with
    barrierRequired := true
    snapshot := some
      { revision := revision
        expectedCursor := if revision = s.revision then s.cursor else []
        previousCursor := s.cursor
        baseHosts := ∅ } }

/-- The state after the barrier that completes a snapshot: the staged registry replaces
    the old one.  The client is Ready unless it knows of a later revision it still has
    to see. -/
def Sync.completeSnapshot (s : Sync) (snap : SnapshotState) (revision : Nat)
    (cursor : Bytes) : Sync :=
  let required := if s.requiredRevision ≠ 0 ∧ s.requiredRevision ≤ revision then 0
    else s.requiredRevision
  Sync.transition
    { s with
      baseHosts := snap.baseHosts
      snapshot := none
      revision := revision
      cursor := cursor
      barrierRequired := false
      requiredRevision := required }
    (if required = 0 then .ready else .synchronizing)

/-- The state after a barrier that repeats the accepted revision and cursor. -/
def Sync.resume (s : Sync) : Sync :=
  if s.requiredRevision = 0 ∨ s.requiredRevision ≤ s.revision then
    Sync.transition { s with barrierRequired := false, requiredRevision := 0 } .ready
  else Sync.transition { s with barrierRequired := false } .synchronizing

/-- The state after an applied live mutation.  If it reaches the revision the client
    was waiting for, and no barrier is outstanding, the client is Ready. -/
def Sync.advance (s : Sync) (revision : Nat) (cursor : Bytes) : Sync :=
  if s.requiredRevision ≠ 0 ∧ s.requiredRevision ≤ revision then
    let s' := { s with revision := revision, cursor := cursor, requiredRevision := 0 }
    if s.barrierRequired = false then s'.transition .ready else s'
  else { s with revision := revision, cursor := cursor }

/-- The begin of a snapshot: both caches are emptied, since what they hold may be
    older than its cut. -/
def Client.snapshotBegin (c : Client) (delta : WatchEvent) : Option Message × Client :=
  if c.sync.snapshot.isSome then (some "nested snapshot begin", c)
  else if delta.revision = 0 ∨ delta.cursor ≠ [] ∨ delta.revision < c.sync.revision then
    (some "invalid snapshot begin", c)
  else
    (none, { c with
      sync := c.sync.beginSnapshot delta.revision
      caches := ⟨c.caches.credentials.invalidateAll, c.caches.vbuckets.invalidateAll⟩ })

/-- A barrier ends a snapshot at its cut, or confirms a position.  A revision and its
    cursor belong together: neither may be reused with another of the other. -/
def Client.synchronizationBarrier (c : Client) (delta : WatchEvent) :
    Option Message × Client :=
  if delta.revision = 0 ∨ delta.cursor = [] then (some "invalid synchronization barrier", c)
  else
    match c.sync.snapshot with
    | some snap =>
        if delta.revision ≠ snap.revision then
          (some ("snapshot barrier revision " ++ toString delta.revision ++
            " does not match cut " ++ toString snap.revision), c)
        else if snap.expectedCursor ≠ [] ∧ delta.cursor ≠ snap.expectedCursor then
          (some "same-revision snapshot changed canonical cursor", c)
        else if c.sync.revision < snap.revision ∧ snap.previousCursor ≠ [] ∧
            delta.cursor = snap.previousCursor then
          (some "newer snapshot reused an older revision cursor", c)
        else
          (none, { c with
            sync := c.sync.completeSnapshot snap delta.revision delta.cursor })
    | none =>
        if delta.revision ≠ c.sync.revision ∨ delta.cursor ≠ c.sync.cursor then
          (some "resume barrier does not match accepted revision/cursor", c)
        else (none, { c with sync := c.sync.resume })

/-- A heartbeat has to repeat the accepted position.  It changes nothing; that it
    arrived is what the silence timer sees. -/
def Client.heartbeat (c : Client) (delta : WatchEvent) : Option Message × Client :=
  if c.sync.snapshot.isSome ∨ delta.revision ≠ c.sync.revision ∨ delta.cursor = [] ∨
      delta.cursor ≠ c.sync.cursor then
    (some "heartbeat does not match accepted revision/cursor", c)
  else (none, c)

/-- An entity frame inside a snapshot.  Base domains are staged, each once and within
    the bound; credentials and mappings need no staging, since the caches were emptied
    when the snapshot began. -/
def Client.stageEntry (c : Client) (snap : SnapshotState) (delta : WatchEvent)
    (event : Event) : Option Message × Client :=
  if delta.revision = 0 ∨ snap.revision < delta.revision ∨ delta.cursor ≠ [] then
    (some "invalid snapshot entry envelope", c)
  else
    match event with
    | .baseHost d =>
        match baseHostDeltaDomain hasETLDPlusOne d with
        | .error e => (some e, c)
        | .ok domain =>
            if (d.map (·.remove)).getD false then
              (some "snapshot cannot contain base-domain removals", c)
            else if domain ∈ snap.baseHosts then
              (some "snapshot contains duplicate base domain", c)
            else if c.sync.baseHostMax ≤ snap.baseHosts.keys.length then
              (some "base-domain snapshot exceeds configured bound", c)
            else
              (none, { c with
                sync := { c.sync with
                  snapshot := some { snap with
                    baseHosts := snap.baseHosts.insert domain delta.revision } } })
    | _ => (some "credential/vbucket snapshot entries are forbidden", c)

/-- A live mutation: revision and cursor must be the next ones.  A gap, a repetition or
    an entity that is refused retires the view before the error is returned. -/
def Client.mutate (c : Client) (delta : WatchEvent) (event : Event) (hot : Bool)
    (now : Time) : Option Message × Client :=
  let retire (c : Client) : Client := { c with sync := c.sync.transition .disconnected }
  if c.sync.revision = 0 ∨ c.sync.cursor = [] then
    (some "watch mutation received before snapshot", c)
  else if delta.revision ≤ c.sync.revision then
    (some "duplicate or reordered watch mutation", retire c)
  else if delta.revision ≠ c.sync.revision + 1 ∨ delta.cursor = [] ∨
      delta.cursor = c.sync.cursor then
    (some ("watch revision gap: current=" ++ toString c.sync.revision ++ " received=" ++
      toString delta.revision), retire c)
  else
    match c.applyEntity hasETLDPlusOne event delta.revision hot now with
    | (some e, c') => (some e, retire c')
    | (none, c') => (none, { c' with sync := c'.sync.advance delta.revision delta.cursor })

/-- The body of `processWatch` under the lock, without its deferred part.  Frames are
    taken only by a client that is Synchronizing or Ready. -/
def Client.handleWatch (c : Client) (delta : WatchEvent) (event : Event) (hot : Bool)
    (now : Time) : Option Message × Client :=
  if c.sync.state ≠ .ready ∧ c.sync.state ≠ .synchronizing then
    (some "resolver temporarily unavailable: control plane is not synchronized", c)
  else
    match event with
    | .snapshotBegin => c.snapshotBegin delta
    | .synchronizationBarrier => c.synchronizationBarrier delta
    | .heartbeat => c.heartbeat delta
    | event =>
        match c.sync.snapshot with
        | some snap => c.stageEntry hasETLDPlusOne snap delta event
        | none => c.mutate hasETLDPlusOne delta event hot now

/-- The second half of `processWatch`, with the deferred part: any error but that of an
    empty frame fails closed. -/
def Client.watchApply (c : Client) (delta : WatchEvent) (hot : Bool) (now : Time) :
    Option Message × Client :=
  match delta.event with
  | none => (some "empty watch event", c)
  | some event =>
      match c.handleWatch hasETLDPlusOne delta event hot now with
      | (none, c') => (none, c')
      | (some e, c') => (some e, { c' with sync := c'.sync.fail })

end

/-- A frame that gets as far as `applyEntityLocked`. -/
def Sync.expectsMutation (s : Sync) (delta : WatchEvent) : Bool :=
  (s.state = .ready || s.state = .synchronizing) && s.snapshot.isNone &&
    s.revision ≠ 0 && s.cursor ≠ [] && delta.revision = s.revision + 1 &&
    delta.cursor ≠ [] && delta.cursor ≠ s.cursor

/-- The lane and cache key whose presence a frame reads. -/
def Sync.watchedKey (s : Sync) (delta : WatchEvent) : Option (Lane × Bytes) :=
  if s.expectsMutation delta then
    (delta.event.bind Event.invalidation).map (fun ⟨l, d⟩ => (l, l.cacheKey d.key))
  else none

/-- The first half of `processWatch`: whether the named key is hot.  The read refreshes
    the key's recency, and removes it if it has expired. -/
def Client.watchRead (c : Client) (delta : WatchEvent) (now : Time) : Bool × Client :=
  match c.sync.watchedKey delta with
  | none => (false, c)
  | some (l, key) =>
      let (found, cache) := (c.caches.lane l).getIfPresent key now
      (found.isSome, c.withLane l cache)

/-- `processWatch`; the two clock readings are those of the cache's two operations. -/
def Client.processWatch (hasETLDPlusOne : Bytes → Bool) (c : Client) (delta : WatchEvent)
    (readAt applyAt : Time) : Option Message × Client :=
  let (hot, c) := c.watchRead delta readAt
  c.watchApply hasETLDPlusOne delta hot applyAt

/-! ## What a frame can do -/

section
variable {hasETLDPlusOne : Bytes → Bool}

/-- The states in which frames are accepted. -/
def Sync.Active (s : Sync) : Prop := s.state = .ready ∨ s.state = .synchronizing

/-- A frame the client refused: it fails closed and keeps at most what it held. -/
structure Rejected (c c' : Client) : Prop where
  sync_eq : c'.sync = c.sync.fail
  connected_eq : c'.connected = c.connected
  within : c'.caches.Within c.caches

/-- A frame that is refused before it changes anything. -/
theorem Rejected.of_eq {c : Client} : Rejected c { c with sync := c.sync.fail } :=
  ⟨rfl, rfl, Caches.Within.refl _⟩

theorem Sync.fail_transition (s : Sync) : (s.transition .disconnected).fail = s.fail := by
  obtain ⟨present, _, _, _, _, _, _, _, _, _⟩ := s
  cases present <;> rfl

/-- A change that is refused adds nothing to the cache. -/
theorem applyInvalidation_within {l : Lane} {d : Invalidation l} {revision : Nat} {hot : Bool}
    {now : Time} {c c' : Cache Bytes (Cached l.Value)} {e : Message}
    (h : applyInvalidation l d revision hot now c = (some e, c')) {key : Bytes}
    {v : Cached l.Value} (hv : c'.Holds key v) : c.Holds key v := by
  simp only [applyInvalidation] at h
  by_cases hr : d.remove = true
  · rw [if_pos hr] at h
    cases ht : cacheTTL (l.text ++ " removal") d.negativeTTL with
    | error e' =>
        simp only [ht] at h
        have hc : c.invalidate (l.cacheKey d.key) = c' := congrArg Prod.snd h
        rw [← hc] at hv
        exact (holds_invalidate hv).2
    | ok ttl =>
        simp only [ht] at h
        cases hot with
        | true | false => exact nomatch congrArg Prod.fst h
  · rw [if_neg hr] at h
    by_cases hn : d.negativeTTL.isSome = true
    · rw [if_pos hn] at h
      have hc : c = c' := congrArg Prod.snd h
      rw [hc]; exact hv
    · rw [if_neg hn] at h
      cases hot with
      | true | false => exact nomatch congrArg Prod.fst h

/-- An entity that cannot be applied changes at most what is cached, and adds nothing. -/
theorem applyEntity_error {c c' : Client} {event : Event} {revision : Nat} {hot : Bool}
    {now : Time} {e : Message}
    (h : c.applyEntity hasETLDPlusOne event revision hot now = (some e, c')) :
    c'.sync = c.sync ∧ c'.connected = c.connected ∧ c'.caches.Within c.caches := by
  -- two ways to fail: before anything is touched, or inside a lane
  have same : ∀ {m : Message}, ((some m, c) : Option Message × Client) = (some e, c') →
      c'.sync = c.sync ∧ c'.connected = c.connected ∧ c'.caches.Within c.caches := by
    intro m hm
    have hc : c = c' := congrArg Prod.snd hm
    rw [← hc]
    exact ⟨rfl, rfl, Caches.Within.refl _⟩
  have lane : ∀ {l : Lane} {d : Invalidation l},
      c.applyToLane l d revision hot now = (some e, c') →
      c'.sync = c.sync ∧ c'.connected = c.connected ∧ c'.caches.Within c.caches := by
    intro l d hm
    have he := congrArg Prod.fst hm
    have hc := congrArg Prod.snd hm
    subst hc
    refine ⟨rfl, rfl, Caches.setLane_within ?_⟩
    intro key v hv
    exact applyInvalidation_within (Prod.ext he rfl) hv
  cases event with
  | credentials d =>
      simp only [Client.applyEntity] at h
      cases hi : (Event.credentials d).invalidation with
      | none => rw [hi] at h; exact same h
      | some i => rw [hi] at h; exact lane h
  | vbucket d =>
      simp only [Client.applyEntity] at h
      cases hi : (Event.vbucket d).invalidation with
      | none => rw [hi] at h; exact same h
      | some i => rw [hi] at h; exact lane h
  | baseHost d =>
      simp only [Client.applyEntity] at h
      cases hb : applyBaseHost hasETLDPlusOne d revision c.sync with
      | error m => rw [hb] at h; exact same h
      | ok hosts => rw [hb] at h; exact nomatch congrArg Prod.fst h
  | snapshotBegin | synchronizationBarrier | heartbeat => exact same h

/-- An applied entity and the client it leaves, before revision and cursor advance. -/
inductive Applied (hasETLDPlusOne : Bytes → Bool) (c : Client) (event : Event)
    (revision : Nat) (hot : Bool) (now : Time) : Client → Prop where
  | baseHost (d : BaseHostDelta) (hosts : Domain.Registry)
      (event_eq : event = .baseHost (some d))
      (hosts_eq : applyBaseHost hasETLDPlusOne (some d) revision c.sync = .ok hosts) :
      Applied hasETLDPlusOne c event revision hot now
        { c with sync := { c.sync with baseHosts := hosts } }
  | lane (l : Lane) (d : Invalidation l) (cache : Cache Bytes (Cached l.Value))
      (event_eq : event.invalidation = some ⟨l, d⟩)
      (cache_eq : applyInvalidation l d revision hot now (c.caches.lane l) = (none, cache)) :
      Applied hasETLDPlusOne c event revision hot now (c.withLane l cache)

/-- What a change that is accepted does. -/
theorem applyEntity_applied {c c' : Client} {event : Event} {revision : Nat} {hot : Bool}
    {now : Time} (h : c.applyEntity hasETLDPlusOne event revision hot now = (none, c')) :
    Applied hasETLDPlusOne c event revision hot now c' := by
  -- credentials and vbuckets go through their lane alike
  have lane : ∀ {l : Lane} {d : Invalidation l}, event.invalidation = some ⟨l, d⟩ →
      c.applyToLane l d revision hot now = (none, c') →
      Applied hasETLDPlusOne c event revision hot now c' := by
    intro l d hi hm
    have he : (applyInvalidation l d revision hot now (c.caches.lane l)).1 = none :=
      congrArg Prod.fst hm
    have hc := congrArg Prod.snd hm
    subst hc
    exact .lane l d _ hi (Prod.ext he rfl)
  cases event with
  | credentials d =>
      simp only [Client.applyEntity] at h
      cases hi : (Event.credentials d).invalidation with
      | none => rw [hi] at h; exact nomatch congrArg Prod.fst h
      | some i => rw [hi] at h; exact lane hi h
  | vbucket d =>
      simp only [Client.applyEntity] at h
      cases hi : (Event.vbucket d).invalidation with
      | none => rw [hi] at h; exact nomatch congrArg Prod.fst h
      | some i => rw [hi] at h; exact lane hi h
  | baseHost d =>
      simp only [Client.applyEntity] at h
      cases d with
      | none => exact nomatch congrArg Prod.fst h
      | some d =>
          cases hb : applyBaseHost hasETLDPlusOne (some d) revision c.sync with
          | error m => rw [hb] at h; exact nomatch congrArg Prod.fst h
          | ok hosts =>
              rw [hb] at h
              have hc := congrArg Prod.snd h
              subst hc
              exact .baseHost d hosts rfl hb
  | snapshotBegin | synchronizationBarrier | heartbeat => exact nomatch congrArg Prod.fst h

/-- Apart from the registry, applying an entity leaves the synchronisation state. -/
theorem Applied.sync_eq {c c' : Client} {event : Event} {revision : Nat} {hot : Bool}
    {now : Time} (h : Applied hasETLDPlusOne c event revision hot now c') :
    c'.sync = { c.sync with baseHosts := c'.sync.baseHosts } ∧
      c'.connected = c.connected := by
  cases h with
  | baseHost | lane => exact ⟨rfl, rfl⟩

/-- Only entities are applied. -/
theorem Applied.entity {c c' : Client} {event : Event} {revision : Nat} {hot : Bool}
    {now : Time} (h : Applied hasETLDPlusOne c event revision hot now c') :
    event ≠ .snapshotBegin ∧ event ≠ .synchronizationBarrier ∧ event ≠ .heartbeat := by
  cases h with
  | baseHost d hosts event_eq =>
      rw [event_eq]
      refine ⟨?_, ?_, ?_⟩ <;> exact fun h => nomatch h
  | lane l d cache event_eq =>
      refine ⟨?_, ?_, ?_⟩
      all_goals
        rintro rfl
        exact nomatch event_eq

/-- An accepted frame and the client it leaves. -/
inductive Accepted (hasETLDPlusOne : Bytes → Bool) (c : Client) (delta : WatchEvent)
    (hot : Bool) (now : Time) : Client → Prop where
  | snapshotBegin (event_eq : delta.event = some .snapshotBegin)
      (no_snapshot : c.sync.snapshot = none) (revision_ne : delta.revision ≠ 0)
      (revision_le : c.sync.revision ≤ delta.revision) :
      Accepted hasETLDPlusOne c delta hot now
        { c with
          sync := c.sync.beginSnapshot delta.revision
          caches := ⟨c.caches.credentials.invalidateAll, c.caches.vbuckets.invalidateAll⟩ }
  | snapshotBarrier (snap : SnapshotState)
      (event_eq : delta.event = some .synchronizationBarrier)
      (snapshot_eq : c.sync.snapshot = some snap) (revision_eq : delta.revision = snap.revision)
      (revision_ne : delta.revision ≠ 0) (cursor_ne : delta.cursor ≠ [])
      (expected : snap.expectedCursor = [] ∨ delta.cursor = snap.expectedCursor)
      (fresh : c.sync.revision < snap.revision → snap.previousCursor ≠ [] →
        delta.cursor ≠ snap.previousCursor) :
      Accepted hasETLDPlusOne c delta hot now
        { c with sync := c.sync.completeSnapshot snap delta.revision delta.cursor }
  | resumeBarrier (event_eq : delta.event = some .synchronizationBarrier)
      (no_snapshot : c.sync.snapshot = none) (revision_eq : delta.revision = c.sync.revision)
      (revision_ne : delta.revision ≠ 0) (cursor_eq : delta.cursor = c.sync.cursor)
      (cursor_ne : delta.cursor ≠ []) :
      Accepted hasETLDPlusOne c delta hot now { c with sync := c.sync.resume }
  | heartbeat (event_eq : delta.event = some .heartbeat) : Accepted hasETLDPlusOne c delta hot now c
  | snapshotEntry (snap : SnapshotState) (d : BaseHostDelta) (domain : Bytes)
      (event_eq : delta.event = some (.baseHost (some d)))
      (snapshot_eq : c.sync.snapshot = some snap)
      (domain_eq : Domain.normalizeBaseDomain hasETLDPlusOne d.baseHost = .ok domain)
      (no_removal : d.remove = false) (fresh : domain ∉ snap.baseHosts)
      (bounded : snap.baseHosts.keys.length < c.sync.baseHostMax) :
      Accepted hasETLDPlusOne c delta hot now
        { c with
          sync := { c.sync with
            snapshot := some { snap with
              baseHosts := snap.baseHosts.insert domain delta.revision } } }
  | mutation (event : Event) (c' : Client) (event_eq : delta.event = some event)
      (expected : c.sync.expectsMutation delta = true)
      (applied : Applied hasETLDPlusOne c event delta.revision hot now c') :
      Accepted hasETLDPlusOne c delta hot now
        { c' with sync := c'.sync.advance delta.revision delta.cursor }

/-! Each class of frames either is refused with the client as it was, or does what
    `Accepted` says. -/

/-- The begin of a snapshot is refused with nothing changed, or accepted. -/
private theorem snapshotBegin_cases (c : Client) (delta : WatchEvent) (hot : Bool) (now : Time)
    (hev : delta.event = some .snapshotBegin) :
    (∃ e, c.snapshotBegin delta = (some e, c)) ∨
    ∃ c', c.snapshotBegin delta = (none, c') ∧ Accepted hasETLDPlusOne c delta hot now c' := by
  simp only [Client.snapshotBegin]
  by_cases hs : c.sync.snapshot.isSome = true
  · rw [if_pos hs]; exact Or.inl ⟨_, rfl⟩
  · rw [if_neg hs]
    by_cases hd : delta.revision = 0 ∨ delta.cursor ≠ [] ∨ delta.revision < c.sync.revision
    · rw [if_pos hd]; exact Or.inl ⟨_, rfl⟩
    · rw [if_neg hd]
      obtain ⟨h0, hd'⟩ := not_or.mp hd
      obtain ⟨-, hlt⟩ := not_or.mp hd'
      exact Or.inr ⟨_, rfl, .snapshotBegin hev (Option.not_isSome_iff_eq_none.mp hs) h0
        (Nat.le_of_not_lt hlt)⟩

/-- A barrier likewise, whether it ends a snapshot or confirms a position. -/
private theorem barrier_cases (c : Client) (delta : WatchEvent) (hot : Bool) (now : Time)
    (hev : delta.event = some .synchronizationBarrier) :
    (∃ e, c.synchronizationBarrier delta = (some e, c)) ∨
    ∃ c', c.synchronizationBarrier delta = (none, c') ∧
      Accepted hasETLDPlusOne c delta hot now c' := by
  simp only [Client.synchronizationBarrier]
  by_cases h0 : delta.revision = 0 ∨ delta.cursor = []
  · rw [if_pos h0]; exact Or.inl ⟨_, rfl⟩
  · rw [if_neg h0]
    obtain ⟨hrev, hcur⟩ := not_or.mp h0
    -- without a snapshot the barrier only confirms the position
    cases hs : c.sync.snapshot with
    | none =>
        by_cases hne : delta.revision ≠ c.sync.revision ∨ delta.cursor ≠ c.sync.cursor
        · simp only [if_pos hne]; exact Or.inl ⟨_, rfl⟩
        · simp only [if_neg hne]
          obtain ⟨hr, hc⟩ := not_or.mp hne
          exact Or.inr ⟨_, rfl, .resumeBarrier hev hs (not_not.mp hr) hrev (not_not.mp hc) hcur⟩
    | some snap =>
        by_cases hr : delta.revision ≠ snap.revision
        · simp only [if_pos hr]; exact Or.inl ⟨_, rfl⟩
        · by_cases he : snap.expectedCursor ≠ [] ∧ delta.cursor ≠ snap.expectedCursor
          · simp only [if_neg hr, if_pos he]; exact Or.inl ⟨_, rfl⟩
          · by_cases hp : c.sync.revision < snap.revision ∧ snap.previousCursor ≠ [] ∧
                delta.cursor = snap.previousCursor
            · simp only [if_neg hr, if_neg he, if_pos hp]; exact Or.inl ⟨_, rfl⟩
            · simp only [if_neg hr, if_neg he, if_neg hp]
              refine Or.inr ⟨_, rfl, .snapshotBarrier snap hev hs (not_not.mp hr) hrev hcur ?_ ?_⟩
              · by_cases hx : snap.expectedCursor = []
                · exact Or.inl hx
                · exact Or.inr (not_not.mp (fun h => he ⟨hx, h⟩))
              · intro h1 h2 h3
                exact hp ⟨h1, h2, h3⟩

/-- A heartbeat is refused or accepted, and changes nothing in either case. -/
private theorem heartbeat_cases (c : Client) (delta : WatchEvent) (hot : Bool) (now : Time)
    (hev : delta.event = some .heartbeat) :
    (∃ e, c.heartbeat delta = (some e, c)) ∨
    ∃ c', c.heartbeat delta = (none, c') ∧ Accepted hasETLDPlusOne c delta hot now c' := by
  simp only [Client.heartbeat]
  by_cases h : c.sync.snapshot.isSome ∨ delta.revision ≠ c.sync.revision ∨ delta.cursor = [] ∨
      delta.cursor ≠ c.sync.cursor
  · rw [if_pos h]; exact Or.inl ⟨_, rfl⟩
  · rw [if_neg h]; exact Or.inr ⟨c, rfl, .heartbeat hev⟩

/-- An entry of a snapshot likewise. -/
private theorem stageEntry_cases (c : Client) (snap : SnapshotState) (delta : WatchEvent)
    (event : Event) (hot : Bool) (now : Time) (hev : delta.event = some event)
    (hsnap : c.sync.snapshot = some snap) :
    (∃ e, c.stageEntry hasETLDPlusOne snap delta event = (some e, c)) ∨
    ∃ c', c.stageEntry hasETLDPlusOne snap delta event = (none, c') ∧
      Accepted hasETLDPlusOne c delta hot now c' := by
  simp only [Client.stageEntry]
  by_cases h0 : delta.revision = 0 ∨ snap.revision < delta.revision ∨ delta.cursor ≠ []
  · rw [if_pos h0]; exact Or.inl ⟨_, rfl⟩
  · rw [if_neg h0]
    -- a snapshot is made of base hosts, and nothing else is taken
    cases event with
    | baseHost d =>
        cases d with
        | none => exact Or.inl ⟨_, rfl⟩
        | some d =>
            simp only [baseHostDeltaDomain]
            cases hn : Domain.normalizeBaseDomain hasETLDPlusOne d.baseHost with
            | error e => exact Or.inl ⟨_, rfl⟩
            | ok domain =>
                simp only [Option.map_some, Option.getD_some]
                by_cases hr : d.remove = true
                · rw [if_pos hr]; exact Or.inl ⟨_, rfl⟩
                · by_cases hm : domain ∈ snap.baseHosts
                  · rw [if_neg hr, if_pos hm]; exact Or.inl ⟨_, rfl⟩
                  · by_cases hb : c.sync.baseHostMax ≤ snap.baseHosts.keys.length
                    · rw [if_neg hr, if_neg hm, if_pos hb]; exact Or.inl ⟨_, rfl⟩
                    · rw [if_neg hr, if_neg hm, if_neg hb]
                      exact Or.inr ⟨_, rfl, .snapshotEntry snap d domain hev hsnap hn
                        (Bool.eq_false_iff.mpr hr) hm (Nat.lt_of_not_le hb)⟩
    | credentials | vbucket | snapshotBegin | synchronizationBarrier | heartbeat =>
        exact Or.inl ⟨_, rfl⟩

/-- The guard of a mutation as the source tests it, branch by branch. -/
private theorem expectsMutation_of {s : Sync} {delta : WatchEvent} (ha : s.Active)
    (hs : s.snapshot = none) (h0 : ¬ (s.revision = 0 ∨ s.cursor = []))
    (hg : ¬ (delta.revision ≠ s.revision + 1 ∨ delta.cursor = [] ∨ delta.cursor = s.cursor)) :
    s.expectsMutation delta = true := by
  obtain ⟨hr, hc⟩ := not_or.mp h0
  obtain ⟨hnext, hg'⟩ := not_or.mp hg
  obtain ⟨hcur, hne⟩ := not_or.mp hg'
  rcases ha with ha | ha
  · simp [Sync.expectsMutation, ha, hs, hr, hc, not_not.mp hnext, hcur, hne]
  · simp [Sync.expectsMutation, ha, hs, hr, hc, not_not.mp hnext, hcur, hne]

/-- A live mutation is refused, possibly dropping cached entries, or accepted. -/
private theorem mutate_cases (c : Client) (delta : WatchEvent) (event : Event) (hot : Bool)
    (now : Time) (hev : delta.event = some event) (ha : c.sync.Active)
    (hsnap : c.sync.snapshot = none) :
    (∃ e c', c.mutate hasETLDPlusOne delta event hot now = (some e, c') ∧
      Rejected c { c' with sync := c'.sync.fail }) ∨
    ∃ c', c.mutate hasETLDPlusOne delta event hot now = (none, c') ∧
      Accepted hasETLDPlusOne c delta hot now c' := by
  have retired : Rejected c
      { c with sync := (c.sync.transition .disconnected).fail } :=
    ⟨Sync.fail_transition c.sync, rfl, Caches.Within.refl _⟩
  simp only [Client.mutate]
  by_cases h0 : c.sync.revision = 0 ∨ c.sync.cursor = []
  · rw [if_pos h0]; exact Or.inl ⟨_, c, rfl, Rejected.of_eq⟩
  · by_cases hd : delta.revision ≤ c.sync.revision
    · rw [if_neg h0, if_pos hd]; exact Or.inl ⟨_, _, rfl, retired⟩
    · by_cases hg : delta.revision ≠ c.sync.revision + 1 ∨ delta.cursor = [] ∨
          delta.cursor = c.sync.cursor
      · rw [if_neg h0, if_neg hd, if_pos hg]; exact Or.inl ⟨_, _, rfl, retired⟩
      · rw [if_neg h0, if_neg hd, if_neg hg]
        cases hap : c.applyEntity hasETLDPlusOne event delta.revision hot now with
        | mk err c' =>
            cases err with
            | some e =>
                obtain ⟨hsync, hconn, hwithin⟩ := applyEntity_error hap
                refine Or.inl ⟨e, _, rfl, ?_, hconn, hwithin⟩
                show (c'.sync.transition .disconnected).fail = c.sync.fail
                rw [hsync, Sync.fail_transition]
            | none =>
                exact Or.inr ⟨_, rfl, .mutation event c' hev (expectsMutation_of ha hsnap h0 hg)
                  (applyEntity_applied hap)⟩

/-- **FRAME INVERSION**: a frame without event does nothing, and every other frame is
    either refused or accepted while the client is active. -/
theorem watchApply_cases (hasETLDPlusOne : Bytes → Bool) (c : Client) (delta : WatchEvent) (hot : Bool) (now : Time) :
    (delta.event = none ∧
      c.watchApply hasETLDPlusOne delta hot now = (some "empty watch event", c)) ∨
    (∃ e c', c.watchApply hasETLDPlusOne delta hot now = (some e, c') ∧ Rejected c c') ∨
    ∃ c', c.watchApply hasETLDPlusOne delta hot now = (none, c') ∧ c.sync.Active ∧
      Accepted hasETLDPlusOne c delta hot now c' := by
  cases hev : delta.event with
  | none =>
      refine Or.inl ⟨rfl, ?_⟩
      simp only [Client.watchApply, hev]
  | some event =>
      refine Or.inr ?_
      -- it is enough to look at the body: the deferred part turns its errors into refusals
      suffices hbody :
          (∃ e c', c.handleWatch hasETLDPlusOne delta event hot now = (some e, c') ∧
            Rejected c { c' with sync := c'.sync.fail }) ∨
          ∃ c', c.handleWatch hasETLDPlusOne delta event hot now = (none, c') ∧
            c.sync.Active ∧ Accepted hasETLDPlusOne c delta hot now c' by
        rcases hbody with ⟨e, c', he, hr⟩ | ⟨c', he, ha, hacc⟩
        · refine Or.inl ⟨e, _, ?_, hr⟩
          simp only [Client.watchApply, hev, he]
        · refine Or.inr ⟨c', ?_, ha, hacc⟩
          simp only [Client.watchApply, hev, he]
      have unchanged : ∀ {out : Option Message × Client}, (∃ e, out = (some e, c)) ∨
          (∃ c', out = (none, c') ∧ Accepted hasETLDPlusOne c delta hot now c') →
          c.sync.Active →
          (∃ e c', out = (some e, c') ∧ Rejected c { c' with sync := c'.sync.fail }) ∨
          ∃ c', out = (none, c') ∧ c.sync.Active ∧
            Accepted hasETLDPlusOne c delta hot now c' := by
        rintro out (⟨e, he⟩ | ⟨c', he, hacc⟩) ha
        · exact Or.inl ⟨e, c, he, Rejected.of_eq⟩
        · exact Or.inr ⟨c', he, ha, hacc⟩
      simp only [Client.handleWatch]
      by_cases hst : c.sync.state ≠ .ready ∧ c.sync.state ≠ .synchronizing
      · rw [if_pos hst]; exact Or.inl ⟨_, c, rfl, Rejected.of_eq⟩
      · rw [if_neg hst]
        have ha : c.sync.Active := by
          by_cases hr : c.sync.state = .ready
          · exact Or.inl hr
          · exact Or.inr (not_not.mp (fun h => hst ⟨hr, h⟩))
        have entity : (∃ e c',
            (match c.sync.snapshot with
              | some snap => c.stageEntry hasETLDPlusOne snap delta event
              | none => c.mutate hasETLDPlusOne delta event hot now) = (some e, c') ∧
            Rejected c { c' with sync := c'.sync.fail }) ∨
            ∃ c', (match c.sync.snapshot with
              | some snap => c.stageEntry hasETLDPlusOne snap delta event
              | none => c.mutate hasETLDPlusOne delta event hot now) = (none, c') ∧
            c.sync.Active ∧ Accepted hasETLDPlusOne c delta hot now c' := by
          cases hs : c.sync.snapshot with
          | some snap => exact unchanged (stageEntry_cases c snap delta event hot now hev hs) ha
          | none =>
              rcases mutate_cases c delta event hot now hev ha hs with h | ⟨c', he, hacc⟩
              · exact Or.inl h
              · exact Or.inr ⟨c', he, ha, hacc⟩
        cases event with
        | snapshotBegin => exact unchanged (snapshotBegin_cases c delta hot now hev) ha
        | synchronizationBarrier => exact unchanged (barrier_cases c delta hot now hev) ha
        | heartbeat => exact unchanged (heartbeat_cases c delta hot now hev) ha
        | credentials | vbucket | baseHost => exact entity

end

end ControlPlane
