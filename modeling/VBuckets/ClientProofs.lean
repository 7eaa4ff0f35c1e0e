import VBuckets.LocalCacheProofs
import VBuckets.DomainProofs
import VBuckets.IamProofs
import VBuckets.MappingProofs

/-! # The control-plane client — state and transitions

    `Client` of `controlplane/client.go`.  `Sync` holds the fields `syncMu` guards,
    with the one-slot `resync` channel; `connected` says whether a transport client is
    installed.  Revisions and epochs are natural numbers: a revision is only ever
    replaced by a larger one the peer sent, and the epoch counts departures from Ready.

    The credential and the vbucket side are the same code over different keys and
    values; a `Lane` names the side. -/

namespace ControlPlane

open ByteString LocalCache Mapping

/-! ## Lanes -/

/-- `VirtualCredentials`; a stored policy is never nil. -/
structure VirtualCredentials where
  secretKey : Bytes
  iamPolicy : Iam.Policy
  deriving DecidableEq

/-- The two kinds of entries that are looked up one at a time and cached.  Base
    domains are not: the client has all of them. -/
inductive Lane where
  | credentials | vbuckets
  deriving DecidableEq

/-- What a lane stores: the credentials of an access key, or the mapping of a bucket.
    Both lanes run the same code, so the model states it once. -/
abbrev Lane.Value : Lane → Type
  | .credentials => VirtualCredentials
  | .vbuckets => VBucketConfig

/-- What a lane is asked for: an access key, or an access key and a bucket name. -/
abbrev Lane.Key : Lane → Type
  | .credentials => Bytes
  | .vbuckets => Bytes × Bytes

/-- Access key, slash, bucket name.  Without a slash in the access key it determines both
    parts, and the pattern requests are checked against allows none there. -/
def vbucketCacheKey (accessKeyID bucketName : Bytes) : Bytes :=
  accessKeyID ++ ascii "/" ++ bucketName

/-- The key of a lane's cache. -/
def Lane.cacheKey : (l : Lane) → l.Key → Bytes
  | .credentials, accessKeyID => accessKeyID
  | .vbuckets, (accessKeyID, bucketName) => vbucketCacheKey accessKeyID bucketName

/-- `cachedCredentials` and `cachedVBucket`.  An entry without value is a negative one:
    the control plane has said that there is nothing under the key.  The revision is
    the one it was said at. -/
structure Cached (V : Type) where
  value : Option V
  revision : Nat
  ttl : Time

/-- The two caches of the client. -/
structure Caches where
  credentials : Cache Bytes (Cached VirtualCredentials)
  vbuckets : Cache Bytes (Cached VBucketConfig)

/-- The cache of a lane. -/
def Caches.lane (c : Caches) : (l : Lane) → Cache Bytes (Cached l.Value)
  | .credentials => c.credentials
  | .vbuckets => c.vbuckets

/-- Replaces the cache of a lane. -/
def Caches.setLane (c : Caches) : (l : Lane) → Cache Bytes (Cached l.Value) → Caches
  | .credentials, d => { c with credentials := d }
  | .vbuckets, d => { c with vbuckets := d }

@[simp] theorem Caches.lane_setLane (c : Caches) (l : Lane) (d : Cache Bytes (Cached l.Value)) :
    (c.setLane l d).lane l = d := by
  cases l with
  | credentials | vbuckets => rfl

/-- The lanes do not share entries. -/
theorem Caches.lane_setLane_ne (c : Caches) {l l' : Lane} (d : Cache Bytes (Cached l.Value))
    (h : l' ≠ l) : (c.setLane l d).lane l' = c.lane l' := by
  cases l with
  | credentials =>
      cases l' with
      | credentials => exact absurd rfl h
      | vbuckets => rfl
  | vbuckets =>
      cases l' with
      | credentials => rfl
      | vbuckets => exact absurd rfl h

/-- A lane's cache has this entry, expired or not. -/
def Caches.Holds (c : Caches) (l : Lane) (key : Bytes) (e : Cached l.Value) : Prop :=
  (c.lane l).Holds key e

/-- Everything `c` holds, `d` holds. -/
def Caches.Within (c d : Caches) : Prop :=
  ∀ l key e, c.Holds l key e → d.Holds l key e

/-- Every cache holds what it holds. -/
theorem Caches.Within.refl (c : Caches) : c.Within c := fun _ _ _ h => h

/-- Removal upon removal: what is left was there at the start. -/
theorem Caches.Within.trans {a b c : Caches} (hab : a.Within b) (hbc : b.Within c) :
    a.Within c :=
  fun l key e h => hbc l key e (hab l key e h)

/-- A lane replaced by one that holds less. -/
theorem Caches.setLane_within {c : Caches} {l : Lane} {d : Cache Bytes (Cached l.Value)}
    (h : ∀ key e, d.Holds key e → (c.lane l).Holds key e) : (c.setLane l d).Within c := by
  intro l' key e he
  by_cases hl : l' = l
  · subst hl
    refine h key e ?_
    have he' : ((c.setLane l' d).lane l').Holds key e := he
    rw [Caches.lane_setLane] at he'
    exact he'
  · have he' : ((c.setLane l d).lane l').Holds key e := he
    rw [Caches.lane_setLane_ne c d hl] at he'
    exact he'

/-! ## The synchronisation state -/

/-- `State`, under the names of its constants.  Lookups are answered in `ready` only;
    frames are taken in `ready` and `synchronizing`. -/
inductive State where
  | startup | connecting | synchronizing | ready | disconnected | shutdown
  deriving DecidableEq

/-- A snapshot between its begin and its barrier.  Only base domains are collected;
    the caches were emptied at its begin. -/
structure SnapshotState where
  revision : Nat
  expectedCursor : Bytes
  previousCursor : Bytes
  baseHosts : Domain.Registry

/-- The fields that `mu` protects and that decide what the client answers.  The time
    of the last transition is left out. -/
structure Sync where
  state : State
  revision : Nat
  cursor : Bytes
  epoch : Nat
  snapshot : Option SnapshotState
  requiredRevision : Nat
  baseHosts : Domain.Registry
  baseHostMax : Nat
  barrierRequired : Bool
  resync : Bool

/-- The fields under `syncMu`, whether a transport is installed, and the caches.  The pending
    loads are part of the state of the system, since goroutines share them. -/
structure Client where
  sync : Sync
  connected : Bool
  caches : Caches

/-- The client with one lane's cache replaced. -/
def Client.withLane (c : Client) (l : Lane) (d : Cache Bytes (Cached l.Value)) : Client :=
  { c with caches := c.caches.setLane l d }

/-- The configured bounds of the caches and of the registry. -/
structure Limits where
  maxCredentials : Nat
  maxVBuckets : Nat
  maxBaseHosts : Nat

/-- Both caches start empty, each with its own bound. -/
def newCaches (lim : Limits) : Caches where
  credentials := newLocalCache lim.maxCredentials
  vbuckets := newLocalCache lim.maxVBuckets

/-- `NewClientWithOptions`: nothing is known, and the first stream has to bring a
    barrier. -/
def newClient (lim : Limits) : Client where
  sync :=
    { state := .startup
      revision := 0
      cursor := []
      epoch := 0
      snapshot := none
      requiredRevision := 0
      baseHosts := ∅
      baseHostMax := lim.maxBaseHosts
      barrierRequired := true
      resync := false }
  connected := false
  caches := newCaches lim

/-- An empty cache holds nothing. -/
theorem newCaches_holds {lim : Limits} {l : Lane} {key : Bytes} {e : Cached l.Value}
    (h : (newCaches lim).Holds l key e) : False := by
  cases l with
  | credentials | vbuckets => exact newLocalCache_holds h

/-! ## Transitions -/

/-- `transitionLocked`: Shutdown is final, and leaving Ready retires the epoch.
    Whoever remembers revision and epoch can tell later whether the client has been
    Ready throughout. -/
def Sync.transition (s : Sync) (state : State) : Sync :=
  if s.state = .shutdown ∧ state ≠ .shutdown then s
  else if s.state ≠ state then
    { s with
      epoch := if s.state = .ready ∧ state ≠ .ready then s.epoch + 1 else s.epoch
      state := state }
  else s

/-- What a transition comes to, whichever branch it takes. -/
theorem Sync.transition_eq (s : Sync) (state : State) :
    s.transition state =
      { s with
        state := if s.state = .shutdown then .shutdown else state
        epoch := if s.state = .ready ∧ state ≠ .ready then s.epoch + 1 else s.epoch } := by
  -- a finite table: every pair of a present and a requested state
  obtain ⟨present, _, _, _, _, _, _, _, _, _⟩ := s
  cases present <;> cases state <;> rfl

section
variable (s : Sync) (state : State)

@[simp] theorem Sync.transition_state :
    (s.transition state).state = if s.state = .shutdown then .shutdown else state := by
  rw [transition_eq]

@[simp] theorem Sync.transition_epoch :
    (s.transition state).epoch =
      if s.state = .ready ∧ state ≠ .ready then s.epoch + 1 else s.epoch := by
  rw [transition_eq]

@[simp] theorem Sync.transition_revision : (s.transition state).revision = s.revision := by
  rw [transition_eq]

@[simp] theorem Sync.transition_cursor : (s.transition state).cursor = s.cursor := by
  rw [transition_eq]

@[simp] theorem Sync.transition_snapshot : (s.transition state).snapshot = s.snapshot := by
  rw [transition_eq]

@[simp] theorem Sync.transition_requiredRevision :
    (s.transition state).requiredRevision = s.requiredRevision := by
  rw [transition_eq]

@[simp] theorem Sync.transition_baseHosts : (s.transition state).baseHosts = s.baseHosts := by
  rw [transition_eq]

@[simp] theorem Sync.transition_baseHostMax :
    (s.transition state).baseHostMax = s.baseHostMax := by
  rw [transition_eq]

@[simp] theorem Sync.transition_barrierRequired :
    (s.transition state).barrierRequired = s.barrierRequired := by
  rw [transition_eq]

@[simp] theorem Sync.transition_resync : (s.transition state).resync = s.resync := by
  rw [transition_eq]

end

/-- `requestResyncLocked`: the client stops being Ready at once, needs a barrier before
    it is Ready again, and the loop of `connect` is told to give its stream up. -/
def Sync.requestResync (s : Sync) : Sync :=
  if s.state = .shutdown then s
  else { Sync.transition { s with barrierRequired := true } .disconnected with resync := true }

/-- `markUnsynchronized`; also the body of `markDisconnected`.  A snapshot that was
    being staged is thrown away and a barrier is required. -/
def Sync.markUnsynchronized (s : Sync) (state : State) : Sync :=
  { s.transition state with snapshot := none, barrierRequired := true }

/-- The deferred part of `processWatch` when it returns an error: the client fails
    closed, and only another stream brings it back. -/
def Sync.fail (s : Sync) : Sync :=
  Sync.transition { s with barrierRequired := true } .disconnected

/-- `checkUnaryRevision` on the fields it may change.  A response from the past means
    that the control plane has gone back, so everything is fetched again; one from the
    future means that the watch lags behind, so the client waits until it has caught
    up. -/
def Sync.checkUnaryRevision (s : Sync) (revision expected : Nat) : Sync :=
  if revision = expected then s
  else if s.state = .shutdown then s
  else if revision < expected then s.requestResync
  else if s.revision < revision then
    let s' := { s with requiredRevision := max s.requiredRevision revision }
    if s.state = .ready then s'.transition .synchronizing else s'
  else s

/-- The last section of `CreateVBucket`: `response` is the committed revision, absent
    when the response itself is, and `revision` the one the call started from. -/
def Sync.commitCreate (s : Sync) (response : Option Nat) (revision : Nat) : Bool × Sync :=
  match response with
  | none => (false, s.requestResync)
  | some committed =>
      if committed = 0 ∨ committed ≤ revision then (false, s.requestResync)
      else if s.state = .shutdown then (true, s)
      else if s.revision < committed then
        let s' := { s with requiredRevision := max s.requiredRevision committed }
        if s.state = .ready ∨ s.state = .synchronizing then (true, s'.transition .synchronizing)
        else (true, s')
      else (true, s)

end ControlPlane
