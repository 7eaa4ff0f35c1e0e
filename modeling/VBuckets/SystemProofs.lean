import VBuckets.LookupProofs
import Mathlib.Logic.Function.Basic

/-! # The control-plane client as a concurrent system

    Callers, their loaders and the `Run` goroutine interleave over one client.  `Run`
    (`controlplane/watch.go`) is the environment: its program counter says how far
    `connect` has got, and its moves are the steps between which other goroutines can
    run.  While it handles a frame it holds `syncMu`; operations that need the lock wait.

    The inversion lemmas `exec_spec`, `exec_loads` and `move_cases` say everything a step
    can do to the client and to the loads. -/

namespace ControlPlane

open ByteString LocalCache LoadGroup Interleaving

/-! ## State -/

/-- An open watch stream: the request that opened it and the frames handled so far. -/
structure Stream where
  resumeCursor : Bytes
  afterRevision : Nat
  received : List WatchEvent

/-- Where `Run` is. -/
inductive RunPc where
  /-- at the head of the loop of `Run` -/
  | idle
  /-- `markUnsynchronized(StateConnecting)` is done -/
  | connecting
  /-- a stale resync signal has been discarded -/
  | dialing
  /-- the transport client is installed -/
  | installed
  /-- in the select loop of `connect` -/
  | streaming (st : Stream)
  /-- inside `processWatch`, holding `syncMu`; `hot` is what it read of the cache -/
  | processing (st : Stream) (delta : WatchEvent) (hot : Bool)
  /-- `connect` is about to return -/
  | closing
  /-- `markDisconnected` is done -/
  | disconnected
  /-- `Run` has returned -/
  | stopped

/-- What a load leaves for its waiters. -/
abbrev LoadResult (l : Lane) := Except LookupError (Cached l.Value)

/-- What all goroutines share: the client, the place of its run loop, and the loads in
    each lane. -/
structure SystemState where
  client : Client
  run : RunPc
  loads : (l : Lane) → Loads (LoadResult l)

/-- The client has just been made and its loop has not been started. -/
def SystemState.init (lim : Limits) : SystemState where
  client := newClient lim
  run := .idle
  loads := fun _ => Loads.empty

/-- `syncMu` is held by the goroutine that handles a frame.  Callers hold the lock for
    one operation only, so for them it needs no state. -/
def SystemState.locked (s : SystemState) : Bool :=
  match s.run with
  | .processing _ _ _ => true
  | _ => false

/-- Replaces the synchronization state. -/
def SystemState.setSync (s : SystemState) (sync : Sync) : SystemState :=
  { s with client := { s.client with sync := sync } }

/-! ## Operations -/

/-- What the scheduler, the clock and the peer contribute to an operation. -/
structure Choice where
  readAt : Time
  rereadAt : Time
  setAt : Time
  admitted : Bool
  canceled : Bool
  lookupResponse : (l : Lane) → Except Code (Option l.Response)
  createResponse : Except Code (Option Nat)
  listResponse : Except Code (Option ListVBucketsResponse)

/-- The view a call starts from; it takes a ready and connected client. -/
def Client.lookupSnapshot (c : Client) : Except LookupError (Nat × Nat) :=
  if c.sync.state ≠ .ready then .error .unsynchronized
  else if !c.connected then .error .notConnected
  else .ok (c.sync.revision, c.sync.epoch)

/-- The client is Ready at this revision and in this epoch.  Since leaving Ready retires the
    epoch, it has been Ready all along. -/
def Client.stillCurrent (c : Client) (revision epoch : Nat) : Bool :=
  c.sync.state = .ready && c.sync.revision = revision && c.sync.epoch = epoch

/-- Base domains are looked up in the registry itself, which has all of them. -/
def Client.lookupBaseHost (c : Client) (hostname : Bytes) :
    Except Domain.HostError (Option Bytes) :=
  if c.sync.state ≠ .ready then .error .unsynchronized
  else Domain.lookupBaseHost (fun d => d ∈ c.sync.baseHosts) hostname

section
variable (deps : Deps) {α : Type}

/-- Operations that take `syncMu` wait while a frame is being handled. -/
def exec (o : Op) (x : Choice) (s : SystemState) :
    Option (o.Res × SystemState × List (Program (Option α))) :=
  match o with
  | .lookupSnapshot => if s.locked then none else some (s.client.lookupSnapshot, s, [])
  | .stillCurrent revision epoch =>
      if s.locked then none else some (s.client.stillCurrent revision epoch, s, [])
  | .ready => if s.locked then none else some (s.client.sync.state = .ready, s, [])
  | .lookupBaseHost hostname =>
      if s.locked then none else some (s.client.lookupBaseHost hostname, s, [])
  | .getIfPresent l key =>
      let read := (s.client.caches.lane l).getIfPresent key x.readAt
      some (read.1, { s with client := s.client.withLane l read.2 }, [])
  | .startLoad l key revision epoch =>
      match (s.loads l).join (l.cacheKey key) with
      | some call => some (.ok call, s, [])
      | none =>
          if !x.admitted then some (.error .missRejected, s, [])
          else
            let started := (s.loads l).start (l.cacheKey key)
            some (.ok started.1, { s with loads := Function.update s.loads l started.2 },
              [(loader deps l key started.1 revision epoch).bind (fun _ => .ret none)])
  | .await l call =>
      if x.canceled then some (.error .canceled, s, [])
      else
        match (s.loads l).received call with
        | some result => some (result, s, [])
        | none => none
  | .rpcLookup l _ _ => some (x.lookupResponse l, s, [])
  | .checkUnaryRevision revision expected =>
      if revision = expected then some (true, s, [])
      else if s.locked then none
      else some (false, s.setSync (s.client.sync.checkUnaryRevision revision expected), [])
  | .install l key revision epoch candidate =>
      if s.locked then none
      else
        let out := s.client.install l (l.cacheKey key) revision epoch candidate x.readAt
          x.rereadAt x.setAt
        some (out.1, { s with client := out.2 }, [])
  | .publish l call result =>
      some ((), { s with loads := Function.update s.loads l ((s.loads l).publish call result) },
        [])
  | .close l call =>
      some ((), { s with loads := Function.update s.loads l ((s.loads l).close call) }, [])
  | .rpcCreate _ _ _ _ => some (x.createResponse, s, [])
  | .commitCreate response revision =>
      if s.locked then none
      else
        let out := s.client.sync.commitCreate response revision
        some (out.1, s.setSync out.2, [])
  | .rpcList _ _ => some (x.listResponse, s, [])
  | .requestResync => if s.locked then none else some ((), s.setSync s.client.sync.requestResync, [])
  | .now => some (x.readAt, s, [])

/-! ## Moves of `Run` -/

/-- The steps of the run loop and of the peer.  A peer may send any frame at any time;
    what a conforming one sends is a guard on these steps. -/
inductive Env where
  | connect
  | drainResync
  | dialFailed
  | installTransport
  | openWatch
  | receive (delta : WatchEvent) (now : Time)
  | apply (now : Time)
  | resyncSignal
  | hangUp
  | markDisconnected
  | dropTransport
  | stop

/-- One such step, where it is possible.  A frame is handled in two steps, between
    which operations that need no lock may come. -/
def move (e : Env) (s : SystemState) : Option SystemState :=
  match e, s.run with
  | .connect, .idle =>
      some { s.setSync (s.client.sync.markUnsynchronized .connecting) with run := .connecting }
  | .drainResync, .connecting =>
      some { s.setSync { s.client.sync with resync := false } with run := .dialing }
  | .dialFailed, .dialing => some { s with run := .closing }
  | .installTransport, .dialing =>
      some { s with client := { s.client with connected := true }, run := .installed }
  | .openWatch, .installed =>
      some { s.setSync (s.client.sync.transition .synchronizing) with
        run := .streaming ⟨s.client.sync.cursor, s.client.sync.revision, []⟩ }
  | .receive delta now, .streaming st =>
      let read := s.client.watchRead delta now
      some { s with client := read.2, run := .processing st delta read.1 }
  | .apply now, .processing st delta hot =>
      match s.client.watchApply deps.hasETLDPlusOne delta hot now with
      | (none, c) =>
          some { s with
            client := c
            run := .streaming { st with received := st.received ++ [delta] } }
      | (some _, c) => some { s with client := c, run := .closing }
  | .resyncSignal, .streaming _ =>
      if s.client.sync.resync then
        some { s.setSync { s.client.sync with resync := false } with run := .closing }
      else none
  | .hangUp, .streaming _ => some { s with run := .closing }
  | .markDisconnected, .closing =>
      some { s.setSync (s.client.sync.markUnsynchronized .disconnected) with
        run := .disconnected }
  | .dropTransport, .disconnected =>
      some { s with client := { s.client with connected := false }, run := .idle }
  | .stop, .idle =>
      some { s.setSync (s.client.sync.markUnsynchronized .shutdown) with run := .stopped }
  | _, _ => none

/-- The system: any number of callers beside the loop of the client.  Steps of the loop
    are moves of the environment; jobs are programs that use the client. -/
def machine (α : Type) : Machine sig (Option α) where
  State := SystemState
  Choice := Choice
  Env := Env
  Job := Caller α
  body := fun j => (interpret j).bind (fun a => .ret (some a))
  exec := exec deps
  move := move deps

end

/-! ## What an operation can do -/

/-- The changes operations make to the synchronisation state. -/
inductive UnaryStep (s : Sync) : Sync → Prop where
  | same : UnaryStep s s
  | requestResync : UnaryStep s s.requestResync
  | checkUnaryRevision (revision expected : Nat) :
      UnaryStep s (s.checkUnaryRevision revision expected)
  | commitCreate (response : Option Nat) (revision : Nat) :
      UnaryStep s (s.commitCreate response revision).2

/-- What any operation can do to the client: the loop and the connection stay, and a
    cache gains an entry only by an installation, by a ready client and at its own
    revision. -/
structure OpStep (o : Op) (s s' : SystemState) : Prop where
  run_eq : s'.run = s.run
  connected_eq : s'.client.connected = s.client.connected
  sync : UnaryStep s.client.sync s'.client.sync
  locked : s.locked = true → s'.client.sync = s.client.sync
  caches : ∀ l k (e : Cached l.Value), s'.client.caches.Holds l k e →
    s.client.caches.Holds l k e ∨
    ∃ key revision epoch, o = .install l key revision epoch e ∧ k = l.cacheKey key ∧
      s.locked = false ∧ s.client.sync.state = .ready ∧
      e.revision = s.client.sync.revision ∧ s'.client.sync = s.client.sync

section
variable {o : Op} {s s' : SystemState}

/-- An operation that leaves the client alone. -/
private theorem OpStep.of_client_eq (hrun : s'.run = s.run) (hc : s'.client = s.client) :
    OpStep o s s' := by
  refine ⟨hrun, by rw [hc], ?_, ?_, ?_⟩
  · rw [hc]; exact .same
  · intro _; rw [hc]
  · intro l k e h
    rw [hc] at h
    exact Or.inl h

/-- An operation under the lock that changes the synchronisation state only. -/
private theorem OpStep.of_sync {sync : Sync} (hl : ¬ s.locked = true)
    (hu : UnaryStep s.client.sync sync) : OpStep o s (s.setSync sync) := by
  refine ⟨rfl, rfl, hu, ?_, ?_⟩
  · intro h; exact absurd h hl
  · intro l k e h; exact Or.inl h

/-- The last section of a loader is an operation step. -/
private theorem OpStep.of_install {l : Lane} {key : l.Key} {revision epoch : Nat}
    {candidate : Cached l.Value} {out : Except LookupError (Cached l.Value) × Client}
    (hl : ¬ s.locked = true)
    (hi : Installed s.client l (l.cacheKey key) candidate out) :
    OpStep (.install l key revision epoch candidate) s { s with client := out.2 } := by
  refine ⟨rfl, hi.connected, ?_, ?_, ?_⟩
  · show UnaryStep s.client.sync out.2.sync
    rcases hi.sync with h | h
    · rw [h]; exact .same
    · rw [h]; exact .requestResync
  · intro h; exact absurd h hl
  · intro l' k e he
    rcases hi.caches with hw | ⟨hready, hrev, hsync, hother, hgain⟩
    · exact Or.inl (hw l' k e he)
    · by_cases hll : l' = l
      · subst hll
        rcases hgain k e he with hold | ⟨hk, hv⟩
        · exact Or.inl hold
        · subst hv
          exact Or.inr ⟨key, revision, epoch, rfl, hk, Bool.eq_false_iff.mpr hl, hready, hrev,
            hsync⟩
      · refine Or.inl ?_
        have he' : (out.2.caches.lane l').Holds k e := he
        rw [hother l' hll] at he'
        exact he'

end

/-- The answer of an operation that needs the lock is given while the lock is free. -/
theorem of_unlocked {β : Type} {s : SystemState} {v w : β}
    (h : (if s.locked = true then none else some v) = some w) :
    ¬ s.locked = true ∧ v = w := by
  by_cases hl : s.locked = true
  · rw [if_pos hl] at h; exact nomatch h
  · rw [if_neg hl] at h; exact ⟨hl, Option.some.inj h⟩

/-- **OPERATION INVERSION**. -/
theorem exec_spec {deps : Deps} {α : Type} {o : Op} {x : Choice} {s s' : SystemState}
    {r : o.Res} {new : List (Program (Option α))}
    (h : exec deps o x s = some (r, s', new)) : OpStep o s s' := by
  have same : ∀ {r₀ : o.Res} {new₀ : List (Program (Option α))},
      (r₀, s, new₀) = (r, s', new) → OpStep o s s' := by
    intro r₀ new₀ he
    have hs : s = s' := congrArg (fun p => p.2.1) he
    exact OpStep.of_client_eq (by rw [hs]) (by rw [hs])
  cases o with
  | lookupSnapshot | stillCurrent | ready | lookupBaseHost => exact same (of_unlocked h).2
  | getIfPresent l key =>
      have hs := congrArg (fun p => p.2.1) (Option.some.inj h)
      subst hs
      refine ⟨rfl, rfl, .same, fun _ => rfl, ?_⟩
      intro l' k e he
      exact Or.inl (s.client.readLane_within l key x.readAt l' k e he)
  | startLoad l key revision epoch =>
      simp only [exec] at h
      cases hj : (s.loads l).join (l.cacheKey key) with
      | some call =>
          rw [hj] at h
          exact same (Option.some.inj h)
      | none =>
          simp only [hj] at h
          by_cases ha : (!x.admitted) = true
          · rw [if_pos ha] at h
            exact same (Option.some.inj h)
          · rw [if_neg ha] at h
            have hs := congrArg (fun p => p.2.1) (Option.some.inj h)
            subst hs
            exact OpStep.of_client_eq rfl rfl
  | await l call =>
      simp only [exec] at h
      by_cases hc : x.canceled = true
      · rw [if_pos hc] at h
        exact same (Option.some.inj h)
      · rw [if_neg hc] at h
        cases hr : (s.loads l).received call with
        | none => rw [hr] at h; exact nomatch h
        | some result => rw [hr] at h; exact same (Option.some.inj h)
  | rpcLookup l key minimum => exact same (Option.some.inj h)
  | checkUnaryRevision revision expected =>
      simp only [exec] at h
      by_cases he : revision = expected
      · rw [if_pos he] at h
        exact same (Option.some.inj h)
      · rw [if_neg he] at h
        obtain ⟨hl, hv⟩ := of_unlocked h
        have hs := congrArg (fun p => p.2.1) hv
        subst hs
        exact OpStep.of_sync hl (.checkUnaryRevision revision expected)
  | install l key revision epoch candidate =>
      obtain ⟨hl, hv⟩ := of_unlocked h
      have hs := congrArg (fun p => p.2.1) hv
      subst hs
      exact OpStep.of_install hl (install_spec s.client l (l.cacheKey key) revision epoch
        candidate x.readAt x.rereadAt x.setAt)
  | publish | close =>
      have hs := congrArg (fun p => p.2.1) (Option.some.inj h)
      subst hs
      exact OpStep.of_client_eq rfl rfl
  | rpcCreate accessKeyID bucketName locationConstraint minimum =>
      exact same (Option.some.inj h)
  | commitCreate response revision =>
      obtain ⟨hl, hv⟩ := of_unlocked h
      have hs := congrArg (fun p => p.2.1) hv
      subst hs
      exact OpStep.of_sync hl (.commitCreate response revision)
  | rpcList accessKeyID minimum => exact same (Option.some.inj h)
  | requestResync =>
      obtain ⟨hl, hv⟩ := of_unlocked h
      have hs := congrArg (fun p => p.2.1) hv
      subst hs
      exact OpStep.of_sync hl .requestResync
  | now => exact same (Option.some.inj h)

/-- What any operation can do to the loads, and which goroutines it starts. -/
inductive LoadsStep (deps : Deps) {α : Type} (o : Op) (s s' : SystemState)
    (new : List (Program (Option α))) : Prop where
  | same (loads_eq : s'.loads = s.loads) (new_eq : new = []) : LoadsStep deps o s s' new
  | start (l : Lane) (key : l.Key) (revision epoch : Nat)
      (op_eq : o = .startLoad l key revision epoch)
      (loads_eq : s'.loads =
        Function.update s.loads l ((s.loads l).start (l.cacheKey key)).2)
      (new_eq : new = [(loader deps l key ((s.loads l).start (l.cacheKey key)).1 revision
        epoch).bind (fun _ => .ret none)]) : LoadsStep deps o s s' new
  | publish (l : Lane) (call : Nat) (result : LoadResult l)
      (op_eq : o = .publish l call result)
      (loads_eq : s'.loads = Function.update s.loads l ((s.loads l).publish call result))
      (new_eq : new = []) : LoadsStep deps o s s' new
  | close (l : Lane) (call : Nat) (op_eq : o = .close l call)
      (loads_eq : s'.loads = Function.update s.loads l ((s.loads l).close call))
      (new_eq : new = []) : LoadsStep deps o s s' new

/-- **LOADS INVERSION**. -/
theorem exec_loads {deps : Deps} {α : Type} {o : Op} {x : Choice} {s s' : SystemState}
    {r : o.Res} {new : List (Program (Option α))}
    (h : exec deps o x s = some (r, s', new)) : LoadsStep deps o s s' new := by
  have same : ∀ {r₀ : o.Res} {s₀ : SystemState}, (r₀, s₀, []) = (r, s', new) →
      s₀.loads = s.loads → LoadsStep deps o s s' new := by
    intro r₀ s₀ he hs
    cases he
    exact .same hs rfl
  cases o with
  | lookupSnapshot | stillCurrent | ready | lookupBaseHost => exact same (of_unlocked h).2 rfl
  | getIfPresent l key => exact same (Option.some.inj h) rfl
  | startLoad l key revision epoch =>
      simp only [exec] at h
      cases hj : (s.loads l).join (l.cacheKey key) with
      | some call => rw [hj] at h; exact same (Option.some.inj h) rfl
      | none =>
          simp only [hj] at h
          by_cases ha : (!x.admitted) = true
          · rw [if_pos ha] at h; exact same (Option.some.inj h) rfl
          · rw [if_neg ha] at h
            cases Option.some.inj h
            exact .start l key revision epoch rfl rfl rfl
  | await l call =>
      simp only [exec] at h
      by_cases hc : x.canceled = true
      · rw [if_pos hc] at h; exact same (Option.some.inj h) rfl
      · rw [if_neg hc] at h
        cases hr : (s.loads l).received call with
        | none => rw [hr] at h; exact nomatch h
        | some result => rw [hr] at h; exact same (Option.some.inj h) rfl
  | rpcLookup l key minimum => exact same (Option.some.inj h) rfl
  | checkUnaryRevision revision expected =>
      simp only [exec] at h
      by_cases he : revision = expected
      · rw [if_pos he] at h; exact same (Option.some.inj h) rfl
      · rw [if_neg he] at h; exact same (of_unlocked h).2 rfl
  | install l key revision epoch candidate => exact same (of_unlocked h).2 rfl
  | publish l call result =>
      cases Option.some.inj h
      exact .publish l call result rfl rfl rfl
  | close l call =>
      cases Option.some.inj h
      exact .close l call rfl rfl rfl
  | rpcCreate accessKeyID bucketName locationConstraint minimum =>
      exact same (Option.some.inj h) rfl
  | commitCreate response revision => exact same (of_unlocked h).2 rfl
  | rpcList accessKeyID minimum => exact same (Option.some.inj h) rfl
  | requestResync => exact same (of_unlocked h).2 rfl
  | now => exact same (Option.some.inj h) rfl

/-! ## What a move of `Run` can do -/

/-- A move and the state it leaves. -/
inductive Moved (deps : Deps) (s : SystemState) : Env → SystemState → Prop where
  | connect (run_eq : s.run = .idle) :
      Moved deps s .connect
        { s.setSync (s.client.sync.markUnsynchronized .connecting) with run := .connecting }
  | drainResync (run_eq : s.run = .connecting) :
      Moved deps s .drainResync
        { s.setSync { s.client.sync with resync := false } with run := .dialing }
  | dialFailed (run_eq : s.run = .dialing) :
      Moved deps s .dialFailed { s with run := .closing }
  | installTransport (run_eq : s.run = .dialing) :
      Moved deps s .installTransport
        { s with client := { s.client with connected := true }, run := .installed }
  | openWatch (run_eq : s.run = .installed) :
      Moved deps s .openWatch
        { s.setSync (s.client.sync.transition .synchronizing) with
          run := .streaming ⟨s.client.sync.cursor, s.client.sync.revision, []⟩ }
  | receive (st : Stream) (delta : WatchEvent) (now : Time) (run_eq : s.run = .streaming st) :
      Moved deps s (.receive delta now)
        { s with
          client := (s.client.watchRead delta now).2
          run := .processing st delta (s.client.watchRead delta now).1 }
  | ignored (st : Stream) (delta : WatchEvent) (hot : Bool) (now : Time)
      (run_eq : s.run = .processing st delta hot) (event_eq : delta.event = none) :
      Moved deps s (.apply now) { s with run := .closing }
  | rejected (st : Stream) (delta : WatchEvent) (hot : Bool) (now : Time) (c : Client)
      (run_eq : s.run = .processing st delta hot) (rejected : Rejected s.client c) :
      Moved deps s (.apply now) { s with client := c, run := .closing }
  | accepted (st : Stream) (delta : WatchEvent) (hot : Bool) (now : Time) (c : Client)
      (run_eq : s.run = .processing st delta hot) (active : s.client.sync.Active)
      (accepted : Accepted deps.hasETLDPlusOne s.client delta hot now c)
      (answer : s.client.watchApply deps.hasETLDPlusOne delta hot now = (none, c)) :
      Moved deps s (.apply now)
        { s with client := c, run := .streaming { st with received := st.received ++ [delta] } }
  | resyncSignal (st : Stream) (run_eq : s.run = .streaming st) :
      Moved deps s .resyncSignal
        { s.setSync { s.client.sync with resync := false } with run := .closing }
  | hangUp (st : Stream) (run_eq : s.run = .streaming st) :
      Moved deps s .hangUp { s with run := .closing }
  | markDisconnected (run_eq : s.run = .closing) :
      Moved deps s .markDisconnected
        { s.setSync (s.client.sync.markUnsynchronized .disconnected) with
          run := .disconnected }
  | dropTransport (run_eq : s.run = .disconnected) :
      Moved deps s .dropTransport
        { s with client := { s.client with connected := false }, run := .idle }
  | stop (run_eq : s.run = .idle) :
      Moved deps s .stop
        { s.setSync (s.client.sync.markUnsynchronized .shutdown) with run := .stopped }

/-- **MOVE INVERSION**. -/
theorem move_cases {deps : Deps} {e : Env} {s s' : SystemState}
    (h : move deps e s = some s') : Moved deps s e s' := by
  cases hr : s.run with
  | idle =>
      cases e with
      | connect => simp only [move, hr] at h; cases h; exact .connect hr
      | stop => simp only [move, hr] at h; cases h; exact .stop hr
      | _ => simp only [move, hr] at h; exact nomatch h
  | connecting =>
      cases e with
      | drainResync => simp only [move, hr] at h; cases h; exact .drainResync hr
      | _ => simp only [move, hr] at h; exact nomatch h
  | dialing =>
      cases e with
      | dialFailed => simp only [move, hr] at h; cases h; exact .dialFailed hr
      | installTransport => simp only [move, hr] at h; cases h; exact .installTransport hr
      | _ => simp only [move, hr] at h; exact nomatch h
  | installed =>
      cases e with
      | openWatch => simp only [move, hr] at h; cases h; exact .openWatch hr
      | _ => simp only [move, hr] at h; exact nomatch h
  | streaming st =>
      cases e with
      | receive delta now =>
          simp only [move, hr] at h; cases h; exact .receive st delta now hr
      | resyncSignal =>
          simp only [move, hr] at h
          by_cases hs : s.client.sync.resync = true
          · rw [if_pos hs] at h; cases h; exact .resyncSignal st hr
          · rw [if_neg hs] at h; exact nomatch h
      | hangUp => simp only [move, hr] at h; cases h; exact .hangUp st hr
      | _ => simp only [move, hr] at h; exact nomatch h
  | processing st delta hot =>
      cases e with
      | apply now =>
          simp only [move, hr] at h
          rcases watchApply_cases deps.hasETLDPlusOne s.client delta hot now
            with ⟨hev, hw⟩ | ⟨m, c, hw, hrej⟩ | ⟨c, hw, hact, hacc⟩
          · rw [hw] at h; cases h; exact .ignored st delta hot now hr hev
          · rw [hw] at h; cases h; exact .rejected st delta hot now c hr hrej
          · rw [hw] at h; cases h; exact .accepted st delta hot now c hr hact hacc hw
      | _ => simp only [move, hr] at h; exact nomatch h
  | closing =>
      cases e with
      | markDisconnected => simp only [move, hr] at h; cases h; exact .markDisconnected hr
      | _ => simp only [move, hr] at h; exact nomatch h
  | disconnected =>
      cases e with
      | dropTransport => simp only [move, hr] at h; cases h; exact .dropTransport hr
      | _ => simp only [move, hr] at h; exact nomatch h
  | stopped => cases e with
      | _ => simp only [move, hr] at h; exact nomatch h

end ControlPlane
