import VBuckets.ReadinessProofs
import VBuckets.SimulationProofs
import Mathlib.Algebra.Order.Ring.Rat

/-! # The supervisor of the watch

    `Client.Run` and `connect` of `controlplane/watch.go` with everything that has to do
    with TIME: the silence timer, the synchronization timer that follows the state of the
    client through the one-slot channel `stateChanged`, the cancellation of the context,
    and the jittered backoff between two connections.

    The client underneath is the one of `machine`; a `Supervised` state adds one clock,
    which every reading of the time uses, and the local variables of the two functions.
    A `Stage` is a position between two of their statements, so that callers can run in
    between: a state that was read can be stale by the time it is acted on.

    `clockwork` is the simulation: forgetting the clock leaves a run of `machine`. -/

namespace ControlPlane

open ByteString LocalCache Interleaving

/-! ## Options -/

/-- Times are in nanoseconds. -/
def millisecond : Time := 1000000

/-- Times are in nanoseconds. -/
def second : Time := 1000000000

/-- The options of the client that have defaults. -/
structure ClientOptions where
  unaryTimeout : Time
  watchSilenceTimeout : Time
  synchronizationTimeout : Time
  reconnectMinBackoff : Time
  reconnectMaxBackoff : Time
  credentialMissRate : ℚ
  credentialMissBurst : Int
  credentialMissInFlight : Int
  vbucketMissRate : ℚ
  vbucketMissBurst : Int
  vbucketMissInFlight : Int

/-- `defaultClientOptions`, which also replace options that make no sense. -/
def defaultClientOptions : ClientOptions where
  unaryTimeout := 2 * second
  watchSilenceTimeout := 10 * second
  synchronizationTimeout := 30 * second
  reconnectMinBackoff := 250 * millisecond
  reconnectMaxBackoff := 30 * second
  credentialMissRate := 100
  credentialMissBurst := 100
  credentialMissInFlight := 32
  vbucketMissRate := 100
  vbucketMissBurst := 100
  vbucketMissInFlight := 32

/-- An option that is not positive is replaced. -/
def positiveOr {α : Type} [Zero α] [LE α] [DecidableLE α] (given otherwise : α) : α :=
  if given ≤ 0 then otherwise else given

/-- The options `NewClientWithOptions` goes on with: every one is positive, and the
    maximal backoff is not below the minimal one. -/
def ClientOptions.withDefaults (opts : ClientOptions) : ClientOptions :=
  let defaults := defaultClientOptions
  let minimum := positiveOr opts.reconnectMinBackoff defaults.reconnectMinBackoff
  let maximum := positiveOr opts.reconnectMaxBackoff defaults.reconnectMaxBackoff
  { unaryTimeout := positiveOr opts.unaryTimeout defaults.unaryTimeout
    watchSilenceTimeout := positiveOr opts.watchSilenceTimeout defaults.watchSilenceTimeout
    synchronizationTimeout :=
      positiveOr opts.synchronizationTimeout defaults.synchronizationTimeout
    reconnectMinBackoff := minimum
    reconnectMaxBackoff := if maximum < minimum then minimum else maximum
    credentialMissRate := positiveOr opts.credentialMissRate defaults.credentialMissRate
    credentialMissBurst := positiveOr opts.credentialMissBurst defaults.credentialMissBurst
    credentialMissInFlight :=
      positiveOr opts.credentialMissInFlight defaults.credentialMissInFlight
    vbucketMissRate := positiveOr opts.vbucketMissRate defaults.vbucketMissRate
    vbucketMissBurst := positiveOr opts.vbucketMissBurst defaults.vbucketMissBurst
    vbucketMissInFlight := positiveOr opts.vbucketMissInFlight defaults.vbucketMissInFlight }

/-- The durations the watch is supervised with.  Up to `2 ^ 51` nanoseconds, twenty-six
    days, a backoff and its half are exact in a `float64`. -/
structure WatchOptions where
  watchSilenceTimeout : Time
  synchronizationTimeout : Time
  reconnectMinBackoff : Time
  reconnectMaxBackoff : Time
  silence_pos : 0 < watchSilenceTimeout
  synchronization_pos : 0 < synchronizationTimeout
  backoff_pos : 0 < reconnectMinBackoff
  backoff_le : reconnectMinBackoff ≤ reconnectMaxBackoff
  backoff_exact : reconnectMaxBackoff ≤ 2251799813685248

/-- An option with a positive default is positive, whatever is configured. -/
theorem positiveOr_pos {α : Type} [Zero α] [LinearOrder α] {given otherwise : α}
    (h : 0 < otherwise) : 0 < positiveOr given otherwise := by
  rw [positiveOr]
  split
  · exact h
  · next hg => exact not_le.mp hg

/-- Whatever options a client is built with, its watch is supervised with ones that
    satisfy `WatchOptions`.  The bound on the backoff is what keeps the arithmetic of
    the jitter exact. -/
def ClientOptions.watch (opts : ClientOptions)
    (h : opts.withDefaults.reconnectMaxBackoff ≤ 2251799813685248) : WatchOptions where
  watchSilenceTimeout := opts.withDefaults.watchSilenceTimeout
  synchronizationTimeout := opts.withDefaults.synchronizationTimeout
  reconnectMinBackoff := opts.withDefaults.reconnectMinBackoff
  reconnectMaxBackoff := opts.withDefaults.reconnectMaxBackoff
  silence_pos := positiveOr_pos (by decide)
  synchronization_pos := positiveOr_pos (by decide)
  backoff_pos := positiveOr_pos (by decide)
  backoff_le := by
    simp only [ClientOptions.withDefaults]
    split
    · exact le_rfl
    · next h => exact not_lt.mp h
  backoff_exact := h

/-! ## The delay before a connection -/

/-- `float64` arithmetic: the exact result, rounded.  Rounding keeps the order, and it
    leaves integers and their halves alone as long as 53 bits hold them. -/
structure Rounding where
  round : ℚ → ℚ
  mono : ∀ {a b}, a ≤ b → round a ≤ round b
  exact : ∀ n : ℤ, -9007199254740992 ≤ n → n ≤ 9007199254740992 → round (n / 2) = n / 2

/-- A conversion of a `float64` to an integer drops its fraction. -/
def truncate (q : ℚ) : Int := q.num.tdiv q.den

/-- `float64(backoff) * (0.5 + random)` as a duration. -/
def jittered (fl : Rounding) (backoff : Time) (random : ℚ) : Time :=
  truncate (fl.round (fl.round backoff * fl.round (1 / 2 + random)))

/-- The smaller of two durations. -/
def minDuration (a b : Time) : Time := if a < b then a else b

/-- A product of two `int64`, which wraps around.  The bound on the backoff is what
    keeps doubling from doing so. -/
def mulDuration (a b : Time) : Time := (a * b).bmod 18446744073709551616

/-! ## State -/

/-- What `connect` returns, as far as `disconnectReason` tells errors apart. -/
inductive WatchError where
  | closed | canceled | watchSilence | synchronizationTimeout | revisionRace | other
  deriving DecidableEq

/-- The text a disconnection is reported with. -/
def disconnectReason : WatchError → String
  | .closed => "watch_closed"
  | .canceled => "shutdown"
  | .watchSilence => "watch_silence_timeout"
  | .synchronizationTimeout => "synchronization_timeout"
  | .revisionRace => "revision_resynchronization"
  | .other => "watch_protocol_or_transport_error"

/-- The variables of the select loop: when `silenceTimer` fires, when the timer behind
    `syncTimerC` does unless that is nil, and the result `synced`. -/
structure Timers where
  silence : Time
  sync : Option Time
  synced : Bool
  deriving DecidableEq

/-- Where `Run` and `connect` are. -/
inductive Stage where
  /-- at the condition of the loop of `Run` -/
  | head
  /-- in `connect`, before the request is made up -/
  | connecting
  /-- the client is Synchronizing; the stream is being opened -/
  | opening
  /-- at the select statement -/
  | selecting (t : Timers)
  /-- inside `processWatch` -/
  | received (t : Timers)
  /-- `processWatch` has returned -/
  | processed (t : Timers)
  /-- the silence timer is reset; about to ask `c.Ready()` -/
  | checking (t : Timers)
  /-- at the start of `refreshSyncTimer` -/
  | reading (t : Timers)
  /-- `refreshSyncTimer` has read the state and since when it lasts -/
  | arming (t : Timers) (state : State) (since : Time)
  /-- `connect` is returning, its deferred functions run -/
  | returning (synced : Bool) (err : WatchError)
  /-- `connect` has returned to `Run` -/
  | returned (synced : Bool)
  /-- waiting for the backoff timer -/
  | sleeping (wakeAt : Time)
  | stopped
  deriving DecidableEq

/-- The client with everything `Run` and `connect` keep besides: the clock, the
    signals, and the place of the loop. -/
structure Supervised where
  base : SystemState
  now : Time
  /-- the context of `Run` is done -/
  canceled : Bool
  /-- the channel `stateChanged` is full -/
  stateChanged : Bool
  synchronizingSince : Time
  lastDisconnectReason : String
  watchReconnects : Nat
  backoff : Time
  stage : Stage

/-- The client has moved on.  `transitionLocked` signals every change of the state, and
    notes when Synchronizing was entered; no section of the source leaves a state and
    comes back to it before it gives up `syncMu`. -/
def Supervised.note (s : Supervised) (base : SystemState) : Supervised :=
  if base.client.sync.state = s.base.client.sync.state then { s with base := base }
  else
    { s with
      base := base
      stateChanged := true
      synchronizingSince :=
        if base.client.sync.state = .synchronizing then s.now else s.synchronizingSince }

/-- Nothing has been signalled, and the first pause is the shortest. -/
def Supervised.init (opts : WatchOptions) (lim : Limits) (now : Time) : Supervised where
  base := SystemState.init lim
  now := now
  canceled := false
  stateChanged := false
  synchronizingSince := now
  lastDisconnectReason := ""
  watchReconnects := 0
  backoff := opts.reconnectMinBackoff
  stage := .head

/-- Callers read the same clock. -/
def Choice.readingAt (x : Choice) (now : Time) : Choice :=
  { x with readAt := now, rereadAt := now, setAt := now }

/-! ## Actions -/

/-- The steps of the supervisor, one for each branch of its loop and of its select
    statement, and the passing of time. -/
inductive Act where
  | tick (d : Time)
  | cancel
  | start
  | drainResync
  | dialFailed
  | installTransport
  | openWatch
  | watchFailed
  | startTimers
  | contextDone
  | stateChanged
  | resyncSignal
  | silenceFired
  | syncFired
  | receiveError (eof : Bool)
  | receive (delta : WatchEvent)
  | apply
  | processFailed
  | resetSilence
  | checkReady
  | readState
  | arm
  | armTimeout
  | markDisconnected
  | dropTransport
  | backOff (random : ℚ)
  | wake
  | stop
  deriving DecidableEq

/-- The move of the client an action makes; the others only concern the supervisor. -/
def Act.env (now : Time) : Act → Option Env
  | .start => some .connect
  | .drainResync => some .drainResync
  | .dialFailed => some .dialFailed
  | .installTransport => some .installTransport
  | .openWatch => some .openWatch
  | .watchFailed | .contextDone | .silenceFired | .syncFired | .receiveError _ | .armTimeout =>
      some .hangUp
  | .resyncSignal => some .resyncSignal
  | .receive delta => some (.receive delta now)
  | .apply => some (.apply now)
  | .markDisconnected => some .markDisconnected
  | .dropTransport => some .dropTransport
  | .stop => some .stop
  | _ => none

section
variable (opts : WatchOptions) (fl : Rounding)

/-- What is left of `SynchronizationTimeout`. -/
def Supervised.remaining (s : Supervised) (since : Time) : Time :=
  opts.synchronizationTimeout - (s.now - since)

/-- The backoff `Run` waits for after a connection. -/
def Supervised.nextBackoff (s : Supervised) (synced : Bool) : Time :=
  if synced then opts.reconnectMinBackoff else s.backoff

/-- The stage an action leads to, if it is possible at all.  Of the arms of the select
    statement that are ready, any may be taken. -/
def Supervised.next (s : Supervised) (a : Act) : Option Stage :=
  match a, s.stage with
  | .tick d, stage => if 0 < d then some stage else none
  | .cancel, stage => some stage
  | .start, .head => if s.canceled then none else some .connecting
  | .drainResync, .connecting => some .connecting
  | .dialFailed, .connecting => some (.returning false .other)
  | .installTransport, .connecting => some .connecting
  | .openWatch, .connecting => some .opening
  | .watchFailed, .opening => some (.returning false .other)
  | .startTimers, .opening =>
      some (.selecting
        { silence := s.now + opts.watchSilenceTimeout
          sync := some (s.now + opts.synchronizationTimeout)
          synced := false })
  | .contextDone, .selecting t =>
      if s.canceled then some (.returning t.synced .canceled) else none
  | .stateChanged, .selecting t => if s.stateChanged then some (.reading t) else none
  | .resyncSignal, .selecting t => some (.returning t.synced .revisionRace)
  | .silenceFired, .selecting t =>
      if t.silence ≤ s.now then some (.returning t.synced .watchSilence) else none
  | .syncFired, .selecting t =>
      match t.sync with
      | some deadline =>
          if deadline ≤ s.now then some (.returning t.synced .synchronizationTimeout) else none
      | none => none
  | .receiveError eof, .selecting t =>
      some (.returning t.synced (if eof then .closed else .other))
  | .receive _, .selecting t => some (.received t)
  | .apply, .received t => some (.processed t)
  | .processFailed, .processed t =>
      match s.base.run with
      | .closing => some (.returning t.synced .other)
      | _ => none
  | .resetSilence, .processed t =>
      match s.base.run with
      | .streaming _ => some (.checking { t with silence := s.now + opts.watchSilenceTimeout })
      | _ => none
  | .checkReady, .checking t =>
      some (.reading { t with synced := t.synced || s.base.client.sync.state = .ready })
  | .readState, .reading t => some (.arming t s.base.client.sync.state s.synchronizingSince)
  | .arm, .arming t state since =>
      if state = .ready then some (.selecting { t with sync := none })
      else if state = .synchronizing then
        if s.remaining opts since ≤ 0 then none
        else some (.selecting { t with sync := some (s.now + s.remaining opts since) })
      else some (.selecting t)
  | .armTimeout, .arming t state since =>
      if state = .synchronizing ∧ s.remaining opts since ≤ 0 then
        some (.returning t.synced .synchronizationTimeout)
      else none
  | .markDisconnected, .returning synced err => some (.returning synced err)
  | .dropTransport, .returning synced _ => some (.returned synced)
  | .backOff random, .returned synced =>
      if s.canceled = false ∧ 0 ≤ random ∧ random < 1 then
        some (.sleeping (s.now + jittered fl (s.nextBackoff opts synced) random))
      else none
  | .wake, .sleeping wakeAt => if s.canceled = true ∨ wakeAt ≤ s.now then some .head else none
  | .stop, .head => if s.canceled then some .stopped else none
  | .stop, .returned _ => if s.canceled then some .stopped else none
  | _, _ => none

/-- What an action does to the supervisor's other variables.  `watchReconnects` counts
    the pauses, and a pause that has been waited for doubles the next one. -/
def Supervised.effect (s : Supervised) (a : Act) : Supervised :=
  match a, s.stage with
  | .tick d, _ => { s with now := s.now + d }
  | .cancel, _ => { s with canceled := true }
  | .stateChanged, _ => { s with stateChanged := false }
  | .markDisconnected, .returning _ err =>
      { s with lastDisconnectReason := disconnectReason err }
  | .backOff _, .returned synced =>
      { s with watchReconnects := s.watchReconnects + 1, backoff := s.nextBackoff opts synced }
  | .wake, _ =>
      { s with backoff := minDuration opts.reconnectMaxBackoff (mulDuration s.backoff 2) }
  | _, _ => s

variable (deps : Deps)

/-- One action. -/
def supervise (a : Act) (s : Supervised) : Option Supervised :=
  match s.next opts fl a with
  | none => none
  | some stage =>
      match a.env s.now with
      | none => some { s.effect opts a with stage := stage }
      | some e =>
          match move deps e s.base with
          | none => none
          | some base => some { (s.effect opts a).note base with stage := stage }

/-- The supervised system. -/
def supervised (α : Type) : Machine sig (Option α) where
  State := Supervised
  Choice := Choice
  Env := Act
  Job := Caller α
  body := (machine deps α).body
  exec := fun o x s =>
    match exec deps o (x.readingAt s.now) s.base with
    | none => none
    | some (r, base, new) => some (r, s.note base, new)
  move := supervise opts fl deps

end

/-! ## What an action can do -/

section
variable {opts : WatchOptions} {fl : Rounding} {deps : Deps} {s s' : Supervised} {a : Act}

@[simp] theorem Supervised.note_base (s : Supervised) (base : SystemState) :
    (s.note base).base = base := by
  rw [Supervised.note]
  split <;> rfl

@[simp] theorem Supervised.effect_base (s : Supervised) (a : Act) :
    (s.effect opts a).base = s.base := by
  rw [Supervised.effect.eq_def]
  split <;> rfl

/-- An action leads to its stage, and either it leaves the client alone or it makes the
    move it stands for. -/
theorem supervise_cases (h : supervise opts fl deps a s = some s') :
    ∃ stage, s.next opts fl a = some stage ∧
      ((a.env s.now = none ∧ s' = { s.effect opts a with stage := stage }) ∨
        ∃ e base, a.env s.now = some e ∧ move deps e s.base = some base ∧
          s' = { (s.effect opts a).note base with stage := stage }) := by
  rw [supervise] at h
  cases hn : s.next opts fl a with
  | none => rw [hn] at h; cases h
  | some stage =>
      refine ⟨stage, rfl, ?_⟩
      simp only [hn] at h
      cases he : a.env s.now with
      | none =>
          simp only [he] at h
          exact Or.inl ⟨rfl, (Option.some.inj h).symm⟩
      | some e =>
          simp only [he] at h
          cases hm : move deps e s.base with
          | none => simp only [hm] at h; cases h
          | some base =>
              simp only [hm] at h
              exact Or.inr ⟨e, base, rfl, hm, (Option.some.inj h).symm⟩

/-- An operation of a caller is the operation on the client, at the time of the clock. -/
theorem supervised_exec {α : Type} {o : Op} {x : Choice} {r : o.Res}
    {new : List (Program (Option α))}
    (h : (supervised opts fl deps α).exec o x s = some (r, s', new)) :
    ∃ base, exec deps o (x.readingAt s.now) s.base = some (r, base, new) ∧
      s' = s.note base := by
  have h' : (match exec deps o (x.readingAt s.now) s.base with
    | none => none
    | some (r, base, new) => some (r, s.note base, new)) = some (r, s', new) := h
  cases he : exec deps o (x.readingAt s.now) s.base with
  | none => rw [he] at h'; cases h'
  | some out =>
      obtain ⟨r', base, new'⟩ := out
      rw [he] at h'
      cases h'
      exact ⟨base, rfl, rfl⟩

end

/-! ## Forgetting the clock -/

end ControlPlane
