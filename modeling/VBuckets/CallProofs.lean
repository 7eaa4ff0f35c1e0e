import VBuckets.StampProofs

/-! # What the calls of the client promise

    Every call is checked once, against any run.  What a lookup answers is measured by a
    TRUTH `T l r k v`: "at revision `r` the value of key `k` of lane `l` is `v`".  A call
    relies on two things (`Reliable`): responses report truths, and what the caches hold
    is true up to the present revision.  In return it

    * performs each operation under its precondition (`Promise`): a unary revision is
      compared with one the client has already reached, and only truths are published or
      offered to a cache;
    * answers a truth of some ready moment between its start and its end (`Answered`).

    Loads may be shared between callers that captured different revisions; a waiter knows
    about the result only what the starter promised. -/

namespace ControlPlane

open ByteString LocalCache LoadGroup Interleaving

/-- "At this revision, the value under this cache key is that." -/
abbrev Truth := (l : Lane) → Nat → Bytes → Option l.Value → Prop

/-! ## Results of loads -/

/-- A result that may be handed to the waiters of key `k`. -/
def Permitted (T : Truth) (l : Lane) (k : Bytes) : LoadResult l → Prop
  | .ok e => T l e.revision k e.value
  | .error e => e ≠ .notFound

/-- The pending loads are in order: their records are well formed, and each result is
    one that the truth permits for the key it was loaded for. -/
structure SystemState.LoadsSound (T : Truth) (s : SystemState) : Prop where
  wf : ∀ l, (s.loads l).WF
  results : ∀ l, (s.loads l).Satisfies (Permitted T l)

theorem init_loadsSound (T : Truth) (lim : Limits) : (SystemState.init lim).LoadsSound T :=
  ⟨fun _ => Loads.empty_wf, fun _ => Loads.empty_satisfies⟩

section
variable {deps : Deps} {α : Type} {o : Op} {s s' : SystemState}
  {new : List (Program (Option α))} {T : Truth}

/-- A step keeps the loads sound if what it publishes, if anything, is permitted.  The
    promise of a loader sees to that. -/
theorem LoadsStep.sound (h : LoadsStep deps o s s' new) (hs : s.LoadsSound T)
    (hpub : ∀ l call result, o = .publish l call result →
      ∀ k, (s.loads l).StartedFor call k → Permitted T l k result) : s'.LoadsSound T := by
  -- only the lane of the operation changes
  have update : ∀ l v, v.WF → v.Satisfies (Permitted T l) →
      s'.loads = Function.update s.loads l v → s'.LoadsSound T := by
    intro l v hwf hres heq
    constructor
    · rw [heq]
      exact (Function.forall_update_iff s.loads (fun _ g => g.WF)).mpr
        ⟨hwf, fun l' _ => hs.wf l'⟩
    · rw [heq]
      exact (Function.forall_update_iff s.loads (fun l g => g.Satisfies (Permitted T l))).mpr
        ⟨hres, fun l' _ => hs.results l'⟩
  cases h with
  | same loads_eq => exact ⟨loads_eq ▸ hs.wf, loads_eq ▸ hs.results⟩
  | start l key revision epoch op_eq loads_eq =>
      exact update l _ ((hs.wf l).start _) ((hs.results l).start _) loads_eq
  | publish l call result op_eq loads_eq =>
      exact update l _ ((hs.wf l).publish call result)
        ((hs.results l).publish (hpub l call result op_eq)) loads_eq
  | close l call op_eq loads_eq =>
      exact update l _ ((hs.wf l).close call) ((hs.results l).close call) loads_eq

/-- A call keeps the key it was started for. -/
theorem LoadsStep.startedFor (h : LoadsStep deps o s s' new) {l : Lane} {call : Nat}
    {k : Bytes} (hk : (s.loads l).StartedFor call k) : (s'.loads l).StartedFor call k := by
  have update : ∀ l' v, ((s.loads l').StartedFor call k → v.StartedFor call k) →
      s'.loads = Function.update s.loads l' v → (s'.loads l).StartedFor call k := by
    intro l' v hv heq
    rw [heq]
    by_cases hl : l = l'
    · subst hl
      rw [Function.update_self]
      exact hv hk
    · rw [Function.update_of_ne hl]
      exact hk
  cases h with
  | same loads_eq => rw [loads_eq]; exact hk
  | start l' key revision epoch op_eq loads_eq => exact update l' _ (·.start) loads_eq
  | publish l' i result op_eq loads_eq => exact update l' _ (·.publish) loads_eq
  | close l' i op_eq loads_eq => exact update l' _ (·.close) loads_eq

/-- `Run` does not touch the loads. -/
theorem Moved.loads_eq {e : Env} (h : Moved deps s e s') : s'.loads = s.loads := by
  cases h <;> rfl

end

section
variable {deps : Deps} {α : Type} {lim : Limits} {G : Guard (machine deps α)}
  (ρ : Run (machine deps α) (SystemState.init lim) G)

/-- A call stays the call of its key for the rest of the run, so a waiter receives a
    result for the key it asked for. -/
theorem run_startedFor {i j : Nat} (hij : i ≤ j) {l : Lane} {call : Nat} {k : Bytes}
    (h : (SystemState.loads (ρ.at i) l).StartedFor call k) :
    (SystemState.loads (ρ.at j) l).StartedFor call k := by
  refine ρ.related (R := fun s s' => (SystemState.loads s l).StartedFor call k →
    (SystemState.loads s' l).StartedFor call k) (fun _ h => h) (fun h h' hk => h' (h hk)) ?_ hij h
  intro n
  refine ρ.step_rel (R := fun s s' => (SystemState.loads s l).StartedFor call k →
    (SystemState.loads s' l).StartedFor call k) n (fun _ h => h) ?_ ?_
  · intro o x r s' new _ he
    exact (exec_loads he).startedFor
  · intro e s' _ hm hk
    rw [(move_cases hm).loads_eq]
    exact hk

end

/-! ## Answers of single operations -/

section
variable {deps : Deps} {α : Type} {x : Choice} {s s' : SystemState}
  {new : List (Program (Option α))}

/-- A view is refused because the client is not synchronized or not connected, never
    because of a race. -/
theorem lookupSnapshot_error {c : Client} {e : LookupError}
    (h : c.lookupSnapshot = .error e) : e = .unsynchronized ∨ e = .notConnected := by
  simp only [Client.lookupSnapshot] at h
  by_cases hr : c.sync.state ≠ .ready
  · rw [if_pos hr] at h; exact Or.inl (Except.error.inj h).symm
  · rw [if_neg hr] at h
    by_cases hc : (!c.connected) = true
    · rw [if_pos hc] at h; exact Or.inr (Except.error.inj h).symm
    · rw [if_neg hc] at h; cases h

theorem exec_lookupSnapshot {r : Except LookupError (Nat × Nat)}
    (h : exec deps .lookupSnapshot x s = some (r, s', new)) : s.client.lookupSnapshot = r :=
  congrArg Prod.fst (of_unlocked h).2

theorem exec_stillCurrent {revision epoch : Nat} {r : Bool}
    (h : exec deps (.stillCurrent revision epoch) x s = some (r, s', new)) :
    s.client.stillCurrent revision epoch = r :=
  congrArg Prod.fst (of_unlocked h).2

theorem exec_lookupBaseHost {hostname : Bytes} {r : Except Domain.HostError (Option Bytes)}
    (h : exec deps (.lookupBaseHost hostname) x s = some (r, s', new)) :
    s.client.lookupBaseHost hostname = r :=
  congrArg Prod.fst (of_unlocked h).2

theorem exec_getIfPresent {l : Lane} {key : Bytes} {r : Option (Cached l.Value)}
    (h : exec deps (.getIfPresent l key) x s = some (r, s', new)) :
    ((s.client.caches.lane l).getIfPresent key x.readAt).1 = r :=
  congrArg Prod.fst (Option.some.inj h)

theorem exec_rpcLookup {l : Lane} {key : l.Key} {minimum : Nat}
    {r : Except Code (Option l.Response)}
    (h : exec deps (.rpcLookup l key minimum) x s = some (r, s', new)) :
    x.lookupResponse l = r :=
  congrArg Prod.fst (Option.some.inj h)

/-- What a load ends with is what it had loaded, or what it found in the cache, or a
    race. -/
theorem exec_install {l : Lane} {key : l.Key} {revision epoch : Nat}
    {candidate : Cached l.Value} {r : LoadResult l}
    (h : exec deps (.install l key revision epoch candidate) x s = some (r, s', new)) :
    (∀ e, r = .ok e → s.client.caches.Holds l (l.cacheKey key) e ∨ e = candidate) ∧
      ∀ e, r = .error e → e = .revisionRace := by
  have hi := install_spec s.client l (l.cacheKey key) revision epoch candidate x.readAt
    x.rereadAt x.setAt
  obtain ⟨-, hv⟩ := of_unlocked h
  cases hv
  exact ⟨hi.answer, hi.failure⟩

/-- A started or joined load is one for the key asked for. -/
theorem exec_startLoad {l : Lane} {key : l.Key} {revision epoch : Nat}
    {r : Except LookupError Nat} (hwf : (s.loads l).WF)
    (h : exec deps (.startLoad l key revision epoch) x s = some (r, s', new)) :
    (∀ call, r = .ok call → (s'.loads l).StartedFor call (l.cacheKey key)) ∧
      ∀ e, r = .error e → e = .missRejected := by
  simp only [exec] at h
  -- a call of the key may be under way, else the miss has to be admitted
  cases hj : (s.loads l).join (l.cacheKey key) with
  | some call =>
      rw [hj] at h
      cases Option.some.inj h
      refine ⟨?_, fun e he => by cases he⟩
      intro call' hc
      cases hc
      exact hwf _ _ hj
  | none =>
      simp only [hj] at h
      by_cases ha : (!x.admitted) = true
      · rw [if_pos ha] at h
        cases Option.some.inj h
        refine ⟨?_, fun e he => (Except.error.inj he).symm⟩
        intro call hc
        cases hc
      · rw [if_neg ha] at h
        cases Option.some.inj h
        refine ⟨?_, fun e he => by cases he⟩
        intro call hc
        cases hc
        show (Function.update s.loads l _ l).StartedFor _ _
        rw [Function.update_self]
        exact Loads.start_startedFor _ _

/-- A wait ends with a cancellation or with the published result. -/
theorem exec_await {l : Lane} {call : Nat} {r : LoadResult l}
    (h : exec deps (.await l call) x s = some (r, s', new)) :
    r = .error .canceled ∨ (s.loads l).received call = some r := by
  simp only [exec] at h
  by_cases hc : x.canceled = true
  · rw [if_pos hc] at h
    exact Or.inl (congrArg Prod.fst (Option.some.inj h)).symm
  · rw [if_neg hc] at h
    cases hr : (s.loads l).received call with
    | none => rw [hr] at h; cases h
    | some result =>
        rw [hr] at h
        exact Or.inr (congrArg some (congrArg Prod.fst (Option.some.inj h)))

end

/-! ## What a call relies on, promises and answers -/

/-- What each operation is performed under. -/
def Promise (T : Truth) (o : Op) (s : SystemState) : Prop :=
  match o with
  | .checkUnaryRevision _ expected => expected ≤ s.client.sync.revision
  | .startLoad _ _ revision _ => revision ≤ s.client.sync.revision
  | .install l key _ _ candidate => T l candidate.revision (l.cacheKey key) candidate.value
  | .publish l call result => ∀ k, (s.loads l).StartedFor call k → Permitted T l k result
  | _ => True

/-- Responses report truths, and where `B` holds so do the caches. -/
structure Reliable (deps : Deps) {α : Type} (G : Guard (machine deps α)) (T : Truth)
    (B : SystemState → Prop) : Prop where
  rpc : ∀ l key minimum x s, G.op (Op.rpcLookup l key minimum) x s → ∀ resp e,
    Choice.lookupResponse x l = .ok (some resp) → l.responseEntry deps resp = .ok e →
    T l e.revision (l.cacheKey key) e.value
  held : ∀ s, B s → ∀ l k (e : Cached l.Value), s.client.caches.Holds l k e →
    T l e.revision k e.value ∧
      ∀ r, e.revision ≤ r → r ≤ s.client.sync.revision → T l r k e.value

/-- The value a lookup reports: `ErrNotFound` reports that there is none. -/
def reported {V : Type} : Except LookupError V → Option (Option V)
  | .ok v => some (some v)
  | .error .notFound => some none
  | .error _ => none

section
variable {deps : Deps} {α : Type} {lim : Limits} {G : Guard (machine deps α)}
  (ρ : Run (machine deps α) (SystemState.init lim) G) (T : Truth)

/-- At moment `n` the client is ready at revision `r`. -/
def ReadyAt (n r : Nat) : Prop :=
  (clientAt ρ n).sync.state = .ready ∧ (clientAt ρ n).sync.revision = r

/-- The value a lookup reports is true at a ready moment since `start`. -/
def Answered (l : Lane) (key : l.Key) (start : Nat) (result : Except LookupError l.Value)
    (n : Nat) : Prop :=
  ∀ v, reported result = some v →
    ∃ m r, start ≤ m ∧ m < n ∧ ReadyAt ρ m r ∧ T l r (l.cacheKey key) v

/-- The stamp is the one of a ready moment since `start`. -/
def Stamped (start : Nat) (stamp : ResolutionStamp) (n : Nat) : Prop :=
  ∃ m, start ≤ m ∧ m < n ∧ ReadyAt ρ m stamp.revision ∧
    (clientAt ρ m).sync.epoch = stamp.epoch

/-- What is known when a call started at `start` has returned before `n`. -/
def CallPost (start : Nat) : (c : Call) → c.Res → Nat → Prop
  | .beginResolution, result, n => ∀ stamp, result = .ok stamp → Stamped ρ start stamp n
  | .validateResolution stamp, result, n => result = true → Stamped ρ start stamp n
  | .lookupCredentials accessKeyID, result, n =>
      Answered ρ T .credentials accessKeyID start result n
  | .lookupVBucket accessKeyID bucketName, result, n =>
      Answered ρ T .vbuckets (accessKeyID, bucketName) start result n
  | .lookupBaseHost hostname, result, n =>
      ∃ m, start ≤ m ∧ m < n ∧ (clientAt ρ m).lookupBaseHost hostname = result
  | .createVBucket _ _ _, _, _ => True
  | .listVBuckets _, _, _ => True
  | .now, _, _ => True

end

section
variable {deps : Deps} {α : Type} {lim : Limits} {G : Guard (machine deps α)}
  {ρ : Run (machine deps α) (SystemState.init lim) G} {T : Truth} {B : SystemState → Prop}

/-- What holds at every moment: the given invariant, and sound loads. -/
def Trusted (ρ : Run (machine deps α) (SystemState.init lim) G) (T : Truth)
    (B : SystemState → Prop) (n : Nat) : Prop :=
  B (ρ.at n) ∧ SystemState.LoadsSound T (ρ.at n)

/-- Programs of the client, checked against a run. -/
abbrev Checked (ρ : Run (machine deps α) (SystemState.init lim) G) (T : Truth)
    (B : SystemState → Prop) {β : Type} (p : Program β) (post : β → Nat → Prop) (n : Nat) :
    Prop :=
  Wp ρ (Trusted ρ T B) (fun o m => Promise T o (ρ.at m)) p post n

variable {β : Type} {post : β → Nat → Prop} {n : Nat}

/-- An operation without a precondition. -/
theorem Checked.perform {o : Op} {f : o.Res → Program β}
    (hpre : ∀ s, Promise T o s)
    (h : ∀ m, n ≤ m → Trusted ρ T B m → ∀ (x : Choice) r
      (new : List (Program (Option α))), G.op o x (ρ.at m) →
      exec deps o x (ρ.at m) = some (r, ρ.at (m + 1), new) →
      Checked ρ T B (f r) post (m + 1)) :
    Checked ρ T B (ControlPlane.perform o >>= f) post n := by
  refine Wp.perform ?_
  intro m hm hA
  exact ⟨hpre (ρ.at m), h m hm hA⟩

theorem Checked.single {o : Op} {post : o.Res → Nat → Prop}
    (h : ∀ m, n ≤ m → Trusted ρ T B m → Promise T o (ρ.at m) ∧ ∀ (x : Choice) r
      (new : List (Program (Option α))), G.op o x (ρ.at m) →
      exec deps o x (ρ.at m) = some (r, ρ.at (m + 1), new) → post r (m + 1)) :
    Checked ρ T B (ControlPlane.perform o) post n := h

/-! ## Loaders -/

/-- **LOAD**: only truths, and never `ErrNotFound`, come out of a load. -/
theorem load_checked (hrel : Reliable deps G T B) {l : Lane} {key : l.Key}
    {revision epoch : Nat} (hle : revision ≤ (clientAt ρ n).sync.revision) :
    Checked ρ T B (load deps l key revision epoch)
      (fun result _ => Permitted T l (l.cacheKey key) result) n := by
  refine Checked.perform (fun _ => trivial) ?_
  intro m hm _ x r new hg he
  have hr := exec_rpcLookup he
  -- a failed or empty answer yields an error that is not `ErrNotFound`
  match r with
  | .error code => exact Wp.ret (fun h => nomatch h)
  | .ok none => exact Wp.ret (fun h => nomatch h)
  | .ok (some resp) =>
      refine Wp.perform ?_
      intro m₁ hm₁ _
      refine ⟨Nat.le_trans hle (run_progress ρ (by omega)).revision, ?_⟩
      intro x₁ agreed new₁ _ _
      match agreed with
      | false => exact Wp.ret (fun h => nomatch h)
      | true =>
          cases hc : l.responseEntry deps resp with
          | error e =>
              simp only [if_pos]
              exact Wp.ret (fun h => nomatch h)
          | ok candidate =>
              simp only [if_pos]
              -- the peer is trusted here: what it answers at a revision is true there
              have htrue := hrel.rpc l key revision x _ hg resp candidate hr hc
              refine Checked.single ?_
              intro m₂ _ hA
              refine ⟨htrue, ?_⟩
              intro x₂ result new₂ _ he₂
              obtain ⟨hok, herr⟩ := exec_install he₂
              match result with
              | .error e => rw [herr e rfl]; exact fun h => nomatch h
              | .ok e =>
                  -- the cache keeps what it held if that is newer, else takes the candidate
                  rcases hok e rfl with hheld | heq
                  · exact (hrel.held _ hA.1 l _ e hheld).1
                  · rw [heq]; exact htrue

/-- A loader keeps its promises: it starts at a revision that the client had reached,
    and publishes only what is permitted. -/
theorem loader_checked (hrel : Reliable deps G T B) {l : Lane} {key : l.Key}
    {call revision epoch : Nat} (hle : revision ≤ (clientAt ρ n).sync.revision)
    (hstart : (SystemState.loads (ρ.at n) l).StartedFor call (l.cacheKey key)) :
    Checked ρ T B (loader deps l key call revision epoch) (fun _ _ => True) n := by
  refine Wp.bind ((load_checked hrel hle).weaken ?_)
  intro result m hm hresult
  refine Wp.perform ?_
  intro m₁ hm₁ _
  refine ⟨?_, ?_⟩
  · -- the call is the loader's own, so its key is the one loaded
    intro k hk
    rw [Loads.StartedFor.unique hk (run_startedFor ρ (Nat.le_trans hm hm₁) hstart)]
    exact hresult
  · intro x r new _ _ m₂ _ _
    exact ⟨trivial, fun _ _ _ _ _ => trivial⟩

/-! ## Lookups -/

/-- An error other than `ErrNotFound` reports nothing. -/
theorem answered_error {l : Lane} {key : l.Key} {start : Nat} {e : LookupError}
    (he : e ≠ .notFound) : Answered ρ T l key start (.error e) n := by
  intro v hv
  cases e with
  | notFound => exact absurd rfl he
  | _ => exact nomatch hv

/-- An entry that is true at a revision at which the client was ready during the call
    is an answer. -/
theorem answered_entry {l : Lane} {key : l.Key} {start m r : Nat} {e : Cached l.Value}
    (hs : start ≤ m) (hn : m < n) (hr : ReadyAt ρ m r) (ht : T l r (l.cacheKey key) e.value) :
    Answered ρ T l key start (entryResult e) n := by
  intro v hv
  obtain ⟨value, revision, ttl⟩ := e
  cases value with
  | none | some => exact ⟨m, r, hs, hn, hr, Option.some.inj hv ▸ ht⟩

/-- What an attempt does with a failed step. -/
theorem raceOr_checked {l : Lane} {key : l.Key} {start : Nat} {e : LookupError}
    {onRace : Program (Except LookupError l.Value)} (he : e ≠ .notFound)
    (hrace : Checked ρ T B onRace (Answered ρ T l key start) n) :
    Checked ρ T B (if e = .revisionRace then onRace else pure (.error e))
      (Answered ρ T l key start) n := by
  by_cases hr : e = .revisionRace
  · rw [if_pos hr]; exact hrace
  · rw [if_neg hr]; exact Wp.ret (answered_error he)

/-- The end of an attempt: the view is confirmed and the entry true there. -/
theorem confirmed_checked {l : Lane} {key : l.Key} {start r epoch : Nat} {e : Cached l.Value}
    {onRace : Program (Except LookupError l.Value)} (hs : start ≤ n)
    (hrace : ∀ m, n ≤ m → Checked ρ T B onRace (Answered ρ T l key start) m)
    (htrue : T l r (l.cacheKey key) e.value) :
    Checked ρ T B (do if ← perform (.stillCurrent r epoch) then pure (entryResult e) else onRace)
      (Answered ρ T l key start) n := by
  refine Checked.perform (fun _ => trivial) ?_
  intro m hm _ x current new _ he
  cases current with
  | false => exact hrace _ (by omega)
  | true =>
      obtain ⟨hready, hr, -⟩ := stillCurrent_true (exec_stillCurrent he)
      exact Wp.ret (answered_entry (by omega) (Nat.lt_succ_self m) ⟨hready, hr⟩ htrue)

/-- An attempt without a cached entry starts or joins a load and takes its result. -/
theorem missed_checked {l : Lane} {key : l.Key} {start revision epoch : Nat}
    {onRace : Program (Except LookupError l.Value)} (hs : start ≤ n)
    (hrace : ∀ m, n ≤ m → Checked ρ T B onRace (Answered ρ T l key start) m)
    (hreached : ∀ m, n ≤ m → revision ≤ (clientAt ρ m).sync.revision) :
    Checked ρ T B
      (do match ← perform (.startLoad l key revision epoch) with
          | .error e => if e = .revisionRace then onRace else pure (.error e)
          | .ok call =>
              match ← perform (.await l call) with
              | .error e => if e = .revisionRace then onRace else pure (.error e)
              | .ok result =>
                  if ← perform (.stillCurrent result.revision epoch) then
                    pure (entryResult result)
                  else onRace)
      (Answered ρ T l key start) n := by
  refine Wp.perform ?_
  intro m hm hA
  refine ⟨hreached m hm, ?_⟩
  intro x started new _ he
  obtain ⟨hok, herr⟩ := exec_startLoad (hA.2.wf l) he
  cases started with
  | error e =>
      refine raceOr_checked ?_ (hrace _ (by omega))
      rw [herr e rfl]
      exact fun h => by cases h
  | ok call =>
      have hcall := hok call rfl
      refine Checked.perform (fun _ => trivial) ?_
      intro m₁ hm₁ hA₁ x₁ waited new₁ _ he₁
      -- the load may be somebody else's, so all that is known is what the group knows
      have hpermitted : waited = .error .canceled ∨ Permitted T l (l.cacheKey key) waited := by
        rcases exec_await he₁ with hc | hr
        · exact Or.inl hc
        · exact Or.inr ((hA₁.2.results l).received (run_startedFor ρ hm₁ hcall) hr)
      cases waited with
      | error e =>
          refine raceOr_checked ?_ (hrace _ (by omega))
          rcases hpermitted with hc | hp
          · rw [Except.error.inj hc]; exact fun h => by cases h
          · exact hp
      | ok result =>
          rcases hpermitted with hc | hp
          · cases hc
          · exact confirmed_checked (by omega) (fun m' hm' => hrace m' (by omega)) hp

/-- **ATTEMPT**: a cached or loaded value is true at the revision the last check of the
    view confirms. -/
theorem attempt_checked (hrel : Reliable deps G T B) {l : Lane} {key : l.Key} {start : Nat}
    {onRace : Program (Except LookupError l.Value)} (hs : start ≤ n)
    (hrace : ∀ m, n ≤ m → Checked ρ T B onRace (Answered ρ T l key start) m) :
    Checked ρ T B (attempt l key onRace) (Answered ρ T l key start) n := by
  refine Checked.perform (fun _ => trivial) ?_
  intro m hm _ x view new _ he
  have hview := exec_lookupSnapshot he
  cases view with
  | error e =>
      refine raceOr_checked ?_ (hrace _ (by omega))
      rcases lookupSnapshot_error hview with h | h
      · rw [h]; exact fun h => by cases h
      · rw [h]; exact fun h => by cases h
  | ok view =>
      obtain ⟨revision, epoch⟩ := view
      obtain ⟨-, hrev, -⟩ := lookupSnapshot_ok hview
      -- revisions do not fall, so the one that was read has been reached from now on
      have hreached : ∀ m', m ≤ m' → revision ≤ (clientAt ρ m').sync.revision := by
        intro m' hm'
        rw [← hrev]
        exact (run_progress ρ hm').revision
      refine Checked.perform (fun _ => trivial) ?_
      intro m₁ hm₁ hA₁ x₁ read new₁ _ he₁
      have hlater : ∀ m', m₁ + 1 ≤ m' → Checked ρ T B onRace (Answered ρ T l key start) m' :=
        fun m' hm' => hrace m' (by omega)
      cases read with
      | none => exact missed_checked (by omega) hlater (fun m' hm' => hreached m' (by omega))
      | some cached =>
          -- an entry from after the view does not count as a hit
          by_cases hle : cached.revision ≤ revision
          · have hheld := holds_of_getIfPresent (exec_getIfPresent he₁)
            have htrue := (hrel.held _ hA₁.1 l _ cached hheld).2 revision hle
              (hreached m₁ (by omega))
            simp only [if_pos hle]
            exact confirmed_checked (by omega) hlater htrue
          · simp only [if_neg hle]
            exact missed_checked (by omega) hlater (fun m' hm' => hreached m' (by omega))

/-- **LOOKUP**: whatever is answered was the truth at some moment of the call at which
    the client was ready, retried or not. -/
theorem lookup_checked (hrel : Reliable deps G T B) {l : Lane} {key : l.Key} {start : Nat}
    (retry : Bool) (hs : start ≤ n) :
    Checked ρ T B (lookup l key retry) (Answered ρ T l key start) n := by
  have race : ∀ m, Checked ρ T B (pure (.error .revisionRace)) (Answered ρ T l key start) m :=
    fun m => Wp.ret (answered_error (fun h => nomatch h))
  have final : ∀ m, start ≤ m → Checked ρ T B (attempt l key (pure (.error .revisionRace)))
      (Answered ρ T l key start) m :=
    fun m hm => attempt_checked hrel hm (fun m' _ => race m')
  cases retry with
  | false => exact final n hs
  | true =>
      refine attempt_checked hrel hs ?_
      intro m hm
      refine Checked.perform (fun _ => trivial) ?_
      intro m₁ hm₁ _ x ready new _ _
      match ready with
      | true => exact final _ (by omega)
      | false => exact race _

/-! ## All calls -/

/-- Creating a bucket needs no promise; what it learns goes into the required
    revision. -/
private theorem createVBucket_checked (accessKeyID bucketName locationConstraint : Bytes) :
    Checked ρ T B (createVBucket accessKeyID bucketName locationConstraint)
      (fun _ _ => True) n := by
  refine Checked.perform (fun _ => trivial) ?_
  intro m _ _ x view new _ _
  match view with
  | .error e => exact Wp.ret trivial
  | .ok (revision, epoch) =>
      refine Checked.perform (fun _ => trivial) ?_
      intro m₁ _ _ x₁ answer new₁ _ _
      match answer with
      | .error code => exact Wp.ret trivial
      | .ok response =>
          refine Checked.perform (fun _ => trivial) ?_
          intro m₂ _ _ x₂ committed new₂ _ _
          match committed with
          | true => exact Wp.ret trivial
          | false => exact Wp.ret trivial

/-- Neither does a listing, which is not cached. -/
private theorem listVBuckets_checked (accessKeyID : Bytes) :
    Checked ρ T B (listVBuckets accessKeyID) (fun _ _ => True) n := by
  refine Checked.perform (fun _ => trivial) ?_
  intro m _ _ x view new _ he
  have hview := exec_lookupSnapshot he
  match view with
  | .error e => exact Wp.ret trivial
  | .ok (revision, epoch) =>
      obtain ⟨-, hrev, -⟩ := lookupSnapshot_ok hview
      refine Checked.perform (fun _ => trivial) ?_
      intro m₁ hm₁ _ x₁ answer new₁ _ _
      match answer with
      | .error code => exact Wp.ret trivial
      | .ok none =>
          refine Checked.perform (fun _ => trivial) ?_
          intro m₂ _ _ x₂ done new₂ _ _
          exact Wp.ret trivial
      | .ok (some resp) =>
          refine Wp.perform ?_
          intro m₂ hm₂ _
          -- the one promise on the way: the expected revision has been reached
          refine ⟨?_, ?_⟩
          · show revision ≤ (clientAt ρ m₂).sync.revision
            rw [← hrev]
            exact (run_progress ρ (by omega)).revision
          intro x₂ agreed new₂ _ _
          match agreed with
          | false => exact Wp.ret trivial
          | true =>
              refine Checked.perform (fun _ => trivial) ?_
              intro m₃ _ _ x₃ current new₃ _ _
              match current with
              | false => exact Wp.ret trivial
              | true =>
                  simp only [if_pos]
                  cases listedVBuckets resp.buckets with
                  | error e => exact Wp.ret trivial
                  | ok buckets =>
                      refine Checked.perform (fun _ => trivial) ?_
                      intro m₄ _ _ x₄ still new₄ _ _
                      match still with
                      | true => exact Wp.ret trivial
                      | false => exact Wp.ret trivial

/-- **EVERY CALL** keeps its promises and answers as its postcondition says. -/
theorem call_checked (hrel : Reliable deps G T B) (c : Call) {start : Nat} (hs : start ≤ n) :
    Checked ρ T B c.program (CallPost ρ T start c) n := by
  cases c with
  | beginResolution =>
      refine Checked.perform (fun _ => trivial) ?_
      intro m hm _ x view new _ he
      have hview := exec_lookupSnapshot he
      match view with
      | .error e => exact Wp.ret (fun stamp h => nomatch h)
      | .ok (revision, epoch) =>
          obtain ⟨hready, hrev, hepoch⟩ := lookupSnapshot_ok hview
          refine Wp.ret ?_
          intro stamp h
          cases Except.ok.inj h
          -- the moment is the one at which the lock was held
          exact ⟨m, by omega, Nat.lt_succ_self m, ⟨hready, hrev⟩, hepoch⟩
  | validateResolution stamp =>
      refine Checked.single ?_
      intro m hm _
      refine ⟨trivial, ?_⟩
      intro x current new _ he hc
      subst hc
      obtain ⟨hready, hrev, hepoch⟩ := stillCurrent_true (exec_stillCurrent he)
      exact ⟨m, by omega, Nat.lt_succ_self m, ⟨hready, hrev⟩, hepoch⟩
  | lookupCredentials | lookupVBucket => exact lookup_checked hrel true hs
  | lookupBaseHost hostname =>
      refine Checked.single ?_
      intro m hm _
      refine ⟨trivial, ?_⟩
      intro x answer new _ he
      exact ⟨m, by omega, Nat.lt_succ_self m, exec_lookupBaseHost he⟩
  | createVBucket accessKeyID bucketName locationConstraint =>
      exact createVBucket_checked accessKeyID bucketName locationConstraint
  | listVBuckets accessKeyID => exact listVBuckets_checked accessKeyID
  | now => exact Checked.single (fun _ _ _ => ⟨trivial, fun _ _ _ _ _ => trivial⟩)

/-- **CALLER RULE**: a caller may assume each call's postcondition. -/
theorem Checked.call (hrel : Reliable deps G T B) {c : Call} {k : c.Res → Caller β}
    (h : ∀ r m, n ≤ m → CallPost ρ T n c r m → Checked ρ T B (interpret (k r)) post m) :
    Checked ρ T B (interpret (.act c k)) post n :=
  Wp.bind ((call_checked hrel c (Nat.le_refl n)).weaken (fun r m hm hr => h r m hm hr))

/-- Whatever a caller does with the client, it keeps the promises. -/
theorem caller_checked (hrel : Reliable deps G T B) (p : Caller β) :
    Checked ρ T B (interpret p) (fun _ _ => True) n := by
  induction p generalizing n with
  | ret a => exact trivial
  | act c k ih => exact Checked.call hrel (fun r m _ _ => ih r)

/-- What is known of a call's answer stays known. -/
theorem callPost_stable (start : Nat) (c : Call) : Stable (CallPost ρ T start c) := by
  intro r n m hnm h
  cases c with
  | beginResolution =>
      intro stamp hr
      obtain ⟨k, h1, h2, h3⟩ := h stamp hr
      exact ⟨k, h1, by omega, h3⟩
  | validateResolution stamp =>
      intro hr
      obtain ⟨k, h1, h2, h3⟩ := h hr
      exact ⟨k, h1, by omega, h3⟩
  | lookupCredentials | lookupVBucket =>
      intro v hv
      obtain ⟨k, rev, h1, h2, h3⟩ := h v hv
      exact ⟨k, rev, h1, by omega, h3⟩
  | lookupBaseHost hostname =>
      obtain ⟨k, h1, h2, h3⟩ := h
      exact ⟨k, h1, by omega, h3⟩
  | createVBucket | listVBuckets | now => trivial

/-- **RETURNED CALLERS**: a caller checked from its start has met its postcondition when
    it has returned. -/
theorem caller_returns (hA : ∀ n, Trusted ρ T B n) {job : Caller α} {post : α → Nat → Prop}
    (hs : Stable post) {i j t : Nat} {b : Option α} (hcall : ρ.label i = .spawn t job)
    (hjob : Checked ρ T B (interpret job) post (i + 1))
    (hret : ρ.thread j t = some (.ret b)) : ∃ a, b = some a ∧ post a j := by
  have hpost : Stable (fun (b : Option α) n => ∃ a, b = some a ∧ post a n) := by
    rintro b n m hnm ⟨a, hb, ha⟩
    exact ⟨a, hb, hs a n m hnm ha⟩
  have hbody : Checked ρ T B ((interpret job).bind (fun a => .ret (some a)))
      (fun b n => ∃ a, b = some a ∧ post a n) (i + 1) := by
    refine Wp.bind (hjob.weaken ?_)
    intro a m _ ha
    exact ⟨a, rfl, ha⟩
  exact ρ.returns_wp hA hpost hcall hbody hret

/-- **RETURNED CALLS**: what a thread that makes one call and reports `f` of its answer
    has returned. -/
theorem call_returns (hrel : Reliable deps G T B) (hA : ∀ n, Trusted ρ T B n) {c : Call}
    {f : c.Res → α} {i j t : Nat} {b : Option α}
    (hcall : ρ.label i = .spawn t (.act c (fun r => .ret (f r))))
    (hret : ρ.thread j t = some (.ret b)) :
    ∃ r, b = some (f r) ∧ CallPost ρ T (i + 1) c r j := by
  have hpost : Stable (fun (a : α) n => ∃ r, a = f r ∧ CallPost ρ T (i + 1) c r n) := by
    rintro a n m hnm ⟨r, ha, hr⟩
    exact ⟨r, ha, callPost_stable (i + 1) c r n m hnm hr⟩
  obtain ⟨a, hb, r, ha, hr⟩ := caller_returns hA hpost hcall
    (Checked.call hrel (fun r m _ hr => ⟨r, rfl, hr⟩)) hret
  exact ⟨r, by rw [hb, ha], hr⟩

/-- **TRUST RULE**: an invariant that survives every operation performed under its
    promise and every move of `Run` holds throughout, and so does soundness of the loads;
    every thread keeps its promises. -/
theorem run_trusted (hrel : Reliable deps G T B) (h0 : B (SystemState.init lim))
    (hop : ∀ o x s r s' (new : List (Program (Option α))), B s → Promise T o s → G.op o x s →
      exec deps o x s = some (r, s', new) → B s')
    (henv : ∀ e s s', B s → G.env e s → move deps e s = some s' → B s') :
    ∀ n, Trusted ρ T B n ∧
      ∀ p ∈ (ρ.cfg n).pool, Checked ρ T B p (fun _ _ => True) n := by
  -- the start, an idle moment, a move of the loop, an operation, a new caller
  refine ρ.threads_wp ?_ ?_ ?_ ?_ ?_
  · rw [Trusted, ρ.at_zero]
    exact ⟨h0, init_loadsSound T lim⟩
  · intro n hA hs
    rw [Trusted, hs]
    exact hA
  · intro n e hA hg hm
    refine ⟨henv e _ _ hA.1 hg hm, ?_⟩
    have hloads := (move_cases hm).loads_eq
    exact ⟨hloads ▸ hA.2.wf, hloads ▸ hA.2.results⟩
  · intro n o x r new hA hpre hg he
    have hstep : LoadsStep deps o (ρ.at n) (ρ.at (n + 1)) new := exec_loads he
    refine ⟨⟨hop o x _ r _ new hA.1 hpre hg he, hstep.sound hA.2 ?_⟩, ?_⟩
    · intro l call result ho
      subst ho
      exact hpre
    · intro p hp
      cases hstep with
      | same _ new_eq | publish l call result _ _ new_eq | close l call _ _ new_eq =>
          rw [new_eq] at hp; exact nomatch hp
      -- a load has to be shown to keep its promises when it is started
      | start l key revision epoch op_eq loads_eq new_eq =>
          subst op_eq
          rw [new_eq] at hp
          rw [List.mem_singleton.mp hp]
          refine Wp.bind ((loader_checked hrel ?_ ?_).weaken (fun _ _ _ _ => Wp.ret trivial))
          · exact Nat.le_trans hpre (run_progress ρ (Nat.le_succ n)).revision
          · rw [loads_eq, Function.update_self]
            exact Loads.start_startedFor _ _
  · intro j n
    exact Wp.bind ((caller_checked hrel j).weaken (fun _ _ _ _ => Wp.ret trivial))

end

end ControlPlane
