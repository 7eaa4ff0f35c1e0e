import VBuckets.RegistryProofs

/-! # Lookup freshness

    Over a conforming peer every value a lookup returns is the log's value of its key at a
    revision the client was ready at during the call.  The invariant is about the caches:
    an entry loaded at revision `e` is the log's value at every revision from `e` to the
    client's own.  A delta that could break this finds the entry and replaces or drops it
    before the revision advances; a snapshot starts from empty caches.

    A cache key determines its access key and bucket as long as neither contains a slash,
    which is all that is assumed of the keys asked for. -/

namespace ControlPlane

open ByteString LocalCache Interleaving

/-! ## Keys -/

/-- Keys a caller may ask for: no slash in an access key or bucket name. -/
def ValidKey : (l : Lane) → l.Key → Prop
  | .credentials, _ => True
  | .vbuckets, (accessKeyID, bucketName) => 47 ∉ accessKeyID ∧ 47 ∉ bucketName

/-- Without slashes in its parts, a cache key belongs to one mapping. -/
theorem vbucketCacheKey_inj {a b a' b' : Bytes} (ha : 47 ∉ a) (hb : 47 ∉ b)
    (h : vbucketCacheKey a' b' = vbucketCacheKey a b) : a' = a ∧ b' = b := by
  have h' : a' ++ 47 :: b' = a ++ 47 :: b := by
    have hslash : ascii "/" = [47] := rfl
    simpa [vbucketCacheKey, hslash] using h
  rcases List.append_eq_append_iff.mp h' with ⟨x, hx, hy⟩ | ⟨x, hx, hy⟩
  · cases x with
    | nil =>
        rw [List.append_nil] at hx
        exact ⟨hx.symm, (List.cons.inj hy).2⟩
    | cons c x =>
        have hc : (47 : UInt8) = c := (List.cons.inj hy).1
        exact absurd (by rw [hx, hc]; simp) ha
  · cases x with
    | nil =>
        rw [List.append_nil] at hx
        exact ⟨hx, (List.cons.inj hy).2.symm⟩
    | cons c x =>
        exact absurd (by rw [(List.cons.inj hy).2]; simp) hb

/-- No other key shares the cache key of a valid one. -/
theorem cacheKey_inj {l : Lane} {key key' : l.Key} (hv : ValidKey l key)
    (h : l.cacheKey key' = l.cacheKey key) : key' = key := by
  cases l with
  | credentials => exact h
  | vbuckets =>
      obtain ⟨ha, hb⟩ := hv
      obtain ⟨h1, h2⟩ := vbucketCacheKey_inj ha hb h
      exact Prod.ext h1 h2

/-! ## The log as a truth -/

section
variable {log : Log} {l : Lane} {r : Nat} {k : Bytes} {v : Option l.Value}

/-- What the log says under a cache key. -/
def Log.truth (log : Log) : Truth :=
  fun l r k v => ∀ key, ValidKey l key → l.cacheKey key = k → log.value l r key = v

theorem Log.truth_of_value {key : l.Key} (h : log.value l r key = v) :
    log.truth l r (l.cacheKey key) v := by
  intro key' hv hk
  rw [← cacheKey_inj hv hk.symm]
  exact h

theorem Log.truth_of_removal {d : Invalidation l}
    (h : (log.event r).invalidation = some ⟨l, d⟩) (hr : d.remove = true) :
    log.truth l r (l.cacheKey d.key) none :=
  Log.truth_of_value (log.removed l r d h hr)

/-- A truth survives a revision whose delta names another key. -/
theorem Log.truth_succ (h : log.truth l r k v)
    (hother : ∀ d : Invalidation l, (log.event (r + 1)).invalidation = some ⟨l, d⟩ →
      l.cacheKey d.key ≠ k) : log.truth l (r + 1) k v := by
  intro key hv hk
  rw [← h key hv hk]
  by_contra hne
  obtain ⟨d, hd, hkey⟩ := log.changed l r key hne
  exact hother d hd (by rw [hkey]; exact hk)

end

/-! ## The caches -/

/-- An entry is the log's value from its own revision up to `revision`. -/
def Log.Valid (log : Log) (l : Lane) (k : Bytes) (e : Cached l.Value) (revision : Nat) : Prop :=
  e.revision ≤ revision ∧ ∀ r, e.revision ≤ r → r ≤ revision → log.truth l r k e.value

section
variable {log : Log} {l : Lane} {k : Bytes} {e : Cached l.Value} {revision : Nat}

/-- An entry with the value of the present revision is valid. -/
theorem Log.valid_now (h : e.revision = revision) (ht : log.truth l revision k e.value) :
    log.Valid l k e revision := by
  refine ⟨Nat.le_of_eq h, ?_⟩
  intro r h1 h2
  have hr : r = revision := by omega
  rw [hr]
  exact ht

/-- It stays valid as long as no event names its key. -/
theorem Log.Valid.succ (h : log.Valid l k e revision)
    (hother : ∀ d : Invalidation l, (log.event (revision + 1)).invalidation = some ⟨l, d⟩ →
      l.cacheKey d.key ≠ k) : log.Valid l k e (revision + 1) := by
  refine ⟨Nat.le_succ_of_le h.1, ?_⟩
  intro r h1 h2
  by_cases hr : r ≤ revision
  · exact h.2 r h1 hr
  · have hr' : r = revision + 1 := by omega
    rw [hr']
    exact Log.truth_succ (h.2 revision h.1 (Nat.le_refl _)) hother

end

/-- What is cached is what the log has at the revision reached, for both caches.  Two
    further fields cover the moments when a frame is half processed. -/
structure SystemState.Fresh (log : Log) (s : SystemState) : Prop where
  held : ∀ l k (e : Cached l.Value), s.client.caches.Holds l k e →
    log.Valid l k e s.client.sync.revision
  /-- While a snapshot is staged, nothing is cached. -/
  staging : s.client.sync.snapshot ≠ none →
    ∀ l k (e : Cached l.Value), ¬ s.client.caches.Holds l k e
  /-- A key `processWatch` did not find stays unheld until the frame is done. -/
  cold : ∀ st delta, s.run = .processing st delta false →
    ∀ l k, s.client.sync.watchedKey delta = some (l, k) →
      ∀ e : Cached l.Value, ¬ s.client.caches.Holds l k e

/-- The invariant of a client over a conforming peer. -/
structure SystemState.Current (deps : Deps) (log : Log) (capacity : Nat) (s : SystemState) :
    Prop where
  inv : s.Inv
  follows : s.Follows deps.hasETLDPlusOne log capacity
  fresh : s.Fresh log

theorem init_current (deps : Deps) (log : Log) (lim : Limits) :
    (SystemState.init lim).Current deps log lim.maxBaseHosts := by
  refine ⟨init_inv lim, init_follows lim, ?_, ?_, ?_⟩
  · intro l k e h
    exact absurd h (fun h => newCaches_holds h)
  · intro h; exact absurd rfl h
  · intro st delta h; exact nomatch h

/-! ## Operations -/

/-- Operations of callers keep the caches fresh.  The one that stores an entry is
    allowed to by its promise: the entry is true at the revision it is stored at. -/
theorem OpStep.fresh {log : Log} {o : Op} {s s' : SystemState} (hinv : s.Inv) (h : s.Fresh log)
    (hpre : Promise log.truth o s) (hs : OpStep o s s') : s'.Fresh log := by
  have hv := hs.sync.sameView
  -- entries are true at their revision, none is there during a snapshot, and a key that was
  -- not found while the lock is held is not filled in
  refine ⟨?_, ?_, ?_⟩
  · intro l k e he
    rw [hv.revision]
    rcases hs.caches l k e he with hold | ⟨key, revision, epoch, ho, hk, -, -, hrev, -⟩
    · exact h.held l k e hold
    · subst ho hk
      refine Log.valid_now hrev ?_
      rw [← hrev]
      exact hpre
  · intro hsnap l k e he
    rw [hv.snapshot] at hsnap
    rcases hs.caches l k e he with hold | ⟨key, revision, epoch, -, -, -, hready, -, -⟩
    · exact h.staging hsnap l k e hold
    · exact hsnap (hinv.sync.ready hready).1
  · intro st delta hrun l k hkey e he
    rw [hs.run_eq] at hrun
    have hlocked : s.locked = true := by simp only [SystemState.locked, hrun]
    rw [hs.locked hlocked] at hkey
    rcases hs.caches l k e he with hold | ⟨key, revision, epoch, -, -, hfree, -⟩
    · exact h.cold st delta hrun l k hkey e hold
    · rw [hlocked] at hfree
      exact nomatch hfree

/-! ## Frames -/

/-- What a lane holds after a delta: other keys as before, a tombstone of the delta's own
    revision, or, if the key was not found, whatever it held. -/
theorem applyInvalidation_holds {l : Lane} {d : Invalidation l} {revision : Nat} {hot : Bool}
    {now : Time} {c c' : Cache Bytes (Cached l.Value)}
    (h : applyInvalidation l d revision hot now c = (none, c')) {k : Bytes}
    {e : Cached l.Value} (he : c'.Holds k e) :
    (k ≠ l.cacheKey d.key ∧ c.Holds k e) ∨
    (k = l.cacheKey d.key ∧ d.remove = true ∧ e.value = none ∧ e.revision = revision) ∨
    (hot = false ∧ c.Holds k e) := by
  simp only [applyInvalidation] at h
  -- a removal leaves a tombstone, a change removes the entry, each only if the key is hot
  by_cases hr : d.remove = true
  · rw [if_pos hr] at h
    cases ht : cacheTTL (l.text ++ " removal") d.negativeTTL with
    | error m => simp only [ht] at h; cases congrArg Prod.fst h
    | ok ttl =>
        simp only [ht] at h
        cases hot with
        | false =>
            cases congrArg Prod.snd h
            exact Or.inr (Or.inr ⟨rfl, he⟩)
        | true =>
            have hc : c.set (l.cacheKey d.key) ⟨none, revision, ttl⟩ ttl now = c' :=
              congrArg Prod.snd h
            rw [← hc] at he
            by_cases hk : k = l.cacheKey d.key
            · subst hk
              have hv := holds_set_self (cacheTTL_pos ht) he
              exact Or.inr (Or.inl ⟨rfl, hr, by rw [hv], by rw [hv]⟩)
            · rcases holds_set he with ⟨hk', -⟩ | hold
              · exact absurd hk' hk
              · exact Or.inl ⟨hk, hold⟩
  · rw [if_neg hr] at h
    by_cases hn : d.negativeTTL.isSome = true
    · rw [if_pos hn] at h; cases congrArg Prod.fst h
    · rw [if_neg hn] at h
      cases hot with
      | false =>
          cases congrArg Prod.snd h
          exact Or.inr (Or.inr ⟨rfl, he⟩)
      | true =>
          cases congrArg Prod.snd h
          exact Or.inl (holds_invalidate he)

section
variable {hasETLDPlusOne : Bytes → Bool} {log : Log} {c c' : Client} {delta : WatchEvent}
  {hot : Bool} {now : Time} {after : Nat} {p p' : Phase}

/-- Entries stay valid over the log's next revision when its delta is applied. -/
theorem Applied.valid {event : Event}
    (hheld : ∀ l k (e : Cached l.Value), c.caches.Holds l k e →
      log.Valid l k e c.sync.revision)
    (hcold : hot = false → ∀ l k, c.sync.watchedKey delta = some (l, k) →
      ∀ e : Cached l.Value, ¬ c.caches.Holds l k e)
    (hev : delta.event = some event) (hx : c.sync.expectsMutation delta = true)
    (hlog : event = log.event (c.sync.revision + 1))
    (hrev : delta.revision = c.sync.revision + 1)
    (ha : Applied hasETLDPlusOne c event delta.revision hot now c') :
    ∀ l k (e : Cached l.Value), c'.caches.Holds l k e →
      log.Valid l k e (c.sync.revision + 1) := by
  intro l k e he
  cases ha with
  | baseHost d hosts event_eq =>
      refine (hheld l k e he).succ ?_
      intro d' hd'
      rw [← hlog, event_eq] at hd'
      exact nomatch hd'
  | lane l₀ d cache event_eq cache_eq =>
      -- entries whose key the delta does not name
      have other : c.caches.Holds l k e →
          (∀ hl : l = l₀, k ≠ l₀.cacheKey d.key) → log.Valid l k e (c.sync.revision + 1) := by
        intro hold hne
        refine (hheld l k e hold).succ ?_
        intro d' hd' hk
        rw [← hlog, event_eq] at hd'
        cases Option.some.inj hd'
        exact hne rfl hk.symm
      by_cases hl : l = l₀
      · subst hl
        have he' : cache.Holds k e := by
          have hlane : ((c.caches.setLane l cache).lane l).Holds k e := he
          rw [Caches.lane_setLane] at hlane
          exact hlane
        rcases applyInvalidation_holds cache_eq he' with
          ⟨hk, hold⟩ | ⟨hk, hr, hnone, hrevision⟩ | ⟨hcoldhot, hold⟩
        · exact other hold (fun _ => hk)
        · subst hk
          refine Log.valid_now (hrevision.trans hrev) ?_
          rw [hnone]
          exact Log.truth_of_removal (by rw [← hlog]; exact event_eq) hr
        · refine other hold ?_
          intro _ hk
          have hwatched : c.sync.watchedKey delta = some (l, l.cacheKey d.key) := by
            simp [Sync.watchedKey, hx, hev, event_eq]
          exact hcold hcoldhot l _ hwatched e (by rw [← hk]; exact hold)
      · refine other ?_ (fun h => absurd h hl)
        have hlane : ((c.caches.setLane l₀ cache).lane l).Holds k e := he
        rw [Caches.lane_setLane_ne _ _ hl] at hlane
        exact hlane

/-- **CACHE STEP**: an accepted frame of a conforming stream leaves valid entries. -/
theorem Accepted.valid
    (hheld : ∀ l k (e : Cached l.Value), c.caches.Holds l k e →
      log.Valid l k e c.sync.revision)
    (hstaging : c.sync.snapshot ≠ none → ∀ l k (e : Cached l.Value), ¬ c.caches.Holds l k e)
    (hcold : hot = false → ∀ l k, c.sync.watchedKey delta = some (l, k) →
      ∀ e : Cached l.Value, ¬ c.caches.Holds l k e)
    (ht : Tracks after c.sync p) (hn : log.next hasETLDPlusOne after p delta = some p')
    (hacc : Accepted hasETLDPlusOne c delta hot now c') :
    (∀ l k (e : Cached l.Value), c'.caches.Holds l k e →
      log.Valid l k e c'.sync.revision) ∧
    (c'.sync.snapshot ≠ none → ∀ l k (e : Cached l.Value), ¬ c'.caches.Holds l k e) := by
  cases hacc with
  | snapshotBegin =>
      have empty : ∀ l k (e : Cached l.Value), ¬ Caches.Holds
          ⟨c.caches.credentials.invalidateAll, c.caches.vbuckets.invalidateAll⟩ l k e := by
        intro l k e he
        cases l with
        | credentials | vbuckets => exact holds_invalidateAll he
      exact ⟨fun l k e he => absurd he (empty l k e), fun _ => empty⟩
  | snapshotBarrier snap event_eq snapshot_eq =>
      -- the revision jumps, but nothing is cached
      have hnone := hstaging (by rw [snapshot_eq]; exact fun h => nomatch h)
      exact ⟨fun l k e he => absurd he (hnone l k e), fun _ => hnone⟩
  | resumeBarrier event_eq no_snapshot =>
      have hv := Sync.SameView.resume c.sync
      refine ⟨?_, ?_⟩
      · rw [hv.revision]; exact hheld
      · intro hs
        exact absurd (hv.snapshot.trans no_snapshot) hs
  | heartbeat => exact ⟨hheld, hstaging⟩
  | snapshotEntry snap d domain event_eq snapshot_eq =>
      exact ⟨hheld, fun _ => hstaging (by rw [snapshot_eq]; exact fun h => nomatch h)⟩
  | mutation event c₁ event_eq expected applied =>
      obtain ⟨-, hsnap, -, -, hnext, -, -⟩ := Sync.expectsMutation_iff.mp expected
      obtain ⟨-, hlog⟩ := ht.mutation hn event_eq expected applied
      refine ⟨?_, ?_⟩
      · show ∀ l k (e : Cached l.Value), c₁.caches.Holds l k e →
          log.Valid l k e (c₁.sync.advance delta.revision delta.cursor).revision
        rw [Sync.advance_revision, hnext]
        exact applied.valid hheld hcold event_eq expected hlog hnext
      · intro hs
        have hsync := applied.sync_eq.1
        refine absurd ?_ hs
        show (c₁.sync.advance delta.revision delta.cursor).snapshot = none
        rw [(c₁.sync.advance_view _ _).1, hsync]
        exact hsnap

end

/-! ## Moves of `Run` -/

/-- A move that changes neither revision nor staging and adds nothing to the caches. -/
private theorem SystemState.Fresh.quiet {log : Log} {s s' : SystemState} (h : s.Fresh log)
    (hrev : s'.client.sync.revision = s.client.sync.revision)
    (hsnap : s'.client.sync.snapshot = s.client.sync.snapshot ∨ s'.client.sync.snapshot = none)
    (hw : s'.client.caches.Within s.client.caches)
    (hrun : ∀ st delta, s'.run ≠ .processing st delta false) : s'.Fresh log := by
  refine ⟨?_, ?_, ?_⟩
  · intro l k e he
    rw [hrev]
    exact h.held l k e (hw l k e he)
  · intro hs l k e he
    rcases hsnap with hsame | hnone
    · exact h.staging (by rw [← hsame]; exact hs) l k e (hw l k e he)
    · exact hs hnone
  · intro st delta hp
    exact absurd hp (hrun st delta)

/-- The read that begins a frame finds what is held under the watched key. -/
theorem Client.watchRead_cold {c : Client} {delta : WatchEvent} {now : Time}
    (h : (c.watchRead delta now).1 = false) {l : Lane} {k : Bytes}
    (hk : c.sync.watchedKey delta = some (l, k)) (e : Cached l.Value) :
    ¬ (c.watchRead delta now).2.caches.Holds l k e := by
  simp only [Client.watchRead, hk] at h ⊢
  intro he
  have he' : (((c.caches.setLane l ((c.caches.lane l).getIfPresent k now).2).lane l)).Holds k e :=
    he
  rw [Caches.lane_setLane] at he'
  exact not_holds_of_getIfPresent_none (Option.not_isSome_iff_eq_none.mp (by simp [h])) he'

/-- The first half of a frame adds nothing to the caches. -/
theorem Client.watchRead_within (c : Client) (delta : WatchEvent) (now : Time) :
    (c.watchRead delta now).2.caches.Within c.caches := by
  simp only [Client.watchRead]
  split
  · exact Caches.Within.refl _
  · exact c.readLane_within _ _ now

/-- The frames themselves make no entry stale either: a mutation that names a cached
    key replaces or removes its entry before the revision moves on. -/
theorem Moved.fresh {deps : Deps} {log : Log} {capacity : Nat} {e : Env} {s s' : SystemState}
    (h : s.Current deps log capacity) (hm : Moved deps s e s') : s'.Fresh log := by
  have hf := h.fresh
  have hstream := h.follows.stream
  cases hm with
  | receive st delta now run_eq =>
      have hsync := (s.client.watchRead_sync delta now).1
      have hw := s.client.watchRead_within delta now
      refine ⟨?_, ?_, ?_⟩
      · intro l k e he
        show log.Valid l k e (s.client.watchRead delta now).2.sync.revision
        rw [hsync]
        exact hf.held l k e (hw l k e he)
      · intro hs l k e he
        have hs' : (s.client.watchRead delta now).2.sync.snapshot ≠ none := hs
        rw [hsync] at hs'
        exact hf.staging hs' l k e (hw l k e he)
      · intro st' delta' hrun l k hk
        injection hrun with h1 h2 h3
        subst h2
        have hk' : (s.client.watchRead delta now).2.sync.watchedKey delta = some (l, k) := hk
        rw [hsync] at hk'
        exact Client.watchRead_cold h3 hk'
  | rejected st delta hot now c run_eq rejected =>
      have hv := Sync.SameView.fail s.client.sync
      refine hf.quiet ?_ (Or.inl ?_) rejected.within (fun _ _ h => nomatch h)
      · show c.sync.revision = _
        rw [rejected.sync_eq]; exact hv.revision
      · show c.sync.snapshot = _
        rw [rejected.sync_eq]; exact hv.snapshot
  | accepted st delta hot now c run_eq active accepted =>
      rw [run_eq] at hstream
      obtain ⟨p, p', -, hn, ht⟩ := hstream
      -- a key that was not found has not been stored since, as the lock was held
      have hcold : hot = false → ∀ l k, s.client.sync.watchedKey delta = some (l, k) →
          ∀ e : Cached l.Value, ¬ s.client.caches.Holds l k e := by
        intro hh l k hk
        subst hh
        exact hf.cold st delta run_eq l k hk
      obtain ⟨hheld, hstaging⟩ := accepted.valid hf.held hf.staging hcold ht hn
      exact ⟨hheld, hstaging, fun _ _ h => nomatch h⟩
  | connect | markDisconnected | stop =>
      exact hf.quiet (Sync.transition_revision _ _) (Or.inr rfl) (Caches.Within.refl _)
        (fun _ _ h => nomatch h)
  | openWatch =>
      exact hf.quiet (Sync.transition_revision _ _) (Or.inl (Sync.transition_snapshot _ _))
        (Caches.Within.refl _) (fun _ _ h => nomatch h)
  | _ =>
      exact hf.quiet rfl (Or.inl rfl) (Caches.Within.refl _) (fun _ _ h => nomatch h)

/-! ## Over a whole run -/

section
variable {deps : Deps} {α : Type} {lim : Limits} {log : Log}

/-- A conforming peer and current caches are what the calls rely on. -/
theorem Log.reliable (deps : Deps) (α : Type) (log : Log) (capacity : Nat) :
    Reliable deps (log.guard deps α) log.truth
      (fun s => s.Current deps log capacity) := by
  refine ⟨?_, ?_⟩
  · intro l key minimum x s hg resp e hresp he
    exact Log.truth_of_value (hg resp hresp e he)
  · intro s hs l k e he
    obtain ⟨hle, hvalid⟩ := hs.fresh.held l k e he
    exact ⟨hvalid e.revision (Nat.le_refl _) hle, hvalid⟩

/-- **FRESH**: in every state of every run against a conforming peer the client is
    current. -/
theorem run_current (ρ : Run (machine deps α) (SystemState.init lim) (log.guard deps α))
    (n : Nat) :
    Trusted ρ log.truth (fun s => s.Current deps log lim.maxBaseHosts) n := by
  refine (run_trusted (Log.reliable deps α log lim.maxBaseHosts) (init_current deps log lim)
    ?_ ?_ n).1
  · intro o x s r s' new h hpre _ he
    have hs := exec_spec he
    exact ⟨hs.inv h.inv, hs.follows h.follows, hs.fresh h.inv h.fresh hpre⟩
  · intro e s s' h hg hm
    have hmoved := move_cases hm
    exact ⟨hmoved.inv h.inv, hmoved.follows h.follows hg, hmoved.fresh h⟩

/-- **LOOKUP FRESHNESS**: over any conforming log and any interleaving, if a thread that
    was started at `i` to make one lookup has returned by `j`, then the value it was given
    (or its absence) is the log's value of the key at a revision the client was ready at,
    at some moment in between. -/
theorem lookup_freshness
    (ρ : Run (machine deps α) (SystemState.init lim) (log.guard deps α)) {i j t : Nat} :
    (∀ (f : Except LookupError VirtualCredentials → α) accessKeyID b,
      ρ.label i = .spawn t (.act (.lookupCredentials accessKeyID) (fun r => .ret (f r))) →
      ρ.thread j t = some (.ret b) →
      ∃ result, b = some (f result) ∧ ∀ v, reported result = some v →
        ∃ m r, i < m ∧ m < j ∧ ReadyAt ρ m r ∧ log.value .credentials r accessKeyID = v) ∧
    (∀ (f : Except LookupError Mapping.VBucketConfig → α) accessKeyID bucketName b,
      47 ∉ accessKeyID → 47 ∉ bucketName →
      ρ.label i = .spawn t
        (.act (.lookupVBucket accessKeyID bucketName) (fun r => .ret (f r))) →
      ρ.thread j t = some (.ret b) →
      ∃ result, b = some (f result) ∧ ∀ v, reported result = some v →
        ∃ m r, i < m ∧ m < j ∧ ReadyAt ρ m r ∧
          log.value .vbuckets r (accessKeyID, bucketName) = v) := by
  have hrel := Log.reliable deps α log lim.maxBaseHosts
  constructor
  · intro f accessKeyID b hcall hret
    obtain ⟨result, hb, hpost⟩ := call_returns hrel (run_current ρ) hcall hret
    refine ⟨result, hb, ?_⟩
    intro v hv
    obtain ⟨m, r, h1, h2, hready, htrue⟩ := hpost v hv
    exact ⟨m, r, h1, h2, hready, htrue accessKeyID trivial rfl⟩
  · intro f accessKeyID bucketName b ha hbk hcall hret
    obtain ⟨result, hb, hpost⟩ := call_returns hrel (run_current ρ) hcall hret
    refine ⟨result, hb, ?_⟩
    intro v hv
    obtain ⟨m, r, h1, h2, hready, htrue⟩ := hpost v hv
    exact ⟨m, r, h1, h2, hready, htrue (accessKeyID, bucketName) ⟨ha, hbk⟩ rfl⟩

end

/-- The peer's answer about the one access key. -/
def sampleResponse : LookupCredentialsResponse where
  secretKey := [115]
  iamPolicyJSON := []
  ttl := some ⟨true, 60000000000⟩
  found := true
  negativeTTL := none
  revision := 1

/-- Answers in which the credentials are found. -/
def sampleChoice : Choice :=
  { plainChoice with
    lookupResponse := fun l =>
      match l with
      | .credentials => .ok (some sampleResponse)
      | .vbuckets => .error .other }

/-- A lookup that misses, loads through its loader and returns. -/
def lookupScript : List (Label (machine sampleDeps (Except LookupError VirtualCredentials))) :=
  snapshotScript ++
    [.spawn 0 (.act (.lookupCredentials [107]) (fun r => .ret r)),
      .thread 0 sampleChoice, .thread 0 sampleChoice, .thread 0 sampleChoice,
      .thread 1 sampleChoice, .thread 1 sampleChoice, .thread 1 sampleChoice,
      .thread 1 sampleChoice, .thread 1 sampleChoice,
      .thread 0 sampleChoice, .thread 0 sampleChoice]

/-- The answer is the one the log gives. -/
def sampleTrusted : (l : Lane) → l.Key → l.Response → Bool
  | .credentials, key, resp => key = [107] && resp = sampleResponse
  | .vbuckets, _, _ => false

/-- The answers of the sample are those of its log. -/
theorem sampleTrusted_reports (l : Lane) (key : l.Key) (resp : l.Response)
    (h : sampleTrusted l key resp = true) : sampleLog.Reports sampleDeps l key resp := by
  cases l with
  | vbuckets => exact nomatch h
  | credentials =>
      simp only [sampleTrusted, Bool.and_eq_true, decide_eq_true_eq] at h
      obtain ⟨hkey, hresp⟩ := h
      subst hkey hresp
      intro e he
      cases he
      rfl

/-- A lookup that misses, loads and returns: the secret is the log's at a revision at
    which the client was ready during the call. -/
theorem lookup_freshness_of_load :
    ∃ ρ : Run (machine sampleDeps (Except LookupError VirtualCredentials)) sampleInit
        (sampleLog.guard sampleDeps (Except LookupError VirtualCredentials)),
      ρ.thread 21 0 = some (.ret (some (.ok ⟨[115], ⟨[]⟩⟩))) ∧
      ∃ m r, 10 < m ∧ m < 21 ∧ ReadyAt ρ m r ∧
        sampleLog.value .credentials r [107] = some ⟨[115], ⟨[]⟩⟩ := by
  obtain ⟨ρ, hlabel, hcfg⟩ := exists_run
    (show (after ⟨sampleInit, []⟩ lookupScript).isSome = true by decide +kernel)
    (Guard.admitsAll_of_check (Log.admits_of_check sampleDeps sampleTrusted sampleTrusted_reports)
      (by decide +kernel))
  have hret : ρ.thread 21 0 = some (.ret (some (.ok ⟨[115], ⟨[]⟩⟩))) := by
    show (ρ.cfg 21).pool[0]? = _
    rw [hcfg 21 (by decide)]
    rfl
  refine ⟨ρ, hret, ?_⟩
  obtain ⟨result, hb, hfresh⟩ := (lookup_freshness ρ (i := 10) (j := 21) (t := 0)).1 id [107] _
    (hlabel 10 _ rfl) hret
  have hr : .ok ⟨[115], ⟨[]⟩⟩ = result := Option.some.inj hb
  subst hr
  exact hfresh _ rfl

end ControlPlane
