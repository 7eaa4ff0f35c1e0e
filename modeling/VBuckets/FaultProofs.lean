import VBuckets.ReadinessProofs

/-! # Protocol faults

    What `processWatch` leaves behind when it returns an error.  Every exit under the
    lock passes through the deferred part and fails closed; the check for a frame without
    event comes before the lock and leaves the client as it is, so the fault is closed by
    the caller: `connect` returns, and the only move left to it is `markDisconnected`.

    Whatever the outcome, the accepted position stays, and no frame brings a key into a
    cache: a removal is written only where the key was found. -/

namespace ControlPlane

open ByteString LocalCache Interleaving Mapping

/-- The client has failed closed: it is not ready, and needs a barrier to become so. -/
structure Client.FailedClosed (c : Client) : Prop where
  not_ready : c.sync.state ≠ .ready
  barrier : c.sync.barrierRequired = true

/-- The accepted position and the registry are what they were. -/
structure Client.KeepsPosition (c c' : Client) : Prop where
  revision : c'.sync.revision = c.sync.revision
  cursor : c'.sync.cursor = c.sync.cursor
  required : c'.sync.requiredRevision = c.sync.requiredRevision
  baseHosts : c'.sync.baseHosts = c.sync.baseHosts

/-- A lane's cache has an entry for this key, expired or not. -/
def Caches.Names (c : Caches) (l : Lane) (key : Bytes) : Prop := ∃ e, c.Holds l key e

section
variable {c c' : Client} {l : Lane} {key : Bytes}

theorem Client.KeepsPosition.of_sync_eq (h : c'.sync = c.sync) : c.KeepsPosition c' := by
  refine ⟨?_, ?_, ?_, ?_⟩ <;> rw [h]

theorem Client.KeepsPosition.of_fail (h : c'.sync = c.sync.fail) : c.KeepsPosition c' := by
  refine ⟨?_, ?_, ?_, ?_⟩
  all_goals
    rw [h, Sync.fail]
    simp

theorem Client.FailedClosed.of_fail (h : c'.sync = c.sync.fail) : c'.FailedClosed := by
  refine ⟨?_, ?_⟩
  · rw [h, Sync.fail, Sync.transition_state]
    split
    · exact fun hs => by cases hs
    · exact fun hs => by cases hs
  · rw [h, Sync.fail, Sync.transition_barrierRequired]

theorem Caches.Within.names {d d' : Caches} (h : d'.Within d) (hk : d'.Names l key) :
    d.Names l key := by
  obtain ⟨e, he⟩ := hk
  exact ⟨e, h l key e he⟩

/-! ## Reading the cache -/

/-- The first half touches one cache and takes entries out of it at most. -/
theorem watchRead_spec (c : Client) (delta : WatchEvent) (now : Time) :
    (c.watchRead delta now).2.sync = c.sync ∧
      (c.watchRead delta now).2.caches.Within c.caches := by
  simp only [Client.watchRead]
  cases c.sync.watchedKey delta with
  | none => exact ⟨rfl, Caches.Within.refl _⟩
  | some lk =>
      refine ⟨rfl, Caches.setLane_within ?_⟩
      intro key e he
      exact holds_getIfPresent he

/-- A key that was found is there. -/
theorem watchRead_hot {delta : WatchEvent} {now : Time} {event : Event} {d : Invalidation l}
    (hevent : delta.event = some event) (hd : event.invalidation = some ⟨l, d⟩)
    (hot : (c.watchRead delta now).1 = true) : c.caches.Names l (l.cacheKey d.key) := by
  simp only [Client.watchRead] at hot
  cases hk : c.sync.watchedKey delta with
  | none => rw [hk] at hot; cases hot
  | some lk =>
      rw [hk] at hot
      rw [Sync.watchedKey] at hk
      split at hk
      · rw [hevent, Option.bind_some, hd, Option.map_some] at hk
        cases hk
        obtain ⟨v, hv⟩ := Option.isSome_iff_exists.mp hot
        exact ⟨v, holds_of_getIfPresent hv⟩
      · cases hk

/-! ## Acting on the answer -/

/-- A delta writes under its own key, and only when the key was found. -/
theorem applyInvalidation_names {d : Invalidation l} {revision : Nat} {hot : Bool} {now : Time}
    {cache cache' : Cache Bytes (Cached l.Value)} {out : Option Message}
    (h : applyInvalidation l d revision hot now cache = (out, cache')) {v : Cached l.Value}
    (hv : cache'.Holds key v) :
    (∃ v', cache.Holds key v') ∨ (hot = true ∧ key = l.cacheKey d.key) := by
  have hcache : cache' = (applyInvalidation l d revision hot now cache).2 :=
    (congrArg Prod.snd h).symm
  rw [hcache, applyInvalidation] at hv
  -- the branches: a bad lifetime, a removal, a malformed update, an update
  split at hv
  · split at hv
    · exact Or.inl ⟨v, (holds_invalidate hv).2⟩
    · split at hv
      · next hhot =>
          rcases holds_set hv with ⟨hk, _⟩ | hold
          · exact Or.inr ⟨hhot, hk⟩
          · exact Or.inl ⟨v, hold⟩
      · exact Or.inl ⟨v, hv⟩
  · split at hv
    · exact Or.inl ⟨v, hv⟩
    · split at hv
      · exact Or.inl ⟨v, (holds_invalidate hv).2⟩
      · exact Or.inl ⟨v, hv⟩

/-- What an accepted frame leaves in the caches was there, or was found there. -/
theorem Accepted.names {hasETLDPlusOne : Bytes → Bool} {delta : WatchEvent} {hot : Bool}
    {now : Time} (h : Accepted hasETLDPlusOne c delta hot now c') (hk : c'.caches.Names l key) :
    c.caches.Names l key ∨ (hot = true ∧ ∃ event d, delta.event = some event ∧
      event.invalidation = some ⟨l, d⟩ ∧ key = l.cacheKey d.key) := by
  cases h with
  | snapshotBegin event_eq =>
      obtain ⟨e, he⟩ := hk
      cases l with
      | credentials | vbuckets => exact absurd he holds_invalidateAll
  | snapshotBarrier | resumeBarrier | heartbeat | snapshotEntry => exact Or.inl hk
  -- only a mutation writes an entry, and only under a key that was found
  | mutation event c₁ event_eq expected applied =>
      cases applied with
      | baseHost d hosts hosts_eq => exact Or.inl hk
      | lane l' d cache hd cache_eq =>
          obtain ⟨e, he⟩ := hk
          by_cases hl : l = l'
          · subst hl
            have he' : ((c.caches.setLane l cache).lane l).Holds key e := he
            rw [Caches.lane_setLane] at he'
            rcases applyInvalidation_names cache_eq he' with hold | ⟨hhot, hkey⟩
            · exact Or.inl hold
            · exact Or.inr ⟨hhot, event, d, event_eq, hd, hkey⟩
          · have he' : ((c.caches.setLane l' cache).lane l).Holds key e := he
            rw [Caches.lane_setLane_ne _ _ hl] at he'
            exact Or.inl ⟨e, he'⟩

/-! ## Frames -/

/-- The outcomes of `processWatch` on an error. -/
theorem processWatch_error {hasETLDPlusOne : Bytes → Bool} {delta : WatchEvent}
    {readAt applyAt : Time} {e : Message}
    (h : c.processWatch hasETLDPlusOne delta readAt applyAt = (some e, c')) :
    (delta.event = none ∧ c'.sync = c.sync) ∨
      (delta.event ≠ none ∧ c'.sync = c.sync.fail) := by
  obtain ⟨hsync, _⟩ := watchRead_spec c delta readAt
  have happly : (c.watchRead delta readAt).2.watchApply hasETLDPlusOne delta
      (c.watchRead delta readAt).1 applyAt = (some e, c') := h
  cases hevent : delta.event with
  | none =>
      simp only [Client.watchApply, hevent] at happly
      have hc : (c.watchRead delta readAt).2 = c' := congrArg Prod.snd happly
      exact Or.inl ⟨rfl, hc ▸ hsync⟩
  | some event =>
      refine Or.inr ⟨(fun hn => by cases hn), ?_⟩
      rcases watchApply_cases hasETLDPlusOne (c.watchRead delta readAt).2 delta
        (c.watchRead delta readAt).1 applyAt with ⟨hnone, _⟩ | ⟨e', c₁, hr, hrej⟩ | ⟨c₁, ha, _⟩
      · cases hevent.symm.trans hnone
      · rw [hr] at happly
        cases happly
        rw [hrej.sync_eq, hsync]
      · rw [ha] at happly
        cases congrArg Prod.fst happly

/-- A frame without event is refused before anything is read or locked. -/
theorem processWatch_empty {hasETLDPlusOne : Bytes → Bool} {delta : WatchEvent}
    (hevent : delta.event = none) (readAt applyAt : Time) :
    c.processWatch hasETLDPlusOne delta readAt applyAt = (some "empty watch event", c) := by
  have hkey : c.sync.watchedKey delta = none := by
    rw [Sync.watchedKey, hevent]
    split <;> rfl
  have hread : c.watchRead delta readAt = (false, c) := by
    rw [Client.watchRead, hkey]
  rw [Client.processWatch, hread]
  show c.watchApply hasETLDPlusOne delta false applyAt = _
  rw [Client.watchApply, hevent]

/-- No frame brings a key into a cache. -/
theorem processWatch_names {hasETLDPlusOne : Bytes → Bool} {delta : WatchEvent}
    {readAt applyAt : Time} {out : Option Message}
    (h : c.processWatch hasETLDPlusOne delta readAt applyAt = (out, c'))
    (hk : c'.caches.Names l key) : c.caches.Names l key := by
  obtain ⟨_, hread⟩ := watchRead_spec c delta readAt
  have happly : (c.watchRead delta readAt).2.watchApply hasETLDPlusOne delta
      (c.watchRead delta readAt).1 applyAt = (out, c') := h
  rcases watchApply_cases hasETLDPlusOne (c.watchRead delta readAt).2 delta
    (c.watchRead delta readAt).1 applyAt with ⟨_, hr⟩ | ⟨e, c₁, hr, hrej⟩ | ⟨c₁, hr, _, hacc⟩
  · rw [hr] at happly
    cases happly
    exact hread.names hk
  · rw [hr] at happly
    cases happly
    exact hread.names (hrej.within.names hk)
  · rw [hr] at happly
    cases happly
    rcases hacc.names hk with hold | ⟨hhot, event, d, hevent, hd, rfl⟩
    · exact hread.names hold
    · exact watchRead_hot hevent hd hhot

/-- The end of a connection fails closed and keeps the position. -/
theorem markDisconnected_closes {s s' : SystemState} {deps : Deps} {e : Env}
    (hrun : s.run = .closing) (h : move deps e s = some s') :
    e = .markDisconnected ∧ s'.client.FailedClosed ∧ s.client.KeepsPosition s'.client := by
  cases e with
  | markDisconnected =>
      simp only [move, hrun] at h
      cases h
      refine ⟨rfl, ⟨?_, rfl⟩, ?_⟩
      · show (s.client.sync.transition .disconnected).state ≠ .ready
        rw [Sync.transition_state]
        split
        · exact fun hs => by cases hs
        · exact fun hs => by cases hs
      · refine ⟨?_, ?_, ?_, ?_⟩
        · exact Sync.transition_revision _ _
        · exact Sync.transition_cursor _ _
        · exact Sync.transition_requiredRevision _ _
        · exact Sync.transition_baseHosts _ _
  | _ =>
      simp only [move, hrun] at h
      cases h

end

/-- **FAULTS FAIL CLOSED**: an error of `processWatch` keeps the accepted position and the
    registry, and the client it leaves has failed closed exactly when the frame had an
    event or the client had failed closed before; without an event it leaves the client as
    it was.  No frame adds a key to a cache.  A fault ends the connection in every case:
    `connect` is then closing, and its one move fails the client closed at the same
    position. -/
theorem faults_fail_closed (deps : Deps) (c : Client) (delta : WatchEvent)
    (readAt applyAt : Time) :
    (∀ e c', c.processWatch deps.hasETLDPlusOne delta readAt applyAt = (some e, c') →
      c.KeepsPosition c' ∧ (c'.FailedClosed ↔ delta.event ≠ none ∨ c.FailedClosed) ∧
        (delta.event = none → c' = c)) ∧
    (∀ out c', c.processWatch deps.hasETLDPlusOne delta readAt applyAt = (out, c') →
      ∀ l key, c'.caches.Names l key → c.caches.Names l key) ∧
    (∀ st loads e c', c.processWatch deps.hasETLDPlusOne delta readAt applyAt = (some e, c') →
      ∃ s s' : SystemState,
        move deps (.receive delta readAt) ⟨c, .streaming st, loads⟩ = some s ∧
        move deps (.apply applyAt) s = some s' ∧ s'.client = c' ∧
        (∃ s'', move deps .markDisconnected s' = some s'') ∧
        ∀ env s'', move deps env s' = some s'' →
          env = .markDisconnected ∧ s''.client.FailedClosed ∧
            c.KeepsPosition s''.client) := by
  refine ⟨?_, ?_, ?_⟩
  · intro e c' h
    -- an empty frame returns before the lock, any other error runs the deferred part
    rcases processWatch_error h with ⟨hevent, hsync⟩ | ⟨hevent, hsync⟩
    · refine ⟨.of_sync_eq hsync, ⟨?_, ?_⟩, fun _ => ?_⟩
      · intro hc
        exact Or.inr ⟨hsync ▸ hc.not_ready, hsync ▸ hc.barrier⟩
      · rintro (hne | hc)
        · exact absurd hevent hne
        · exact ⟨hsync.symm ▸ hc.not_ready, hsync.symm ▸ hc.barrier⟩
      · exact congrArg Prod.snd (h.symm.trans (processWatch_empty hevent readAt applyAt))
    · exact ⟨.of_fail hsync, ⟨fun _ => Or.inl hevent, fun _ => .of_fail hsync⟩,
        fun hnone => absurd hnone hevent⟩
  · intro out c' h l key hk
    exact processWatch_names h hk
  · intro st loads e c' h
    -- the two halves of `processWatch` are the moves `receive` and `apply`
    have happly : (c.watchRead delta readAt).2.watchApply deps.hasETLDPlusOne delta
        (c.watchRead delta readAt).1 applyAt = (some e, c') := h
    have hpos : c.KeepsPosition c' := by
      rcases processWatch_error h with ⟨_, hsync⟩ | ⟨_, hsync⟩
      · exact .of_sync_eq hsync
      · exact .of_fail hsync
    refine ⟨_, ⟨c', .closing, loads⟩, rfl, ?_, rfl, ⟨_, rfl⟩, ?_⟩
    · simp only [move, happly]
    · intro env s'' hmove
      obtain ⟨henv, hclosed, hkept⟩ := markDisconnected_closes rfl hmove
      exact ⟨henv, hclosed, hkept.revision.trans hpos.revision,
        hkept.cursor.trans hpos.cursor, hkept.required.trans hpos.required,
        hkept.baseHosts.trans hpos.baseHosts⟩

/-- A ready client, as the boot sequence leaves it. -/
theorem exists_ready_run :
    ∃ ρ : Run sampleMachine sampleInit (Guard.any sampleMachine),
      clientAt ρ 8 = SystemState.client (played sampleInit bootScript).shared := by
  obtain ⟨ρ, _, hcfg⟩ := exists_run (M := sampleMachine) (G := Guard.any sampleMachine)
    (show (after ⟨sampleInit, []⟩ bootScript).isSome = true from rfl) (Guard.any_admitsAll _ _)
  exact ⟨ρ, congrArg (fun cfg => SystemState.client cfg.shared) (hcfg 8 (by decide))⟩

/-- A heartbeat for a revision that was never accepted fails a ready client closed. -/
theorem faults_fail_closed_after_boot :
    ∃ ρ : Run sampleMachine sampleInit (Guard.any sampleMachine),
      (clientAt ρ 8).sync.state = .ready ∧
      ∃ c', (clientAt ρ 8).processWatch sampleDeps.hasETLDPlusOne
          ⟨some .heartbeat, 2, ascii "c2"⟩ 0 0 =
            (some "heartbeat does not match accepted revision/cursor", c') ∧
        c'.FailedClosed ∧ c'.sync.revision = 1 := by
  obtain ⟨ρ, hclient⟩ := exists_ready_run
  refine ⟨ρ, ?_⟩
  rw [hclient]
  have hfault := (faults_fail_closed sampleDeps
    (SystemState.client (played sampleInit bootScript).shared)
    ⟨some .heartbeat, 2, ascii "c2"⟩ 0 0).1 _ _ rfl
  exact ⟨rfl, _, rfl, hfault.2.1.mpr (Or.inl (fun h => nomatch h)), hfault.1.revision⟩

/-- A frame without event. -/
def emptyFrame : WatchEvent := ⟨none, 2, ascii "c2"⟩

/-- A reached client that is ready stays ready when `processWatch` returns its error for a
    frame without event. -/
theorem empty_frame_leaves_ready :
    ∃ ρ : Run sampleMachine sampleInit (Guard.any sampleMachine),
      (clientAt ρ 8).sync.state = .ready ∧
      ∃ c', (clientAt ρ 8).processWatch sampleDeps.hasETLDPlusOne emptyFrame 0 0 =
        (some "empty watch event", c') ∧ c'.sync.state = .ready ∧
          c'.sync.barrierRequired = false := by
  obtain ⟨ρ, hclient⟩ := exists_ready_run
  refine ⟨ρ, ?_⟩
  rw [hclient]
  exact ⟨rfl, _, rfl, rfl, rfl⟩

end ControlPlane
