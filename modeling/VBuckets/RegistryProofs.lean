import VBuckets.LogProofs

/-! # The base-domain registry refines the log

    Over a conforming peer the client's registry is the log's set of base domains at the
    client's own revision, from the first complete snapshot on and whatever happens to the
    connection.  A snapshot is staged beside the registry and replaces it, together with
    the revision, only at its barrier. -/

namespace ControlPlane

open ByteString Interleaving

/-! ## What leaves registry, revision and snapshot alone -/

/-- The fields a stream has to do with are the same. -/
structure Sync.SameView (s s' : Sync) : Prop where
  revision : s'.revision = s.revision
  snapshot : s'.snapshot = s.snapshot
  baseHosts : s'.baseHosts = s.baseHosts
  baseHostMax : s'.baseHostMax = s.baseHostMax

section
variable {s s' : Sync}

theorem Sync.SameView.refl (s : Sync) : s.SameView s := ⟨rfl, rfl, rfl, rfl⟩

/-- A change of state is not one of the view. -/
theorem Sync.SameView.transition (s : Sync) (state : State) : s.SameView (s.transition state) := by
  refine ⟨?_, ?_, ?_, ?_⟩ <;> simp

/-- Nor is a refused frame: what was staged stays until the stream is closed. -/
theorem Sync.SameView.fail (s : Sync) : s.SameView s.fail := by
  have h := Sync.SameView.transition { s with barrierRequired := true } .disconnected
  exact ⟨h.revision, h.snapshot, h.baseHosts, h.baseHostMax⟩

theorem Sync.SameView.requestResync (s : Sync) : s.SameView s.requestResync := by
  simp only [Sync.requestResync]
  split
  · exact Sync.SameView.refl s
  · have h := Sync.SameView.fail s
    exact ⟨h.revision, h.snapshot, h.baseHosts, h.baseHostMax⟩

private theorem Sync.SameView.require (s : Sync) (target : Nat) :
    s.SameView { s with requiredRevision := target } ∧
      s.SameView (Sync.transition { s with requiredRevision := target } .synchronizing) := by
  have h := Sync.SameView.transition { s with requiredRevision := target } .synchronizing
  exact ⟨⟨rfl, rfl, rfl, rfl⟩, ⟨h.revision, h.snapshot, h.baseHosts, h.baseHostMax⟩⟩

/-- Unary responses never change the registry, whatever revision they name. -/
theorem UnaryStep.sameView (hu : UnaryStep s s') : s.SameView s' := by
  cases hu with
  | same => exact Sync.SameView.refl s
  | requestResync => exact Sync.SameView.requestResync s
  | checkUnaryRevision revision expected =>
      simp only [Sync.checkUnaryRevision]
      repeat' split
      all_goals first
        | exact Sync.SameView.refl s
        | exact Sync.SameView.requestResync s
        | exact (Sync.SameView.require s _).1
        | exact (Sync.SameView.require s _).2
  | commitCreate response revision =>
      cases response with
      | none => exact Sync.SameView.requestResync s
      | some committed =>
          simp only [Sync.commitCreate]
          repeat' split
          all_goals first
            | exact Sync.SameView.refl s
            | exact Sync.SameView.requestResync s
            | exact (Sync.SameView.require s _).1
            | exact (Sync.SameView.require s _).2

end

/-! ## Following a stream -/

section
variable (hasETLDPlusOne : Bytes → Bool) (log : Log)

/-- The registry holds exactly the given domains. -/
def Lists (hosts : Domain.Registry) (domains : Finset Bytes) : Prop :=
  ∀ d, d ∈ hosts ↔ d ∈ domains

/-- The client is where the stream is. -/
def Tracks (after : Nat) (sync : Sync) : Phase → Prop
  | .opening => sync.snapshot = none ∧ sync.revision = after
  | .snapshot cut listed =>
      ∃ snap, sync.snapshot = some snap ∧ snap.revision = cut ∧ Lists snap.baseHosts listed
  | .live revision => sync.snapshot = none ∧ sync.revision = revision

/-- What a client that follows a conforming peer maintains; `capacity` is the configured
    bound. -/
structure Sync.Mirrors (capacity : Nat) (sync : Sync) : Prop where
  hosts : sync.revision ≠ 0 → Lists sync.baseHosts (log.domains hasETLDPlusOne sync.revision)
  configured : sync.baseHostMax = capacity
  bound : sync.baseHosts.keys.length ≤ capacity
  staged : ∀ snap, sync.snapshot = some snap → snap.baseHosts.keys.length ≤ capacity

/-- How far the stream of `connect` and the client have come together. -/
def Synchronous (sync : Sync) : RunPc → Prop
  | .connecting | .dialing | .installed => sync.snapshot = none
  | .streaming st => ∃ p, log.phase hasETLDPlusOne st.afterRevision st.received = some p ∧
      Tracks st.afterRevision sync p
  | .processing st delta _ =>
      ∃ p p', log.phase hasETLDPlusOne st.afterRevision st.received = some p ∧
        log.next hasETLDPlusOne st.afterRevision p delta = some p' ∧
        Tracks st.afterRevision sync p
  | _ => True

/-- The registry is the log's at the revision reached, and the stream stands where the
    client thinks it does. -/
structure SystemState.Follows (capacity : Nat) (s : SystemState) : Prop where
  mirrors : s.client.sync.Mirrors hasETLDPlusOne log capacity
  stream : Synchronous hasETLDPlusOne log s.client.sync s.run

end

section
variable {hasETLDPlusOne : Bytes → Bool} {log : Log} {capacity : Nat}

/-- What is mirrored is a matter of the view alone. -/
theorem Sync.Mirrors.sameView {s s' : Sync} (h : s.Mirrors hasETLDPlusOne log capacity)
    (hv : s.SameView s') : s'.Mirrors hasETLDPlusOne log capacity := by
  refine ⟨?_, hv.baseHostMax.trans h.configured, ?_, ?_⟩
  · rw [hv.revision, hv.baseHosts]; exact h.hosts
  · rw [hv.baseHosts]; exact h.bound
  · rw [hv.snapshot]; exact h.staged

/-- Dropping the staged snapshot keeps the mirror. -/
theorem Sync.Mirrors.markUnsynchronized {s : Sync} (h : s.Mirrors hasETLDPlusOne log capacity)
    (state : State) : (s.markUnsynchronized state).Mirrors hasETLDPlusOne log capacity := by
  have ht := h.sameView (Sync.SameView.transition s state)
  exact ⟨ht.hosts, ht.configured, ht.bound, fun snap hs => nomatch hs⟩

/-- So is the position in the stream. -/
theorem Tracks.sameView {s s' : Sync} {after : Nat} {p : Phase} (h : Tracks after s p)
    (hv : s.SameView s') : Tracks after s' p := by
  cases p with
  | opening => exact ⟨hv.snapshot.trans h.1, hv.revision.trans h.2⟩
  | snapshot cut listed =>
      obtain ⟨snap, hs, hrest⟩ := h
      exact ⟨snap, hv.snapshot.trans hs, hrest⟩
  | live revision => exact ⟨hv.snapshot.trans h.1, hv.revision.trans h.2⟩

/-- And both together. -/
theorem Synchronous.sameView {s s' : Sync} {pc : RunPc}
    (h : Synchronous hasETLDPlusOne log s pc) (hv : s.SameView s') :
    Synchronous hasETLDPlusOne log s' pc := by
  cases pc with
  | connecting | dialing | installed => exact hv.snapshot.trans h
  | streaming st =>
      obtain ⟨p, hp, ht⟩ := h
      exact ⟨p, hp, ht.sameView hv⟩
  | processing st delta hot =>
      obtain ⟨p, p', hp, hn, ht⟩ := h
      exact ⟨p, p', hp, hn, ht.sameView hv⟩
  | idle | closing | disconnected | stopped => trivial

/-! ## Single changes of a registry -/

theorem Lists.insert {hosts : Domain.Registry} {domains : Finset Bytes}
    (h : Lists hosts domains) (domain : Bytes) (revision : Nat) :
    Lists (hosts.insert domain revision) (Insert.insert domain domains) := by
  intro d
  rw [AList.mem_insert, Finset.mem_insert, h d]

theorem Lists.erase {hosts : Domain.Registry} {domains : Finset Bytes}
    (h : Lists hosts domains) (domain : Bytes) :
    Lists (hosts.erase domain) (domains.erase domain) := by
  intro d
  rw [AList.mem_erase, Finset.mem_erase, h d]

section
variable {κ β : Type} [DecidableEq κ] (m : AList (fun _ : κ => β)) (k : κ)

/-- An insertion adds at most one key, and none if the key was there; the capacity
    check counts keys. -/
private theorem insert_length (b : β) : (m.insert k b).keys.length ≤ m.keys.length + 1 ∧
    (k ∈ m → (m.insert k b).keys.length = m.keys.length) := by
  rw [AList.keys_insert, List.length_cons]
  constructor
  · exact Nat.succ_le_succ List.length_erase_le
  · intro hk
    rw [List.length_erase_of_mem (AList.mem_keys.mp hk)]
    exact Nat.succ_pred_eq_of_pos (List.length_pos_of_mem (AList.mem_keys.mp hk))

private theorem erase_length : (m.erase k).keys.length ≤ m.keys.length := by
  rw [AList.keys_erase]
  exact List.length_erase_le

end

/-- A live base-host delta does to the registry what it does to the log's domains, within
    the bound. -/
theorem applyBaseHost_lists {d : BaseHostDelta} {revision : Nat} {sync : Sync}
    {hosts : Domain.Registry} {domains : Finset Bytes}
    (h : applyBaseHost hasETLDPlusOne (some d) revision sync = .ok hosts)
    (hl : Lists sync.baseHosts domains)
    (hb : sync.baseHosts.keys.length ≤ sync.baseHostMax) :
    Lists hosts (domainsAfter hasETLDPlusOne domains (.baseHost (some d))) ∧
      hosts.keys.length ≤ sync.baseHostMax := by
  simp only [applyBaseHost, baseHostDeltaDomain] at h
  simp only [domainsAfter]
  cases hn : Domain.normalizeBaseDomain hasETLDPlusOne d.baseHost with
  | error e => rw [hn] at h; cases h
  | ok domain =>
      simp only [hn, Option.map_some, Option.getD_some] at h
      by_cases hr : d.remove = true
      · rw [if_pos hr] at h
        cases Except.ok.inj h
        simp only [if_pos hr]
        exact ⟨hl.erase domain, Nat.le_trans (erase_length sync.baseHosts domain) hb⟩
      · rw [if_neg hr] at h
        simp only [if_neg hr]
        obtain ⟨hlen, hsame⟩ := insert_length sync.baseHosts domain revision
        by_cases hfull : domain ∉ sync.baseHosts ∧
            sync.baseHostMax ≤ sync.baseHosts.keys.length
        · rw [if_pos hfull] at h; cases h
        · rw [if_neg hfull] at h
          cases Except.ok.inj h
          refine ⟨hl.insert domain revision, ?_⟩
          by_cases hm : domain ∈ sync.baseHosts
          · rw [hsame hm]; exact hb
          · have hlt : ¬ sync.baseHostMax ≤ sync.baseHosts.keys.length :=
              fun hle => hfull ⟨hm, hle⟩
            omega

/-- Deltas about keys leave the domains alone. -/
theorem domainsAfter_of_invalidation {domains : Finset Bytes} {event : Event}
    {i : (l : Lane) × Invalidation l} (h : event.invalidation = some i) :
    domainsAfter hasETLDPlusOne domains event = domains := by
  cases event with
  | baseHost d => exact nomatch h
  | _ => rfl

/-! ## What the stream allows, seen from the client -/

section
variable {after : Nat} {sync : Sync} {p p' : Phase} {delta : WatchEvent}

/-- Outside a snapshot, what the log says of a frame that begins none is what follows
    the revision reached. -/
theorem Tracks.follow (ht : Tracks after sync p) (hs : sync.snapshot = none)
    (hev : delta.event ≠ some .snapshotBegin) :
    log.next hasETLDPlusOne after p delta = log.follow sync.revision delta := by
  cases p with
  | opening =>
      simp only [Log.next, if_neg hev]
      rw [ht.2]
  | snapshot cut listed =>
      obtain ⟨snap, hsome, -⟩ := ht
      rw [hs] at hsome
      exact nomatch hsome
  | live revision =>
      simp only [Log.next]
      rw [ht.2]

/-- Inside a snapshot the domains staged are those the log has listed so far. -/
theorem Tracks.staging {snap : SnapshotState} (ht : Tracks after sync p)
    (hs : sync.snapshot = some snap) :
    ∃ listed, p = .snapshot snap.revision listed ∧ Lists snap.baseHosts listed := by
  cases p with
  | opening | live => exact nomatch hs.symm.trans ht.1
  | snapshot cut listed =>
      obtain ⟨snap', hs', hcut, hl⟩ := ht
      cases Option.some.inj (hs'.symm.trans hs)
      exact ⟨listed, by rw [hcut], hl⟩

/-- A conforming stream begins a snapshot only as its first frame. -/
theorem Tracks.begin (ht : Tracks after sync p) (hs : sync.snapshot = none)
    (hev : delta.event = some .snapshotBegin)
    (hn : log.next hasETLDPlusOne after p delta = some p') :
    p' = .snapshot delta.revision ∅ := by
  cases p with
  | opening =>
      simp only [Log.next, if_pos hev] at hn
      exact (Option.some.inj hn).symm
  | snapshot cut listed =>
      obtain ⟨snap, hsome, -⟩ := ht
      rw [hs] at hsome
      cases hsome
  | live revision =>
      simp only [Log.next, Log.follow, hev] at hn
      cases hn

/-- A frame that is applied as a mutation carries the log's next delta. -/
theorem Tracks.mutation {c c' : Client} {event : Event} {hot : Bool} {now : LocalCache.Time}
    (ht : Tracks after c.sync p) (hn : log.next hasETLDPlusOne after p delta = some p')
    (hev : delta.event = some event) (hx : c.sync.expectsMutation delta = true)
    (ha : Applied hasETLDPlusOne c event delta.revision hot now c') :
    p' = .live (c.sync.revision + 1) ∧ event = log.event (c.sync.revision + 1) := by
  obtain ⟨-, hsnap, -⟩ := Sync.expectsMutation_iff.mp hx
  obtain ⟨hb1, hb2, hb3⟩ := ha.entity
  have hbegin : delta.event ≠ some .snapshotBegin := by
    rw [hev]
    exact fun h => hb1 (Option.some.inj h)
  rw [ht.follow hsnap hbegin] at hn
  obtain ⟨hp, -, hevent⟩ := Log.follow_delta hn hev hb2 hb3
  exact ⟨hp, hevent⟩

end

@[simp] theorem Sync.advance_revision (s : Sync) (revision : Nat) (cursor : Bytes) :
    (s.advance revision cursor).revision = revision := by
  simp only [Sync.advance]
  repeat' split
  all_goals simp

/-- Advancing to a revision does not touch the registry; the frame did that before. -/
theorem Sync.advance_view (s : Sync) (revision : Nat) (cursor : Bytes) :
    (s.advance revision cursor).snapshot = s.snapshot ∧
      (s.advance revision cursor).baseHosts = s.baseHosts ∧
      (s.advance revision cursor).baseHostMax = s.baseHostMax := by
  simp only [Sync.advance]
  repeat' split
  all_goals simp

/-- Nor is a barrier that confirms the position. -/
theorem Sync.SameView.resume (s : Sync) : s.SameView s.resume := by
  simp only [Sync.resume]
  split
  · have h := Sync.SameView.transition
      { s with barrierRequired := false, requiredRevision := 0 } .ready
    exact ⟨h.revision, h.snapshot, h.baseHosts, h.baseHostMax⟩
  · have h := Sync.SameView.transition { s with barrierRequired := false } .synchronizing
    exact ⟨h.revision, h.snapshot, h.baseHosts, h.baseHostMax⟩

/-- **FRAME STEP**: an accepted frame of a conforming stream keeps client and log
    together. -/
theorem Accepted.follows {c c' : Client} {delta : WatchEvent} {hot : Bool}
    {now : LocalCache.Time} {after : Nat} {p p' : Phase}
    (h : c.sync.Mirrors hasETLDPlusOne log capacity) (ht : Tracks after c.sync p)
    (hn : log.next hasETLDPlusOne after p delta = some p')
    (hacc : Accepted hasETLDPlusOne c delta hot now c') :
    c'.sync.Mirrors hasETLDPlusOne log capacity ∧ Tracks after c'.sync p' := by
  cases hacc with
  | snapshotBegin event_eq no_snapshot revision_ne revision_le =>
      rw [ht.begin no_snapshot event_eq hn]
      have hm := h.sameView (Sync.SameView.transition c.sync .synchronizing)
      refine ⟨⟨hm.hosts, hm.configured, hm.bound, ?_⟩, _, rfl, rfl, ?_⟩
      · intro snap hs
        cases hs
        exact Nat.zero_le _
      · intro d
        exact ⟨fun hd => absurd hd (AList.notMem_empty d), fun hd => absurd hd (Finset.notMem_empty d)⟩
  | snapshotBarrier snap event_eq snapshot_eq revision_eq =>
      obtain ⟨listed, hp, hl⟩ := ht.staging snapshot_eq
      subst hp
      simp only [Log.next, Log.list, event_eq] at hn
      -- the log ends a snapshot only when every domain of the revision was listed
      by_cases hc : delta.revision = snap.revision ∧
          listed = log.domains hasETLDPlusOne snap.revision
      · rw [if_pos hc] at hn
        cases Option.some.inj hn
        refine ⟨⟨?_, ?_, ?_, ?_⟩, ?_, ?_⟩
        · intro _
          simp only [Sync.completeSnapshot, Sync.transition_baseHosts,
            Sync.transition_revision, revision_eq]
          rw [← hc.2]
          exact hl
        · simpa [Sync.completeSnapshot] using h.configured
        · simpa [Sync.completeSnapshot] using h.staged snap snapshot_eq
        · intro snap' hs'
          simp [Sync.completeSnapshot] at hs'
        · simp [Sync.completeSnapshot]
        · simp [Sync.completeSnapshot, revision_eq]
      · rw [if_neg hc] at hn; cases hn
  | resumeBarrier event_eq no_snapshot =>
      rw [ht.follow no_snapshot (by rw [event_eq]; exact fun h => by cases h)] at hn
      rw [Log.follow_idle hn (Or.inl event_eq)]
      have hv := Sync.SameView.resume c.sync
      exact ⟨h.sameView hv, hv.snapshot.trans no_snapshot, hv.revision⟩
  | heartbeat event_eq =>
      cases hs : c.sync.snapshot with
      | some snap =>
          obtain ⟨listed, hp, -⟩ := ht.staging hs
          subst hp
          simp only [Log.next, Log.list, event_eq] at hn
          cases hn
      | none =>
          rw [ht.follow hs (by rw [event_eq]; exact fun h => by cases h)] at hn
          rw [Log.follow_idle hn (Or.inr event_eq)]
          exact ⟨h, hs, rfl⟩
  | snapshotEntry snap d domain event_eq snapshot_eq domain_eq no_removal fresh bounded =>
      obtain ⟨listed, hp, hl⟩ := ht.staging snapshot_eq
      subst hp
      simp only [Log.next, Log.list, event_eq, domain_eq] at hn
      by_cases hc : d.remove = false ∧ domain ∈ log.domains hasETLDPlusOne snap.revision ∧
          domain ∉ listed
      · rw [if_pos hc] at hn
        cases Option.some.inj hn
        refine ⟨⟨h.hosts, h.configured, h.bound, ?_⟩, _, rfl, rfl,
          hl.insert domain delta.revision⟩
        intro snap' hs'
        cases Option.some.inj hs'
        rw [h.configured] at bounded
        exact Nat.le_trans (insert_length snap.baseHosts domain delta.revision).1 bounded
      · rw [if_neg hc] at hn; cases hn
  | mutation event c₁ event_eq expected applied =>
      obtain ⟨-, hsnap, hne, -, hnext, -, -⟩ := Sync.expectsMutation_iff.mp expected
      obtain ⟨hp, hevent⟩ := ht.mutation hn event_eq expected applied
      -- the change of the registry and the change of the log, event by event
      have hafter : Lists c₁.sync.baseHosts
            (domainsAfter hasETLDPlusOne (log.domains hasETLDPlusOne c.sync.revision) event) ∧
          c₁.sync.baseHosts.keys.length ≤ capacity := by
        cases applied with
        | baseHost d hosts event_eq' hosts_eq =>
            rw [event_eq']
            have hbase := applyBaseHost_lists hosts_eq (h.hosts hne)
            rw [h.configured] at hbase
            exact hbase h.bound
        | lane l d cache event_eq' cache_eq =>
            rw [domainsAfter_of_invalidation event_eq']
            exact ⟨h.hosts hne, h.bound⟩
      have hsync := applied.sync_eq.1
      have hsnap' : c₁.sync.snapshot = none := by rw [hsync]; exact hsnap
      have hmax : c₁.sync.baseHostMax = capacity := by rw [hsync]; exact h.configured
      obtain ⟨hv1, hv2, hv3⟩ := c₁.sync.advance_view delta.revision delta.cursor
      subst hp
      refine ⟨⟨?_, hv3.trans hmax, ?_, ?_⟩, ?_, ?_⟩
      · intro _
        rw [hv2, Sync.advance_revision, hnext, log.domains_succ _ hevent]
        exact hafter.1
      · rw [hv2]; exact hafter.2
      · intro snap hs
        rw [hv1, hsnap'] at hs
        cases hs
      · exact hv1.trans hsnap'
      · exact (Sync.advance_revision _ _ _).trans hnext

end

/-! ## Following over a whole run -/

section
variable {deps : Deps} {log : Log} {capacity : Nat} {s s' : SystemState}

/-- The empty registry is the log's before its first revision. -/
theorem init_follows (lim : Limits) :
    (SystemState.init lim).Follows deps.hasETLDPlusOne log lim.maxBaseHosts := by
  refine ⟨⟨fun h => absurd rfl h, rfl, Nat.zero_le _, ?_⟩, trivial⟩
  intro snap hs
  exact nomatch hs

/-- Operations of callers leave the registry to the stream. -/
theorem OpStep.follows {o : Op} (h : s.Follows deps.hasETLDPlusOne log capacity)
    (hs : OpStep o s s') : s'.Follows deps.hasETLDPlusOne log capacity := by
  have hv := hs.sync.sameView
  refine ⟨h.mirrors.sameView hv, ?_⟩
  rw [hs.run_eq]
  exact h.stream.sameView hv

/-- **STEP**: a frame that the log allows takes a registry that mirrors one revision
    to one that mirrors the next. -/
theorem Moved.follows {α : Type} {e : Env} (h : s.Follows deps.hasETLDPlusOne log capacity)
    (hg : (log.guard deps α).env e s) (hm : Moved deps s e s') :
    s'.Follows deps.hasETLDPlusOne log capacity := by
  obtain ⟨hmir, hstream⟩ := h
  have drained : s.client.sync.SameView { s.client.sync with resync := false } :=
    ⟨rfl, rfl, rfl, rfl⟩
  cases hm with
  | connect run_eq => exact ⟨hmir.markUnsynchronized .connecting, rfl⟩
  | drainResync run_eq =>
      rw [run_eq] at hstream
      exact ⟨hmir.sameView drained, hstream⟩
  | dialFailed run_eq => exact ⟨hmir, trivial⟩
  | installTransport run_eq =>
      rw [run_eq] at hstream
      exact ⟨hmir, hstream⟩
  | openWatch run_eq =>
      rw [run_eq] at hstream
      have hv := Sync.SameView.transition s.client.sync .synchronizing
      exact ⟨hmir.sameView hv, .opening, rfl, hv.snapshot.trans hstream, hv.revision⟩
  | receive st delta now run_eq =>
      rw [run_eq] at hstream
      obtain ⟨p, hp, ht⟩ := hstream
      -- the guard: what is received continues a conforming stream
      have hsome := hg st run_eq
      rw [Log.phase_concat, hp] at hsome
      obtain ⟨p', hp'⟩ := Option.ne_none_iff_exists'.mp hsome
      have hsync := (s.client.watchRead_sync delta now).1
      refine ⟨?_, p, p', hp, hp', ?_⟩
      · show Sync.Mirrors deps.hasETLDPlusOne log capacity (s.client.watchRead delta now).2.sync
        rw [hsync]; exact hmir
      · show Tracks st.afterRevision (s.client.watchRead delta now).2.sync p
        rw [hsync]; exact ht
  | ignored st delta hot now run_eq event_eq => exact ⟨hmir, trivial⟩
  | rejected st delta hot now c run_eq rejected =>
      refine ⟨?_, trivial⟩
      show Sync.Mirrors deps.hasETLDPlusOne log capacity c.sync
      rw [rejected.sync_eq]
      exact hmir.sameView (Sync.SameView.fail _)
  | accepted st delta hot now c run_eq active accepted =>
      rw [run_eq] at hstream
      obtain ⟨p, p', hp, hn, ht⟩ := hstream
      obtain ⟨hmir', ht'⟩ := accepted.follows hmir ht hn
      refine ⟨hmir', p', ?_, ht'⟩
      show log.phase deps.hasETLDPlusOne st.afterRevision (st.received ++ [delta]) = some p'
      rw [Log.phase_concat, hp]
      exact hn
  | resyncSignal st run_eq => exact ⟨hmir.sameView drained, trivial⟩
  | hangUp st run_eq => exact ⟨hmir, trivial⟩
  | markDisconnected run_eq => exact ⟨hmir.markUnsynchronized .disconnected, trivial⟩
  | dropTransport run_eq => exact ⟨hmir, trivial⟩
  | stop run_eq => exact ⟨hmir.markUnsynchronized .shutdown, trivial⟩

end

section
variable {deps : Deps} {α : Type} {lim : Limits} {log : Log}
  (ρ : Run (machine deps α) (SystemState.init lim) (log.guard deps α))

/-- **RUN**: hence the registry mirrors the log in every state of every run against a
    conforming peer. -/
theorem run_follows (n : Nat) :
    SystemState.Follows deps.hasETLDPlusOne log lim.maxBaseHosts (ρ.at n) :=
  ρ.invariant (init_follows lim)
    (fun _ _ _ _ _ _ h _ he => (exec_spec he).follows h)
    (fun _ _ _ h hg hm => (move_cases hm).follows h hg) n

end

/-! ## When the visible registry changes -/

section
variable {deps : Deps} {α : Type} {lim : Limits} {G : Guard (machine deps α)}
  (ρ : Run (machine deps α) (SystemState.init lim) G)

/-- The frames that change the registry: the barrier of a snapshot, and a live base-host
    delta. -/
def Replaces (sync : Sync) (delta : WatchEvent) : Prop :=
  (∃ snap, sync.snapshot = some snap ∧ delta.event = some .synchronizationBarrier ∧
    delta.revision = snap.revision) ∨
  (sync.snapshot = none ∧ ∃ d, delta.event = some (.baseHost (some d)))

/-- The frames that change the registry are those that name a domain, and the end of a
    snapshot. -/
theorem Accepted.baseHosts_eq {hasETLDPlusOne : Bytes → Bool} {c c' : Client}
    {delta : WatchEvent} {hot : Bool} {now : LocalCache.Time}
    (hacc : Accepted hasETLDPlusOne c delta hot now c') :
    c'.sync.baseHosts = c.sync.baseHosts ∨ Replaces c.sync delta := by
  cases hacc with
  | snapshotBegin => exact Or.inl (Sync.SameView.transition c.sync .synchronizing).baseHosts
  | snapshotBarrier snap event_eq snapshot_eq revision_eq =>
      exact Or.inr (Or.inl ⟨snap, snapshot_eq, event_eq, revision_eq⟩)
  | resumeBarrier => exact Or.inl (Sync.SameView.resume c.sync).baseHosts
  | heartbeat | snapshotEntry => exact Or.inl rfl
  | mutation event c₁ event_eq expected applied =>
      obtain ⟨-, hsnap, -, -, -, -, -⟩ := Sync.expectsMutation_iff.mp expected
      cases applied with
      | baseHost d hosts event_eq' =>
          exact Or.inr (Or.inr ⟨hsnap, d, by rw [event_eq, event_eq']⟩)
      | lane l d cache =>
          exact Or.inl ((c.withLane l cache).sync.advance_view delta.revision delta.cursor).2.1

/-- The registry changes only at a moment that accepts such a frame. -/
theorem baseHosts_step (n : Nat) :
    (clientAt ρ (n + 1)).sync.baseHosts = (clientAt ρ n).sync.baseHosts ∨
      ∃ delta, AcceptsAt ρ n delta ∧ Replaces (clientAt ρ n).sync delta := by
  rcases ρ.step_cases n with ⟨t, x, -, ⟨w⟩⟩ | ⟨e, hl, -, hm, -⟩ | ⟨t, j, -, -, hs, -⟩ | ⟨-, hc⟩
  · exact Or.inl (exec_spec w.fires).sync.sameView.baseHosts
  · have hmoved : Moved deps (ρ.at n) e (ρ.at (n + 1)) := move_cases hm
    generalize hs' : ρ.at (n + 1) = s' at hmoved
    have hnext : clientAt ρ (n + 1) = SystemState.client s' := congrArg SystemState.client hs'
    rw [hnext]
    cases hmoved with
    | connect | openWatch => exact Or.inl (Sync.SameView.transition _ _).baseHosts
    | receive st delta now =>
        exact Or.inl (congrArg Sync.baseHosts
          ((clientAt ρ n).watchRead_sync delta now).1)
    | rejected st delta hot now c run_eq rejected =>
        refine Or.inl ?_
        show c.sync.baseHosts = _
        rw [rejected.sync_eq]
        exact (Sync.SameView.fail _).baseHosts
    | accepted st delta hot now c run_eq active accepted answer =>
        rcases accepted.baseHosts_eq with h | h
        · exact Or.inl h
        · exact Or.inr ⟨delta, ⟨now, st, hot, hl, run_eq, congrArg Prod.fst answer⟩, h⟩
    | markDisconnected | stop => exact Or.inl (Sync.SameView.transition _ _).baseHosts
    | _ => exact Or.inl rfl
  · exact Or.inl (congrArg (fun s => (SystemState.client s).sync.baseHosts) hs)
  · exact Or.inl (congrArg (fun c => (SystemState.client c.shared).sync.baseHosts) hc)

end

/-- **REGISTRY REFINEMENT**: over any conforming log, with connections that open with a
    snapshot or resume and break off anywhere, a ready client at revision `r` has exactly
    the log's domains at `r`; the registry never exceeds its bound; and nothing but the
    barrier of a complete snapshot or a live base-host delta changes it. -/
theorem registry_refines_log {deps : Deps} {α : Type} {lim : Limits} {log : Log}
    (ρ : Run (machine deps α) (SystemState.init lim) (log.guard deps α)) (n : Nat) :
    ((clientAt ρ n).sync.state = .ready →
      (clientAt ρ n).sync.baseHosts.keys.toFinset =
        log.domains deps.hasETLDPlusOne (clientAt ρ n).sync.revision) ∧
    (clientAt ρ n).sync.baseHosts.keys.length ≤ lim.maxBaseHosts ∧
    ((clientAt ρ (n + 1)).sync.baseHosts = (clientAt ρ n).sync.baseHosts ∨
      ∃ delta, AcceptsAt ρ n delta ∧ Replaces (clientAt ρ n).sync delta) := by
  have hmir : (clientAt ρ n).sync.Mirrors deps.hasETLDPlusOne log lim.maxBaseHosts :=
    (run_follows ρ n).mirrors
  refine ⟨?_, hmir.bound, baseHosts_step ρ n⟩
  intro hr
  have hpos : 0 < (clientAt ρ n).sync.revision := ((run_inv ρ n).sync.ready hr).2.2.2.1
  ext d
  rw [List.mem_toFinset, ← AList.mem_keys]
  exact hmir.hosts (Nat.pos_iff_ne_zero.mp hpos) d

/-- A control plane with the domain `a.b` and the credentials of one access key. -/
def sampleLog : Log where
  event := fun _ => .baseHost (some ⟨[97, 46, 98], false⟩)
  value := fun l _ key =>
    match l, key with
    | .credentials, key => if key = [107] then some ⟨[115], ⟨[]⟩⟩ else none
    | .vbuckets, _ => none
  initial := ∅
  changed := fun _ _ _ h => absurd rfl h
  removed := fun _ _ _ h _ => nomatch h

/-- A snapshot of revision `1` with its one domain. -/
def snapshotScript {deps : Deps} {α : Type} : List (Label (machine deps α)) :=
  [.env Env.connect, .env Env.drainResync, .env Env.installTransport, .env Env.openWatch,
    .env (Env.receive ⟨some .snapshotBegin, 1, []⟩ 0), .env (Env.apply 0),
    .env (Env.receive ⟨some (.baseHost (some ⟨[97, 46, 98], false⟩)), 1, []⟩ 0),
    .env (Env.apply 0),
    .env (Env.receive ⟨some .synchronizationBarrier, 1, ascii "c1"⟩ 0), .env (Env.apply 0)]

/-- A client that has read one snapshot: it is ready, and its registry is the log's at
    that revision. -/
theorem registry_refines_log_after_snapshot :
    ∃ ρ : Run sampleMachine sampleInit (sampleLog.guard sampleDeps Unit),
      (clientAt ρ 10).sync.state = .ready ∧
      (clientAt ρ 10).sync.baseHosts.keys.toFinset =
        sampleLog.domains sampleDeps.hasETLDPlusOne (clientAt ρ 10).sync.revision ∧
      (clientAt ρ 10).sync.revision = 1 := by
  have hok : (sampleLog.guard sampleDeps Unit).admitsAll ⟨sampleInit, []⟩ snapshotScript :=
    Guard.admitsAll_of_check
      (Log.admits_of_check sampleDeps (fun _ _ _ => false) (fun _ _ _ h => nomatch h))
      (by decide +kernel)
  obtain ⟨ρ, -, hcfg⟩ := exists_run (M := sampleMachine)
    (show (after ⟨sampleInit, []⟩ snapshotScript).isSome = true from rfl) hok
  have hready : (clientAt ρ 10).sync.state = .ready ∧ (clientAt ρ 10).sync.revision = 1 := by
    show (SystemState.client (ρ.cfg 10).shared).sync.state = _ ∧
      (SystemState.client (ρ.cfg 10).shared).sync.revision = _
    rw [hcfg 10 (by decide)]
    exact ⟨rfl, rfl⟩
  exact ⟨ρ, hready.1, (registry_refines_log ρ 10).1 hready.1, hready.2⟩

end ControlPlane
