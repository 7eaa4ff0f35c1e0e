import VBuckets.SystemProofs

/-! # Readiness against arbitrary peers

    The claim Ready makes about the rest of the state, for every interleaving and
    every peer.  `Sync.Inv` strengthens it until each step preserves it: outside Ready
    and Synchronizing a barrier is always required, an open snapshot remembers the
    cursor it started from, and revision `0` goes with the empty cursor.

    Most steps fall under one of two lemmas: a step that retires the view
    (`Sync.Inv.retire`) or one that raises the catch-up target (`Sync.Inv.raise`). -/

namespace ControlPlane

open ByteString Interleaving

/-! ## The invariant of the synchronisation state -/

/-- What holds of the synchronization state between any two steps.  A ready client has
    staged nothing, owes no barrier and has a position; a staged snapshot continues
    the position it was begun at; a revision still required is ahead of the one
    reached; and only the fresh state has no cursor. -/
structure Sync.Inv (s : Sync) : Prop where
  ready : s.state = .ready → s.snapshot = none ∧ s.barrierRequired = false ∧
    s.requiredRevision = 0 ∧ 0 < s.revision ∧ s.cursor ≠ []
  staging : ∀ snap, s.snapshot = some snap → s.barrierRequired = true ∧
    s.revision ≤ snap.revision ∧ snap.previousCursor = s.cursor ∧
    (snap.revision = s.revision → snap.expectedCursor = s.cursor)
  required : s.requiredRevision = 0 ∨ s.revision < s.requiredRevision
  waiting : s.state = .synchronizing → s.barrierRequired = false →
    s.revision < s.requiredRevision
  inactive : ¬ s.Active → s.barrierRequired = true
  cursor : s.revision = 0 ↔ s.cursor = []

section
variable {s s' : Sync}

/-- A step that leaves Ready behind a barrier. -/
theorem Sync.Inv.retire (h : s.Inv) (hrev : s'.revision = s.revision)
    (hcur : s'.cursor = s.cursor) (hreq : s'.requiredRevision = s.requiredRevision)
    (hsnap : s'.snapshot = s.snapshot ∨ s'.snapshot = none) (hb : s'.barrierRequired = true)
    (hst : s'.state ≠ .ready) : s'.Inv := by
  refine ⟨?_, ?_, ?_, ?_, ?_, ?_⟩
  · intro hr; exact absurd hr hst
  · intro snap hs
    rcases hsnap with hsame | hnone
    · rw [hsame] at hs
      obtain ⟨-, h2, h3, h4⟩ := h.staging snap hs
      rw [hrev, hcur]
      exact ⟨hb, h2, h3, h4⟩
    · rw [hnone] at hs; exact nomatch hs
  · rw [hreq, hrev]; exact h.required
  · intro _ hf
    rw [hb] at hf; exact nomatch hf
  · intro _; exact hb
  · rw [hrev, hcur]; exact h.cursor

/-- A step that raises the catch-up target beyond the revision. -/
theorem Sync.Inv.raise (h : s.Inv) (hrev : s'.revision = s.revision)
    (hcur : s'.cursor = s.cursor) (hreq : s.revision < s'.requiredRevision)
    (hsnap : s'.snapshot = s.snapshot) (hb : s'.barrierRequired = s.barrierRequired)
    (hst : s'.state ≠ .ready) (hact : ¬ s'.Active → ¬ s.Active) : s'.Inv := by
  refine ⟨?_, ?_, ?_, ?_, ?_, ?_⟩
  · intro hr; exact absurd hr hst
  · rw [hsnap, hb, hrev, hcur]; exact h.staging
  · rw [hrev]; exact Or.inr hreq
  · intro _ _; rw [hrev]; exact hreq
  · intro hn; rw [hb]; exact h.inactive (hact hn)
  · rw [hrev, hcur]; exact h.cursor

/-- A client that has just been made has no position and waits for its first barrier. -/
theorem newClient_inv (lim : Limits) : (newClient lim).sync.Inv := by
  refine ⟨?_, ?_, Or.inl rfl, ?_, fun _ => rfl, Iff.intro (fun _ => rfl) (fun _ => rfl)⟩
  · intro h; exact nomatch h
  · intro snap h; exact nomatch h
  · intro h; exact nomatch h

/-! ## Steps that retire the view -/

/-- A request to resync leaves `ready` and asks for a barrier.  What was staged stays
    until the stream is closed. -/
theorem Sync.Inv.requestResync (h : s.Inv) : s.requestResync.Inv := by
  simp only [Sync.requestResync]
  by_cases hs : s.state = .shutdown
  · rw [if_pos hs]; exact h
  · rw [if_neg hs]
    refine h.retire ?_ ?_ ?_ (Or.inl ?_) ?_ ?_
    all_goals simp [hs]

/-- Losing the stream, or stopping, drops what was staged and ends in any state but
    `ready`. -/
theorem Sync.Inv.markUnsynchronized (h : s.Inv) {state : State} (hst : state ≠ .ready) :
    (s.markUnsynchronized state).Inv := by
  refine h.retire ?_ ?_ ?_ (Or.inr rfl) rfl ?_
  · simp [Sync.markUnsynchronized]
  · simp [Sync.markUnsynchronized]
  · simp [Sync.markUnsynchronized]
  · by_cases hs : s.state = .shutdown
    · simp [Sync.markUnsynchronized, hs]
    · simp [Sync.markUnsynchronized, hs, hst]

/-- A frame that is refused leaves `ready` and asks for a barrier. -/
theorem Sync.Inv.fail (h : s.Inv) : s.fail.Inv := by
  refine h.retire ?_ ?_ ?_ (Or.inl ?_) ?_ ?_
  · simp [Sync.fail]
  · simp [Sync.fail]
  · simp [Sync.fail]
  · simp [Sync.fail]
  · simp [Sync.fail]
  · by_cases hs : s.state = .shutdown
    · simp [Sync.fail, hs]
    · simp [Sync.fail, hs]

/-! ## Steps that raise the target -/

/-- The revision of a unary response: one older than asked for makes the client
    resync, one later than reached is noted as required. -/
theorem Sync.Inv.checkUnaryRevision (h : s.Inv) (revision expected : Nat) :
    (s.checkUnaryRevision revision expected).Inv := by
  simp only [Sync.checkUnaryRevision]
  by_cases he : revision = expected
  · rw [if_pos he]; exact h
  · by_cases hs : s.state = .shutdown
    · rw [if_neg he, if_pos hs]; exact h
    · by_cases hlt : revision < expected
      · rw [if_neg he, if_neg hs, if_pos hlt]; exact h.requestResync
      · by_cases hgt : s.revision < revision
        · rw [if_neg he, if_neg hs, if_neg hlt, if_pos hgt]
          by_cases hr : s.state = .ready
          · rw [if_pos hr]
            refine h.raise ?_ ?_ ?_ ?_ ?_ ?_ ?_
            · simp
            · simp
            · simp [hgt]
            · simp
            · simp
            · simp [hr]
            · intro hn
              exact absurd (Or.inr (by simp [hr])) hn
          · rw [if_neg hr]
            exact h.raise rfl rfl (Nat.lt_of_lt_of_le hgt (Nat.le_max_right _ _)) rfl rfl hr
              (fun hn => hn)
        · rw [if_neg he, if_neg hs, if_neg hlt, if_neg hgt]; exact h

/-- The committed revision of a created bucket is noted in the same way, unless it
    cannot be one. -/
theorem Sync.Inv.commitCreate (h : s.Inv) (response : Option Nat) (revision : Nat) :
    (s.commitCreate response revision).2.Inv := by
  cases response with
  | none => exact h.requestResync
  | some committed =>
      simp only [Sync.commitCreate]
      by_cases h0 : committed = 0 ∨ committed ≤ revision
      · rw [if_pos h0]; exact h.requestResync
      · by_cases hs : s.state = .shutdown
        · rw [if_neg h0, if_pos hs]; exact h
        · by_cases hgt : s.revision < committed
          · rw [if_neg h0, if_neg hs, if_pos hgt]
            by_cases ha : s.state = .ready ∨ s.state = .synchronizing
            · rw [if_pos ha]
              refine h.raise ?_ ?_ ?_ ?_ ?_ ?_ ?_
              · simp
              · simp
              · simp [hgt]
              · simp
              · simp
              · simp [hs]
              · intro hn
                exact absurd (Or.inr (by simp [hs])) hn
            · rw [if_neg ha]
              exact h.raise rfl rfl (Nat.lt_of_lt_of_le hgt (Nat.le_max_right _ _)) rfl rfl
                (not_or.mp ha).1 (fun hn => hn)
          · rw [if_neg h0, if_neg hs, if_neg hgt]; exact h

/-- Whatever a unary call does to the synchronization state keeps the invariant,
    whenever it comes between two frames. -/
theorem Sync.Inv.unary (h : s.Inv) (hu : UnaryStep s s') : s'.Inv := by
  cases hu with
  | same => exact h
  | requestResync => exact h.requestResync
  | checkUnaryRevision revision expected => exact h.checkUnaryRevision revision expected
  | commitCreate response revision => exact h.commitCreate response revision

/-! ## Accepted frames -/

/-- A state behind a barrier: Ready, or waiting for a target still ahead. -/
theorem Sync.Inv.settle (hrev : s'.revision ≠ 0) (hcur : s'.cursor ≠ [])
    (hsnap : s'.snapshot = none) (hb : s'.barrierRequired = false)
    (hst : (s'.state = .ready ∧ s'.requiredRevision = 0) ∨
      (s'.state = .synchronizing ∧ s'.revision < s'.requiredRevision)) : s'.Inv := by
  have hcursor : s'.revision = 0 ↔ s'.cursor = [] :=
    Iff.intro (fun h => absurd h hrev) (fun h => absurd h hcur)
  have hstaging : ∀ snap, s'.snapshot = some snap → s'.barrierRequired = true ∧
      s'.revision ≤ snap.revision ∧ snap.previousCursor = s'.cursor ∧
      (snap.revision = s'.revision → snap.expectedCursor = s'.cursor) := by
    intro snap hs
    rw [hsnap] at hs
    exact nomatch hs
  rcases hst with ⟨hready, hreq⟩ | ⟨hsync, hreq⟩
  · refine ⟨?_, hstaging, Or.inl hreq, ?_, ?_, hcursor⟩
    · intro _; exact ⟨hsnap, hb, hreq, Nat.pos_of_ne_zero hrev, hcur⟩
    · intro h _
      rw [hready] at h
      exact nomatch h
    · intro h; exact absurd (Or.inl hready) h
  · refine ⟨?_, hstaging, Or.inr hreq, ?_, ?_, hcursor⟩
    · intro h
      rw [hsync] at h
      exact nomatch h
    · intro _ _; exact hreq
    · intro h; exact absurd (Or.inr hsync) h

/-- An active stream is one of a client that runs. -/
theorem Sync.Active.not_shutdown (ha : s.Active) : s.state ≠ .shutdown := by
  rcases ha with h | h
  · rw [h]; exact fun h => nomatch h
  · rw [h]; exact fun h => nomatch h

/-- A snapshot begun at a revision no older than the one reached; at that very
    revision its cursor has to be the present one. -/
theorem Sync.Inv.beginSnapshot (h : s.Inv) (ha : s.Active) {revision : Nat}
    (hle : s.revision ≤ revision) : (s.beginSnapshot revision).Inv := by
  have hst : (s.beginSnapshot revision).state = .synchronizing := by
    simp [Sync.beginSnapshot, ha.not_shutdown]
  refine ⟨?_, ?_, ?_, ?_, ?_, ?_⟩
  · intro hr
    rw [hst] at hr
    exact nomatch hr
  · intro snap hs
    have hsnap := Option.some.inj hs
    subst hsnap
    refine ⟨rfl, ?_, ?_, ?_⟩
    · simpa [Sync.beginSnapshot] using hle
    · simp [Sync.beginSnapshot]
    · intro heq
      have heq' : revision = s.revision := by simpa [Sync.beginSnapshot] using heq
      simp [Sync.beginSnapshot, heq']
  · simpa [Sync.beginSnapshot] using h.required
  · intro _ hb; exact nomatch hb
  · intro hn; exact absurd (Or.inr hst) hn
  · simpa [Sync.beginSnapshot] using h.cursor

/-- Its barrier swaps registry, revision and cursor at once. -/
theorem Sync.Inv.completeSnapshot (ha : s.Active) (snap : SnapshotState) {revision : Nat}
    {cursor : Bytes} (hrev : revision ≠ 0) (hcur : cursor ≠ []) :
    (s.completeSnapshot snap revision cursor).Inv := by
  have hsd := ha.not_shutdown
  by_cases hq : s.requiredRevision ≠ 0 ∧ s.requiredRevision ≤ revision
  · refine Sync.Inv.settle ?_ ?_ ?_ ?_ (Or.inl ⟨?_, ?_⟩)
    all_goals simp [Sync.completeSnapshot, hq, hsd, hrev, hcur]
  · by_cases h0 : s.requiredRevision = 0
    · refine Sync.Inv.settle ?_ ?_ ?_ ?_ (Or.inl ⟨?_, ?_⟩)
      all_goals simp [Sync.completeSnapshot, h0, hsd, hrev, hcur]
    · have hlt : revision < s.requiredRevision := Nat.lt_of_not_le (fun hle => hq ⟨h0, hle⟩)
      refine Sync.Inv.settle ?_ ?_ ?_ ?_ (Or.inr ⟨?_, ?_⟩)
      all_goals simp [Sync.completeSnapshot, h0, hsd, hrev, hcur, Nat.not_le.mpr hlt, hlt]

/-- A barrier that confirms the position.  The client becomes ready unless a later
    revision is required. -/
theorem Sync.Inv.resume (h : s.Inv) (ha : s.Active) (hsnap : s.snapshot = none)
    (hrev : s.revision ≠ 0) : s.resume.Inv := by
  have hsd := ha.not_shutdown
  have hcur : s.cursor ≠ [] := fun hc => hrev (h.cursor.mpr hc)
  by_cases hq : s.requiredRevision = 0 ∨ s.requiredRevision ≤ s.revision
  · refine Sync.Inv.settle ?_ ?_ ?_ ?_ (Or.inl ⟨?_, ?_⟩)
    all_goals simp [Sync.resume, hq, hsd, hrev, hcur, hsnap]
  · have hlt : s.revision < s.requiredRevision := Nat.lt_of_not_le (not_or.mp hq).2
    refine Sync.Inv.settle ?_ ?_ ?_ ?_ (Or.inr ⟨?_, ?_⟩)
    all_goals simp [Sync.resume, hq, hsd, hrev, hcur, hsnap, hlt]

/-- Adding a base domain to the snapshot that is staged. -/
theorem Sync.Inv.stage (h : s.Inv) {snap : SnapshotState} (hs : s.snapshot = some snap)
    (hosts : Domain.Registry) :
    Sync.Inv { s with snapshot := some { snap with baseHosts := hosts } } := by
  refine ⟨?_, ?_, h.required, h.waiting, h.inactive, h.cursor⟩
  · intro hr
    have hnone := (h.ready hr).1
    rw [hs] at hnone
    exact nomatch hnone
  · intro snap' hs'
    have heq := Option.some.inj hs'
    subst heq
    exact h.staging snap hs

/-- Whether the next mutation meets the target, and whether a barrier is still due. -/
theorem Sync.Inv.advance (h : s.Inv) (ha : s.Active) (hsnap : s.snapshot = none)
    {revision : Nat} {cursor : Bytes} (hrev : revision ≠ 0) (hcur : cursor ≠ []) :
    (s.advance revision cursor).Inv := by
  have hsd := ha.not_shutdown
  have hcursor : revision = 0 ↔ cursor = [] :=
    Iff.intro (fun h => absurd h hrev) (fun h => absurd h hcur)
  simp only [Sync.advance]
  by_cases hq : s.requiredRevision ≠ 0 ∧ s.requiredRevision ≤ revision
  · rw [if_pos hq]
    by_cases hb : s.barrierRequired = false
    · rw [if_pos hb]
      refine Sync.Inv.settle ?_ ?_ ?_ ?_ (Or.inl ⟨?_, ?_⟩)
      all_goals simp [hsd, hrev, hcur, hsnap, hb]
    · -- the target is met before the barrier: still Synchronizing
      rw [if_neg hb]
      refine ⟨?_, ?_, Or.inl rfl, ?_, h.inactive, hcursor⟩
      · intro hr; exact absurd (h.ready hr).2.2.1 hq.1
      · intro snap hs
        have hs' : s.snapshot = some snap := hs
        rw [hsnap] at hs'
        exact nomatch hs'
      · intro _ hf; exact absurd hf hb
  · rw [if_neg hq]
    have hreq : s.requiredRevision = 0 ∨ revision < s.requiredRevision := by
      by_cases h0 : s.requiredRevision = 0
      · exact Or.inl h0
      · exact Or.inr (Nat.lt_of_not_le (fun hle => hq ⟨h0, hle⟩))
    refine ⟨?_, ?_, hreq, ?_, h.inactive, hcursor⟩
    · intro hr
      obtain ⟨h1, h2, h3, -, -⟩ := h.ready hr
      exact ⟨h1, h2, h3, Nat.pos_of_ne_zero hrev, hcur⟩
    · intro snap hs
      have hs' : s.snapshot = some snap := hs
      rw [hsnap] at hs'
      exact nomatch hs'
    · intro hst hf
      have hlt := h.waiting hst hf
      exact hreq.resolve_left (by omega)

end

/-- What the envelope checks of a live mutation establish. -/
theorem Sync.expectsMutation_iff {s : Sync} {delta : WatchEvent} :
    s.expectsMutation delta = true ↔
      s.Active ∧ s.snapshot = none ∧ s.revision ≠ 0 ∧ s.cursor ≠ [] ∧
        delta.revision = s.revision + 1 ∧ delta.cursor ≠ [] ∧ delta.cursor ≠ s.cursor := by
  simp [Sync.expectsMutation, Sync.Active, and_assoc]

/-- Every frame that is accepted keeps the invariant; refused ones go through
    `Sync.Inv.fail`. -/
theorem Accepted.inv {hasETLDPlusOne : Bytes → Bool} {c c' : Client} {delta : WatchEvent}
    {hot : Bool} {now : LocalCache.Time} (h : c.sync.Inv) (ha : c.sync.Active)
    (hacc : Accepted hasETLDPlusOne c delta hot now c') : c'.sync.Inv := by
  cases hacc with
  | snapshotBegin event_eq no_snapshot revision_ne revision_le =>
      exact h.beginSnapshot ha revision_le
  | snapshotBarrier snap event_eq snapshot_eq revision_eq revision_ne cursor_ne expected fresh =>
      exact Sync.Inv.completeSnapshot ha snap revision_ne cursor_ne
  | resumeBarrier event_eq no_snapshot revision_eq revision_ne cursor_eq cursor_ne =>
      rw [revision_eq] at revision_ne
      exact h.resume ha no_snapshot revision_ne
  | heartbeat event_eq => exact h
  | snapshotEntry snap d domain event_eq snapshot_eq domain_eq no_removal fresh bounded =>
      exact h.stage snapshot_eq _
  | mutation event c₁ event_eq expected applied =>
      obtain ⟨-, hsnap, -, -, hnext, hcur, -⟩ := Sync.expectsMutation_iff.mp expected
      show (c₁.sync.advance delta.revision delta.cursor).Inv
      rw [applied.sync_eq.1]
      have hosts : Sync.Inv { c.sync with baseHosts := c₁.sync.baseHosts } :=
        ⟨h.ready, h.staging, h.required, h.waiting, h.inactive, h.cursor⟩
      exact hosts.advance ha hsnap (by omega) hcur

/-! ## Progress

    What any later state owes an earlier one.  The last clause is the epoch rule: as
    long as the epoch has not moved, a ready client is still ready, and at the same
    revision its registry is the same. -/

/-- What one step may do to the synchronization state: revisions and epochs do not go
    back, a cursor changes only with a later revision, a shutdown is final, and a
    client that stays ready in one epoch changes its base domains only with the
    revision. -/
structure Sync.Progress (s s' : Sync) : Prop where
  revision : s.revision ≤ s'.revision
  cursor : s'.cursor ≠ s.cursor → s.revision < s'.revision
  shutdown : s.state = .shutdown → s'.state = .shutdown
  epoch : s.epoch ≤ s'.epoch
  steady : s.state = .ready → s'.epoch = s.epoch →
    s'.state = .ready ∧ (s'.revision = s.revision → s'.baseHosts = s.baseHosts)

section
variable {s s' s'' : Sync}

/-- Most steps leave the synchronization state alone. -/
theorem Sync.Progress.refl (s : Sync) : s.Progress s :=
  ⟨Nat.le_refl _, fun h => absurd rfl h, fun h => h, Nat.le_refl _,
    fun h _ => ⟨h, fun _ => rfl⟩⟩

/-- Progress adds up along a run, which is how it is used for two distant states. -/
theorem Sync.Progress.trans (h : s.Progress s') (h' : s'.Progress s'') : s.Progress s'' := by
  refine ⟨Nat.le_trans h.revision h'.revision, ?_, fun hs => h'.shutdown (h.shutdown hs),
    Nat.le_trans h.epoch h'.epoch, ?_⟩
  · intro hc
    by_cases hc' : s'.cursor = s.cursor
    · rw [← hc'] at hc
      exact Nat.lt_of_le_of_lt h.revision (h'.cursor hc)
    · exact Nat.lt_of_lt_of_le (h.cursor hc') h'.revision
  · intro hr he
    have hmid : s'.epoch = s.epoch := Nat.le_antisymm (he ▸ h'.epoch) h.epoch
    obtain ⟨hr', hhosts⟩ := h.steady hr hmid
    obtain ⟨hr'', hhosts'⟩ := h'.steady hr' (he.trans hmid.symm)
    refine ⟨hr'', ?_⟩
    intro hrev
    have hrevmid : s'.revision = s.revision :=
      Nat.le_antisymm (hrev ▸ h'.revision) h.revision
    rw [hhosts' (hrev.trans hrevmid.symm), hhosts hrevmid]

/-- A step that keeps revision, cursor and registry, and counts a departure from
    Ready. -/
theorem Sync.Progress.keep (hrev : s'.revision = s.revision) (hcur : s'.cursor = s.cursor)
    (hhosts : s'.baseHosts = s.baseHosts)
    (hst : s.state = .shutdown → s'.state = .shutdown)
    (hepoch : s'.epoch = s.epoch + 1 ∨
      (s'.epoch = s.epoch ∧ (s.state = .ready → s'.state = .ready))) : s.Progress s' := by
  refine ⟨Nat.le_of_eq hrev.symm, fun h => absurd hcur h, hst, ?_, ?_⟩
  · rcases hepoch with h | ⟨h, -⟩
    · omega
    · omega
  · intro hr he
    rcases hepoch with h | ⟨-, h⟩
    · omega
    · exact ⟨h hr, fun _ => hhosts⟩

/-- A change of state alone.  Leaving `ready` starts a new epoch, so nothing is said
    of the old one. -/
theorem Sync.Progress.transition (s : Sync) (state : State) : s.Progress (s.transition state) := by
  refine Sync.Progress.keep ?_ ?_ ?_ ?_ ?_
  · simp
  · simp
  · simp
  · intro h; simp [h]
  · by_cases hr : s.state = .ready ∧ state ≠ .ready
    · exact Or.inl (by simp [hr])
    · refine Or.inr ⟨by rw [Sync.transition_epoch, if_neg hr], ?_⟩
      intro h
      have hst : state = .ready := not_not.mp (fun hne => hr ⟨h, hne⟩)
      simp [h, hst]

/-- A refused frame is no more than a change of state. -/
theorem Sync.Progress.fail (s : Sync) : s.Progress s.fail := by
  have h := Sync.Progress.transition { s with barrierRequired := true } .disconnected
  exact ⟨h.revision, h.cursor, h.shutdown, h.epoch, h.steady⟩

/-- Nor is a request to resync. -/
theorem Sync.Progress.requestResync (s : Sync) : s.Progress s.requestResync := by
  simp only [Sync.requestResync]
  by_cases hs : s.state = .shutdown
  · rw [if_pos hs]; exact Sync.Progress.refl s
  · rw [if_neg hs]
    have h := Sync.Progress.fail s
    exact ⟨h.revision, h.cursor, h.shutdown, h.epoch, h.steady⟩

/-- Nor is the loss of a stream, which also drops what was staged. -/
theorem Sync.Progress.markUnsynchronized (s : Sync) (state : State) :
    s.Progress (s.markUnsynchronized state) := by
  have h := Sync.Progress.transition s state
  exact ⟨h.revision, h.cursor, h.shutdown, h.epoch, h.steady⟩

/-- Raising the target, with or without the transition to Synchronizing. -/
private theorem Sync.Progress.require (s : Sync) (target : Nat) (p : Prop) [Decidable p] :
    s.Progress
      (if p then Sync.transition { s with requiredRevision := target } .synchronizing
        else { s with requiredRevision := target }) := by
  by_cases hp : p
  · rw [if_pos hp]
    have h := Sync.Progress.transition { s with requiredRevision := target } .synchronizing
    exact ⟨h.revision, h.cursor, h.shutdown, h.epoch, h.steady⟩
  · rw [if_neg hp]
    exact Sync.Progress.keep rfl rfl rfl (fun h => h) (Or.inr ⟨rfl, fun h => h⟩)

/-- Unary calls never move the revision, only what is required of it. -/
theorem Sync.Progress.unary (hu : UnaryStep s s') : s.Progress s' := by
  cases hu with
  | same => exact Sync.Progress.refl s
  | requestResync => exact Sync.Progress.requestResync s
  | checkUnaryRevision revision expected =>
      simp only [Sync.checkUnaryRevision]
      split
      · exact Sync.Progress.refl s
      · split
        · exact Sync.Progress.refl s
        · split
          · exact Sync.Progress.requestResync s
          · split
            · exact Sync.Progress.require s _ _
            · exact Sync.Progress.refl s
  | commitCreate response revision =>
      cases response with
      | none => exact Sync.Progress.requestResync s
      | some committed =>
          simp only [Sync.commitCreate]
          split
          · exact Sync.Progress.requestResync s
          · split
            · exact Sync.Progress.refl s
            · split
              · have h := Sync.Progress.require s (max s.requiredRevision committed)
                  (s.state = .ready ∨ s.state = .synchronizing)
                split at h
                · rename_i hp; rw [if_pos hp]; exact h
                · rename_i hp; rw [if_neg hp]; exact h
              · exact Sync.Progress.refl s

end

/-- Frames move it forward: a mutation to the next revision, a snapshot to one no
    older. -/
theorem Accepted.progress {hasETLDPlusOne : Bytes → Bool} {c c' : Client} {delta : WatchEvent}
    {hot : Bool} {now : LocalCache.Time} (h : c.sync.Inv) (ha : c.sync.Active)
    (hacc : Accepted hasETLDPlusOne c delta hot now c') : c.sync.Progress c'.sync := by
  cases hacc with
  | snapshotBegin event_eq no_snapshot revision_ne revision_le =>
      have ht := Sync.Progress.transition c.sync .synchronizing
      exact ⟨ht.revision, ht.cursor, ht.shutdown, ht.epoch, ht.steady⟩
  | snapshotBarrier snap event_eq snapshot_eq revision_eq revision_ne cursor_ne expected fresh =>
      obtain ⟨-, hle, -, hexp⟩ := h.staging snap snapshot_eq
      -- a client with an open snapshot is not ready, so no step leaves readiness here
      have hnr : c.sync.state ≠ .ready := by
        intro hr
        have hnone := (h.ready hr).1
        rw [snapshot_eq] at hnone
        exact nomatch hnone
      refine ⟨?_, ?_, ?_, ?_, fun hr => absurd hr hnr⟩
      · simpa [Sync.completeSnapshot, revision_eq] using hle
      · -- a snapshot of the current revision must repeat its cursor
        intro hc
        have hc' : delta.cursor ≠ c.sync.cursor := by simpa [Sync.completeSnapshot] using hc
        have hlt : c.sync.revision < snap.revision := by
          refine Nat.lt_of_le_of_ne hle ?_
          intro heq
          have hcur := hexp heq.symm
          rcases expected with hnil | hsame
          · rw [hnil] at hcur
            exact revision_ne (revision_eq.trans (heq.symm.trans (h.cursor.mpr hcur.symm)))
          · exact hc' (hsame.trans hcur)
        simpa [Sync.completeSnapshot, revision_eq] using hlt
      · intro hs; exact absurd hs ha.not_shutdown
      · simp [Sync.completeSnapshot, hnr]
  | resumeBarrier event_eq no_snapshot revision_eq revision_ne cursor_eq cursor_ne =>
      simp only [Sync.resume]
      by_cases hq : c.sync.requiredRevision = 0 ∨ c.sync.requiredRevision ≤ c.sync.revision
      · rw [if_pos hq]
        have ht := Sync.Progress.transition
          { c.sync with barrierRequired := false, requiredRevision := 0 } .ready
        exact ⟨ht.revision, ht.cursor, ht.shutdown, ht.epoch, ht.steady⟩
      · rw [if_neg hq]
        have ht := Sync.Progress.transition { c.sync with barrierRequired := false }
          .synchronizing
        exact ⟨ht.revision, ht.cursor, ht.shutdown, ht.epoch, ht.steady⟩
  | heartbeat event_eq => exact Sync.Progress.refl _
  | snapshotEntry snap d domain event_eq snapshot_eq domain_eq no_removal fresh bounded =>
      exact Sync.Progress.keep rfl rfl rfl (fun h => h) (Or.inr ⟨rfl, fun h => h⟩)
  | mutation event c₁ event_eq expected applied =>
      obtain ⟨-, -, -, -, hnext, -, -⟩ := Sync.expectsMutation_iff.mp expected
      show c.sync.Progress (c₁.sync.advance delta.revision delta.cursor)
      rw [applied.sync_eq.1]
      have hlt : c.sync.revision < delta.revision := by omega
      -- a mutation moves the revision whether or not it also meets the target
      have moved : ∀ {s' : Sync}, s'.revision = delta.revision →
          s'.epoch = c.sync.epoch → (c.sync.state = .ready → s'.state = .ready) →
          c.sync.Progress s' := by
        intro s' hrev hep hst
        refine ⟨by omega, fun _ => by omega, fun hs => absurd hs ha.not_shutdown,
          Nat.le_of_eq hep.symm, ?_⟩
        intro hr _
        exact ⟨hst hr, fun heq => absurd heq (by omega)⟩
      simp only [Sync.advance]
      split
      · split
        · exact moved (by simp) (by simp) (fun hr => by simp [hr])
        · exact moved rfl rfl (fun hr => hr)
      · exact moved rfl rfl (fun hr => hr)

/-! ## The invariant of the system -/

/-- `connect` has installed a transport client and not yet begun to close it. -/
def RunPc.isOpen : RunPc → Bool
  | .installed => true
  | .streaming _ => true
  | .processing _ _ _ => true
  | _ => false

/-- The part of `connect` in which the client can be active. -/
def RunPc.isWatching : RunPc → Bool
  | .streaming _ => true
  | .processing _ _ _ => true
  | .closing => true
  | _ => false

/-- The invariant of the client together with its run loop: an open stream is one of a
    connected client, and only such a client is active. -/
structure SystemState.Inv (s : SystemState) : Prop where
  sync : s.client.sync.Inv
  transport : s.run.isOpen = true → s.client.connected = true
  active : s.client.sync.Active → s.client.connected = true ∧ s.run.isWatching = true

/-- Nothing is connected at the start. -/
theorem init_inv (lim : Limits) : (SystemState.init lim).Inv := by
  refine ⟨newClient_inv lim, ?_, ?_⟩
  · intro h; exact nomatch h
  · rintro (h | h)
    · exact nomatch h
    · exact nomatch h

section
variable {s s' : Sync}

/-- The states other than these two accept no frame. -/
theorem Sync.not_active_of_state {state : State} (h : s.state = state) (h1 : state ≠ .ready)
    (h2 : state ≠ .synchronizing) : ¬ s.Active := by
  rintro (ha | ha)
  · exact h1 (h.symm.trans ha)
  · exact h2 (h.symm.trans ha)

/-- Leaving for a state outside Ready and Synchronizing leaves the client inactive. -/
theorem Sync.transition_not_active {state : State} (h1 : state ≠ .ready)
    (h2 : state ≠ .synchronizing) : ¬ (s.transition state).Active := by
  by_cases hs : s.state = .shutdown
  · have hst : (s.transition state).state = .shutdown := by simp [hs]
    exact Sync.not_active_of_state hst (fun h => nomatch h) (fun h => nomatch h)
  · have hst : (s.transition state).state = state := by simp [hs]
    exact Sync.not_active_of_state hst h1 h2

/-- After a resync was asked for, no more frames are accepted. -/
theorem Sync.requestResync_not_active : ¬ s.requestResync.Active := by
  simp only [Sync.requestResync]
  by_cases hs : s.state = .shutdown
  · rw [if_pos hs]
    exact Sync.not_active_of_state hs (fun h => nomatch h) (fun h => nomatch h)
  · rw [if_neg hs]
    exact Sync.transition_not_active (fun h => nomatch h) (fun h => nomatch h)

/-- No operation makes an inactive client active. -/
theorem UnaryStep.active (hu : UnaryStep s s') (ha : s'.Active) : s.Active := by
  cases hu with
  | same => exact ha
  | requestResync => exact absurd ha Sync.requestResync_not_active
  | checkUnaryRevision revision expected =>
      simp only [Sync.checkUnaryRevision] at ha
      split at ha
      · exact ha
      · split at ha
        · exact ha
        · split at ha
          · exact absurd ha Sync.requestResync_not_active
          · split at ha
            · split at ha
              · rename_i hr; exact Or.inl hr
              · exact ha
            · exact ha
  | commitCreate response revision =>
      cases response with
      | none => exact absurd ha Sync.requestResync_not_active
      | some committed =>
          simp only [Sync.commitCreate] at ha
          split at ha
          · exact absurd ha Sync.requestResync_not_active
          · split at ha
            · exact ha
            · split at ha
              · split at ha
                · rename_i hact; exact hact
                · exact ha
              · exact ha

end

/-- No operation of a caller breaks the invariant. -/
theorem OpStep.inv {o : Op} {s s' : SystemState} (h : s.Inv) (hs : OpStep o s s') : s'.Inv := by
  refine ⟨h.sync.unary hs.sync, ?_, ?_⟩
  · rw [hs.run_eq, hs.connected_eq]; exact h.transport
  · intro ha
    rw [hs.run_eq, hs.connected_eq]
    exact h.active (hs.sync.active ha)

/-- The first half of a frame touches the caches only. -/
theorem Client.watchRead_sync (c : Client) (delta : WatchEvent) (now : LocalCache.Time) :
    (c.watchRead delta now).2.sync = c.sync ∧
      (c.watchRead delta now).2.connected = c.connected := by
  simp only [Client.watchRead]
  split
  · exact ⟨rfl, rfl⟩
  · exact ⟨rfl, rfl⟩

/-- The connection is not a matter of frames. -/
theorem Accepted.connected_eq {hasETLDPlusOne : Bytes → Bool} {c c' : Client}
    {delta : WatchEvent} {hot : Bool} {now : LocalCache.Time}
    (hacc : Accepted hasETLDPlusOne c delta hot now c') : c'.connected = c.connected := by
  cases hacc with
  | mutation event c₁ event_eq expected applied => exact applied.sync_eq.2
  | _ => rfl

/-- The synchronisation state of a move stays sound and only makes progress. -/
theorem Moved.sync_inv {deps : Deps} {e : Env} {s s' : SystemState} (h : s.Inv)
    (hm : Moved deps s e s') :
    s'.client.sync.Inv ∧ s.client.sync.Progress s'.client.sync := by
  have kept : s.client.sync.Inv ∧ s.client.sync.Progress s.client.sync :=
    ⟨h.sync, Sync.Progress.refl _⟩
  have drained : Sync.Inv { s.client.sync with resync := false } ∧
      s.client.sync.Progress { s.client.sync with resync := false } :=
    ⟨⟨h.sync.ready, h.sync.staging, h.sync.required, h.sync.waiting, h.sync.inactive,
      h.sync.cursor⟩,
      Sync.Progress.keep rfl rfl rfl (fun h => h) (Or.inr ⟨rfl, fun h => h⟩)⟩
  cases hm with
  | connect | markDisconnected | stop =>
      exact ⟨h.sync.markUnsynchronized (fun h => nomatch h),
        Sync.Progress.markUnsynchronized _ _⟩
  | drainResync run_eq => exact drained
  | dialFailed | installTransport => exact kept
  | openWatch run_eq =>
      refine ⟨?_, Sync.Progress.transition _ _⟩
      -- before the stream is opened the client is inactive, so a barrier is required
      have hna : ¬ s.client.sync.Active := by
        intro ha
        have hw := (h.active ha).2
        rw [run_eq] at hw
        exact nomatch hw
      refine h.sync.retire ?_ ?_ ?_ (Or.inl ?_) ?_ ?_
      · exact Sync.transition_revision _ _
      · exact Sync.transition_cursor _ _
      · exact Sync.transition_requiredRevision _ _
      · exact Sync.transition_snapshot _ _
      · exact (Sync.transition_barrierRequired _ _).trans (h.sync.inactive hna)
      · show (s.client.sync.transition .synchronizing).state ≠ .ready
        by_cases hs : s.client.sync.state = .shutdown
        · simp [hs]
        · simp [hs]
  | receive st delta now run_eq =>
      obtain ⟨hsync, -⟩ := s.client.watchRead_sync delta now
      show (s.client.watchRead delta now).2.sync.Inv ∧
        s.client.sync.Progress (s.client.watchRead delta now).2.sync
      rw [hsync]
      exact kept
  | ignored st delta hot now run_eq event_eq => exact kept
  | rejected st delta hot now c run_eq rejected =>
      show c.sync.Inv ∧ s.client.sync.Progress c.sync
      rw [rejected.sync_eq]
      exact ⟨h.sync.fail, Sync.Progress.fail _⟩
  | accepted st delta hot now c run_eq active accepted =>
      exact ⟨accepted.inv h.sync active, accepted.progress h.sync active⟩
  | resyncSignal st run_eq => exact drained
  | hangUp | dropTransport => exact kept

/-- Nor does a step of the environment or of the run loop break the invariant:
    connecting, reading a frame, losing the stream, stopping. -/
theorem Moved.inv {deps : Deps} {e : Env} {s s' : SystemState} (h : s.Inv)
    (hm : Moved deps s e s') : s'.Inv := by
  refine ⟨(hm.sync_inv h).1, ?_, ?_⟩
  · cases hm with
    | openWatch run_eq => intro _; exact h.transport (by rw [run_eq]; rfl)
    | installTransport run_eq => intro _; rfl
    | receive st delta now run_eq =>
        intro _
        exact (s.client.watchRead_sync delta now).2.trans (h.transport (by rw [run_eq]; rfl))
    | accepted st delta hot now c run_eq active accepted =>
        intro _
        exact accepted.connected_eq.trans (h.transport (by rw [run_eq]; rfl))
    | _ => intro ho; exact nomatch ho
  · -- activity is possible only while a stream is open or being closed
    have inactive : ∀ {pc : RunPc}, s.run = pc → pc.isWatching = false →
        ¬ s.client.sync.Active := by
      intro pc hpc hw ha
      have hw' := (h.active ha).2
      rw [hpc, hw] at hw'
      exact nomatch hw'
    have watching : ∀ {pc : RunPc}, s.run = pc → pc.isOpen = true →
        s.client.connected = true := by
      intro pc hpc ho
      exact h.transport (by rw [hpc]; exact ho)
    cases hm with
    | connect | markDisconnected | stop =>
        intro ha
        exact absurd ha (Sync.transition_not_active (fun h => nomatch h) (fun h => nomatch h))
    | drainResync run_eq | dialFailed run_eq | installTransport run_eq =>
        intro ha; exact absurd ha (inactive run_eq rfl)
    | openWatch run_eq => intro _; exact ⟨watching run_eq rfl, rfl⟩
    | receive st delta now run_eq =>
        intro _
        exact ⟨(s.client.watchRead_sync delta now).2.trans (watching run_eq rfl), rfl⟩
    | ignored st delta hot now run_eq event_eq => intro _; exact ⟨watching run_eq rfl, rfl⟩
    | rejected st delta hot now c run_eq rejected =>
        intro _
        exact ⟨rejected.connected_eq.trans (watching run_eq rfl), rfl⟩
    | accepted st delta hot now c run_eq active accepted =>
        intro _
        exact ⟨accepted.connected_eq.trans (watching run_eq rfl), rfl⟩
    | resyncSignal st run_eq | hangUp st run_eq => intro _; exact ⟨watching run_eq rfl, rfl⟩
    | dropTransport run_eq => intro ha; exact absurd ha (inactive run_eq rfl)

/-! ## Runs -/

section
variable {deps : Deps} {α : Type} {lim : Limits} {G : Guard (machine deps α)}
  (ρ : Run (machine deps α) (SystemState.init lim) G)

/-- The client at a moment. -/
def clientAt (n : Nat) : Client := SystemState.client (ρ.at n)

/-- **INVARIANT**: it holds in every state of every run, for any interleaving of
    callers with the run loop. -/
theorem run_inv : ∀ n, SystemState.Inv (ρ.at n) :=
  ρ.invariant (init_inv lim)
    (fun _ _ _ _ _ _ h _ he => (exec_spec he).inv h)
    (fun _ _ _ h _ hm => (move_cases hm).inv h)

/-- Any later moment of a run has made progress over any earlier one. -/
theorem run_progress {i j : Nat} (hij : i ≤ j) :
    (clientAt ρ i).sync.Progress (clientAt ρ j).sync := by
  refine ρ.related (R := fun s s' => s.client.sync.Progress s'.client.sync)
    (fun s => Sync.Progress.refl _) (fun h h' => h.trans h') ?_ hij
  intro n
  refine ρ.step_rel (R := fun s s' => s.client.sync.Progress s'.client.sync) n
    (fun s => Sync.Progress.refl _) ?_ ?_
  · intro o x r s' new _ he
    exact Sync.Progress.unary (exec_spec he).sync
  · intro e s' _ hm
    exact ((move_cases hm).sync_inv (run_inv ρ n)).2

/-- What every reached client satisfies. -/
structure Client.Sound (c : Client) : Prop where
  /-- Ready is a claim about everything else. -/
  ready : c.sync.state = .ready →
    c.sync.snapshot = none ∧ c.sync.barrierRequired = false ∧ c.sync.requiredRevision = 0 ∧
      0 < c.sync.revision ∧ c.sync.cursor ≠ [] ∧ c.connected = true
  /-- An open snapshot needs a barrier. -/
  staging : c.sync.snapshot ≠ none → c.sync.barrierRequired = true
  /-- A catch-up target lies ahead. -/
  required : c.sync.requiredRevision = 0 ∨ c.sync.revision < c.sync.requiredRevision
  /-- Synchronizing without a barrier waits for something. -/
  waiting : c.sync.state = .synchronizing → c.sync.barrierRequired = false →
    c.sync.revision < c.sync.requiredRevision

/-- In particular a client that reports ready is entitled to. -/
theorem SystemState.Inv.sound {s : SystemState} (h : s.Inv) : s.client.Sound := by
  refine ⟨?_, ?_, h.sync.required, h.sync.waiting⟩
  · intro hr
    obtain ⟨h1, h2, h3, h4, h5⟩ := h.sync.ready hr
    exact ⟨h1, h2, h3, h4, h5, (h.active (Or.inl hr)).1⟩
  · intro hs
    obtain ⟨snap, hsnap⟩ := Option.ne_none_iff_exists'.mp hs
    exact (h.sync.staging snap hsnap).1

/-- **READINESS AGAINST ARBITRARY PEERS**: whatever frames, responses, disconnects and
    interleavings occur, every reached client is sound; the revision never decreases,
    the cursor changes only with a larger revision, and Shutdown is never left. -/
theorem readiness_invariant :
    (∀ n, (clientAt ρ n).Sound) ∧
    ∀ i j, i ≤ j →
      (clientAt ρ i).sync.revision ≤ (clientAt ρ j).sync.revision ∧
      ((clientAt ρ j).sync.cursor ≠ (clientAt ρ i).sync.cursor →
        (clientAt ρ i).sync.revision < (clientAt ρ j).sync.revision) ∧
      ((clientAt ρ i).sync.state = .shutdown → (clientAt ρ j).sync.state = .shutdown) := by
  constructor
  · intro n; exact (run_inv ρ n).sound
  · intro i j hij
    have h := run_progress ρ hij
    exact ⟨h.revision, h.cursor, h.shutdown⟩

end

/-! ## A client that becomes ready -/

/-- A small instance of the library functions. -/
def sampleDeps : Deps where
  hasETLDPlusOne := fun d => d.contains 46
  parsePolicy := fun _ => .ok ⟨[]⟩
  hostParser := ⟨fun _ _ => none, fun h => nomatch h⟩
  crypto :=
    { sha256 := fun _ => List.replicate 32 0
      hmacSHA256 := fun _ _ => List.replicate 32 0
      gcmSeal := fun _ _ plaintext _ => plaintext
      gcmOpen := fun _ _ ciphertext _ => some ciphertext
      sha256_length := Mapping.digestZeros_length
      hmacSHA256_length := Mapping.macZeros_length }

/-- Limits for the runs that serve as witnesses. -/
def sampleLimits : Limits := ⟨4, 4, 4⟩

/-- The system over the small instance. -/
abbrev sampleMachine := machine sampleDeps Unit

/-- The state those runs start in. -/
abbrev sampleInit : SystemState := SystemState.init sampleLimits

/-- Connect, open the watch and receive an empty snapshot of revision `1`. -/
def bootScript : List (Label sampleMachine) :=
  [.env Env.connect, .env Env.drainResync, .env Env.installTransport, .env Env.openWatch,
    .env (Env.receive ⟨some .snapshotBegin, 1, []⟩ 0), .env (Env.apply 0),
    .env (Env.receive ⟨some .synchronizationBarrier, 1, ascii "c1"⟩ 0), .env (Env.apply 0)]

example : (SystemState.client (played sampleInit bootScript).shared).sync.state = .ready := rfl

end ControlPlane
