import VBuckets.CallProofs

/-! # Read your writes

    A create or a unary response can name a revision the watch has not delivered yet.
    The client remembers the largest one as its catch-up target (`requiredRevision`) and
    clears it only when the watch has come that far (`controlplane/lookup.go`,
    `controlplane/watch.go`).  The HORIZON of a client is the larger of its revision and
    its target: no step lowers it, and a ready client is at its horizon. -/

namespace ControlPlane

open ByteString Interleaving

/-- The largest revision the client knows of. -/
def Sync.horizon (s : Sync) : Nat := max s.requiredRevision s.revision

/-- A ready client has reached everything it has heard of. -/
theorem Sync.Inv.horizon_of_ready {s : Sync} (h : s.Inv) (hr : s.state = .ready) :
    s.horizon = s.revision := by
  obtain ⟨-, -, hreq, -, -⟩ := h.ready hr
  rw [Sync.horizon, hreq]
  exact Nat.max_eq_right (Nat.zero_le _)

/-! ## No step lowers the horizon -/

section
variable {s s' : Sync}

/-- Changing the state forgets nothing that was heard of. -/
theorem Sync.horizon_transition (s : Sync) (state : State) :
    (s.transition state).horizon = s.horizon := by
  simp [Sync.horizon]

theorem Sync.horizon_fail (s : Sync) : s.fail.horizon = s.horizon :=
  Sync.horizon_transition { s with barrierRequired := true } .disconnected

/-- Nor does the loss of the stream: the requirement outlives the connection it
    was noted on. -/
theorem Sync.horizon_markUnsynchronized (s : Sync) (state : State) :
    (s.markUnsynchronized state).horizon = s.horizon :=
  Sync.horizon_transition s state

theorem Sync.horizon_requestResync (s : Sync) : s.requestResync.horizon = s.horizon := by
  simp only [Sync.requestResync]
  split
  · rfl
  · exact Sync.horizon_fail s

/-- Unary evidence only raises the target. -/
theorem UnaryStep.horizon_le (hu : UnaryStep s s') : s.horizon ≤ s'.horizon := by
  cases hu with
  | same => exact Nat.le_refl _
  | requestResync => exact Nat.le_of_eq (Sync.horizon_requestResync s).symm
  | checkUnaryRevision revision expected =>
      simp only [Sync.checkUnaryRevision]
      -- in each branch the target stays, or is raised to the revision that was seen
      repeat' split
      all_goals first
        | exact Nat.le_refl _
        | exact Nat.le_of_eq (Sync.horizon_requestResync s).symm
        | (simp only [Sync.horizon, Sync.transition_revision, Sync.transition_requiredRevision]
           omega)
  | commitCreate response revision =>
      cases response with
      | none => exact Nat.le_of_eq (Sync.horizon_requestResync s).symm
      | some committed =>
          simp only [Sync.commitCreate]
          repeat' split
          all_goals first
            | exact Nat.le_refl _
            | exact Nat.le_of_eq (Sync.horizon_requestResync s).symm
            | (simp only [Sync.horizon, Sync.transition_revision,
                Sync.transition_requiredRevision]
               omega)

end

/-- A frame clears the target only when it reaches it. -/
theorem Accepted.horizon_le {hasETLDPlusOne : Bytes → Bool} {c c' : Client}
    {delta : WatchEvent} {hot : Bool} {now : LocalCache.Time} (h : c.sync.Inv)
    (hacc : Accepted hasETLDPlusOne c delta hot now c') : c.sync.horizon ≤ c'.sync.horizon := by
  cases hacc with
  | snapshotBegin => exact Nat.le_of_eq (Sync.horizon_transition c.sync .synchronizing).symm
  | snapshotBarrier snap event_eq snapshot_eq revision_eq =>
      -- the snapshot is as new as the client, and clears a target only below itself
      obtain ⟨-, hle, -, -⟩ := h.staging snap snapshot_eq
      simp only [Sync.completeSnapshot, Sync.horizon_transition]
      simp only [Sync.horizon]
      split
      · omega
      · omega
  | resumeBarrier =>
      simp only [Sync.resume]
      split
      · rw [Sync.horizon_transition]
        simp only [Sync.horizon]
        omega
      · exact Nat.le_of_eq
          (Sync.horizon_transition { c.sync with barrierRequired := false } _).symm
  | heartbeat | snapshotEntry => exact Nat.le_refl _
  | mutation event c₁ event_eq expected applied =>
      obtain ⟨-, -, -, -, hnext, -, -⟩ := Sync.expectsMutation_iff.mp expected
      show c.sync.horizon ≤ (c₁.sync.advance delta.revision delta.cursor).horizon
      rw [applied.sync_eq.1]
      simp only [Sync.advance]
      repeat' split
      all_goals
        simp only [Sync.horizon, Sync.transition_revision, Sync.transition_requiredRevision]
        omega

/-- Steps of the run loop and of the peer never lower the horizon.  A requirement is
    cleared only by a revision that meets it. -/
theorem Moved.horizon_le {deps : Deps} {e : Env} {s s' : SystemState} (h : s.Inv)
    (hm : Moved deps s e s') : s.client.sync.horizon ≤ s'.client.sync.horizon := by
  cases hm with
  | connect | markDisconnected | stop =>
      exact Nat.le_of_eq (Sync.horizon_markUnsynchronized _ _).symm
  | openWatch => exact Nat.le_of_eq (Sync.horizon_transition _ _).symm
  | receive st delta now =>
      show s.client.sync.horizon ≤ (s.client.watchRead delta now).2.sync.horizon
      rw [(s.client.watchRead_sync delta now).1]
  | rejected st delta hot now c run_eq rejected =>
      show s.client.sync.horizon ≤ c.sync.horizon
      rw [rejected.sync_eq, Sync.horizon_fail]
  | accepted st delta hot now c run_eq active accepted => exact accepted.horizon_le h.sync
  | _ => exact Nat.le_refl _

section
variable {deps : Deps} {α : Type} {lim : Limits} {G : Guard (machine deps α)}
  (ρ : Run (machine deps α) (SystemState.init lim) G)

/-- Hence it never falls along a run. -/
theorem run_horizon_le {i j : Nat} (hij : i ≤ j) :
    (clientAt ρ i).sync.horizon ≤ (clientAt ρ j).sync.horizon := by
  refine ρ.related (R := fun s s' => s.client.sync.horizon ≤ s'.client.sync.horizon)
    (fun _ => Nat.le_refl _) (fun h h' => Nat.le_trans h h') ?_ hij
  intro n
  refine ρ.step_rel (R := fun s s' => s.client.sync.horizon ≤ s'.client.sync.horizon) n
    (fun _ => Nat.le_refl _) ?_ ?_
  · intro o x r s' new _ he
    exact (exec_spec he).sync.horizon_le
  · intro e s' _ hm
    exact (move_cases hm).horizon_le (run_inv ρ n)

/-! ## Observed revisions -/

/-- At moment `n` the client learns of revision `R`: a `CreateVBucket` that will return
    nil commits at `R`, or `checkUnaryRevision` sees a response of a revision beyond the
    present one. -/
inductive Observes (n R : Nat) : Prop where
  | create (t revision : Nat) (h : ρ.Performs n t (Op.commitCreate (some R) revision) true)
  | unary (t expected : Nat) (answer : Bool)
      (h : ρ.Performs n t (Op.checkUnaryRevision R expected) answer)
      (ahead : (clientAt ρ n).sync.revision < R)

variable {ρ}

/-- Callers and loaders compare a response only with a revision the client has reached. -/
theorem expected_le {n t R expected : Nat} {answer : Bool}
    (h : ρ.Performs n t (Op.checkUnaryRevision R expected) answer) :
    expected ≤ (clientAt ρ n).sync.revision := by
  have hrel : Reliable deps G (fun _ _ _ _ => True) (fun _ => True) :=
    ⟨fun _ _ _ _ _ _ _ _ _ _ => trivial,
      fun _ _ _ _ _ _ => ⟨trivial, fun _ _ _ => trivial⟩⟩
  obtain ⟨hA, hpool⟩ := run_trusted (ρ := ρ) hrel trivial
    (fun _ _ _ _ _ _ _ _ _ _ => trivial) (fun _ _ _ _ _ _ => trivial) n
  obtain ⟨x, k, new, -, hp, -⟩ := h
  exact (hpool _ (List.mem_of_getElem? hp) n (Nat.le_refl n) hA).1

/-- A committed revision that is reported to the caller is within the horizon from
    then on, unless the client has been shut down. -/
theorem commitCreate_horizon {s : Sync} {R revision : Nat}
    (h : (s.commitCreate (some R) revision).1 = true) :
    s.state = .shutdown ∨ R ≤ (s.commitCreate (some R) revision).2.horizon := by
  simp only [Sync.commitCreate] at h ⊢
  by_cases h0 : R = 0 ∨ R ≤ revision
  · rw [if_pos h0] at h; cases h
  · rw [if_neg h0]
    by_cases hs : s.state = .shutdown
    · exact Or.inl hs
    · rw [if_neg hs]
      refine Or.inr ?_
      repeat' split
      all_goals
        simp only [Sync.horizon, Sync.transition_revision, Sync.transition_requiredRevision]
        omega

/-- So is a later revision that a unary response names. -/
theorem checkUnaryRevision_horizon {s : Sync} {R expected : Nat} (he : expected ≤ s.revision)
    (h : s.revision < R) :
    s.state = .shutdown ∨ R ≤ (s.checkUnaryRevision R expected).horizon := by
  have hne : ¬ R = expected := by omega
  have hlt : ¬ R < expected := by omega
  simp only [Sync.checkUnaryRevision, if_neg hne, if_neg hlt, if_pos h]
  by_cases hs : s.state = .shutdown
  · exact Or.inl hs
  · rw [if_neg hs]
    refine Or.inr ?_
    split
    all_goals
      simp only [Sync.horizon, Sync.transition_revision, Sync.transition_requiredRevision]
      omega

/-- An observed revision is within the horizon from the next moment on, unless the client
    has shut down. -/
theorem Observes.recorded {n R : Nat} (h : Observes ρ n R) :
    (clientAt ρ n).sync.state = .shutdown ∨ R ≤ (clientAt ρ (n + 1)).sync.horizon := by
  cases h with
  | create t revision h =>
      obtain ⟨x, k, new, -, -, he⟩ := h
      obtain ⟨-, hv⟩ := of_unlocked he
      have hs : (clientAt ρ (n + 1)).sync
          = ((clientAt ρ n).sync.commitCreate (some R) revision).2 :=
        congrArg (fun p => p.2.1.client.sync) hv.symm
      rw [hs]
      exact commitCreate_horizon (congrArg Prod.fst hv)
  | unary t expected answer h ahead =>
      -- the expected revision is not above the client's, so this one is really ahead
      have hle := expected_le h
      obtain ⟨x, k, new, -, -, he⟩ := h
      have he' : exec deps (.checkUnaryRevision R expected) x (ρ.at n)
          = some (answer, ρ.at (n + 1), new) := he
      have hne : ¬ R = expected := by omega
      simp only [exec, if_neg hne] at he'
      obtain ⟨-, hv⟩ := of_unlocked he'
      have hs : (clientAt ρ (n + 1)).sync
          = (clientAt ρ n).sync.checkUnaryRevision R expected :=
        congrArg (fun p => p.2.1.client.sync) hv.symm
      rw [hs]
      exact checkUnaryRevision_horizon hle ahead

/-- **CATCH UP**: a client that is ready again has reached what it had observed. -/
theorem Observes.le_of_ready {i j R : Nat} (h : Observes ρ i R) (hij : i < j)
    (hr : (clientAt ρ j).sync.state = .ready) : R ≤ (clientAt ρ j).sync.revision := by
  rcases h.recorded with hs | hle
  · have hst := (run_progress ρ (Nat.le_of_lt hij)).shutdown hs
    rw [hr] at hst
    exact nomatch hst
  · have hfull : (clientAt ρ j).sync.horizon = (clientAt ρ j).sync.revision :=
      (run_inv ρ j).sync.horizon_of_ready hr
    rw [← hfull]
    exact Nat.le_trans hle (run_horizon_le ρ hij)

/-- **READ YOUR WRITES**: at every moment after some revisions were observed, by creates
    or by unary responses and in any interleaving, a ready client has reached all of
    them; what it tells a caller that begins, and what it confirms to a caller that
    finishes, is a revision not below any of them. -/
theorem observed_revisions_kept {j : Nat} :
    ∀ i R, i < j → Observes ρ i R →
      ((clientAt ρ j).sync.state = .ready → R ≤ (clientAt ρ j).sync.revision) ∧
      (∀ t revision epoch, ρ.Performs j t Op.lookupSnapshot (.ok (revision, epoch)) →
        R ≤ revision) ∧
      (∀ t revision epoch, ρ.Performs j t (Op.stillCurrent revision epoch) true →
        R ≤ revision) := by
  intro i R hij hobs
  refine ⟨hobs.le_of_ready hij, ?_, ?_⟩
  · intro t revision epoch h
    have hbegin : Begins ρ j ⟨revision, epoch⟩ := ⟨t, h⟩
    obtain ⟨hr, hrev, -⟩ := hbegin.view
    exact Nat.le_trans (hobs.le_of_ready hij hr) (Nat.le_of_eq hrev)
  · intro t revision epoch h
    have hvalid : Validates ρ j ⟨revision, epoch⟩ := ⟨t, h⟩
    obtain ⟨hr, hrev, -⟩ := hvalid.view
    exact Nat.le_trans (hobs.le_of_ready hij hr) (Nat.le_of_eq hrev)

end

/-- A create commits at revision `2` while the watch is at `1`; the delta arrives later. -/
def createScript : List (Label sampleMachine) :=
  bootScript ++
    [.spawn 0 ((call (.createVBucket (ascii "key") (ascii "bucket") [])).bind (fun _ => .ret ())),
      .thread 0 plainChoice, .thread 0 { plainChoice with createResponse := .ok (some 2) },
      .thread 0 plainChoice,
      .env (Env.receive ⟨some (.credentials (some ⟨ascii "key", false, none⟩)), 2, ascii "c2"⟩ 0),
      .env (Env.apply 0)]

/-- A bucket is created at revision 2 while the client stands at 1: it leaves `ready`
    at once, and is ready again only at 2. -/
theorem observed_revisions_kept_after_create :
    ∃ ρ : Run sampleMachine sampleInit (Guard.any sampleMachine),
      Observes ρ 11 2 ∧ (clientAt ρ 12).sync.state = .synchronizing ∧
        (clientAt ρ 14).sync.state = .ready ∧ 2 ≤ (clientAt ρ 14).sync.revision := by
  obtain ⟨ρ, hlabel, hcfg⟩ := exists_run (M := sampleMachine) (G := Guard.any sampleMachine)
    (show (after ⟨sampleInit, []⟩ createScript).isSome = true from rfl)
    (Guard.any_admitsAll _ _)
  have hobs : Observes ρ 11 2 :=
    .create 0 1 (Run.performs_of_played (hlabel 11 _ rfl) (hcfg 11 (by decide))
      (hcfg 12 (by decide)) rfl rfl)
  have hsync : (clientAt ρ 12).sync.state = .synchronizing := by
    show (SystemState.client (ρ.cfg 12).shared).sync.state = _
    rw [hcfg 12 (by decide)]
    rfl
  have hready : (clientAt ρ 14).sync.state = .ready := by
    show (SystemState.client (ρ.cfg 14).shared).sync.state = _
    rw [hcfg 14 (by decide)]
    rfl
  exact ⟨ρ, hobs, hsync, hready,
    (observed_revisions_kept (ρ := ρ) (j := 14) 11 2 (by decide) hobs).1 hready⟩

end ControlPlane
