import VBuckets.SupervisionProofs

/-! # The watch is supervised

    What the timers of `connect` guarantee, for every interleaving of the select loop with
    the callers of the client.  The synchronization timer is kept in step with the state
    through a channel of one slot: a caller that moves the client signals, and the loop
    reads the state LATER.  The invariant (`Supervised.Watched`) says that either a signal
    is pending or the timer is set for the state the client is in. -/

namespace ControlPlane

open ByteString LocalCache Interleaving

/-! ## What moves the state -/

/-- What an operation of a caller does to the state: nothing, a fall behind, or a request
    to resynchronise, which the loop will find in the channel `resync`. -/
inductive Shift (s s' : Sync) : Prop where
  | same (state_eq : s'.state = s.state) (resync_le : s.resync = true → s'.resync = true)
  | behind (was_ready : s.state = .ready) (state_eq : s'.state = .synchronizing)
  | resync (state_eq : s'.state = .disconnected) (resync_eq : s'.resync = true)

section
variable {s s' : Sync}

/-- Whether frames are accepted is a matter of the state alone. -/
theorem Sync.active_congr (h : s'.state = s.state) : s'.Active ↔ s.Active := by
  rw [Sync.Active, Sync.Active, h]

/-- A request to resync disconnects and leaves its signal, unless the client has been
    shut down. -/
theorem Shift.of_requestResync (s : Sync) : Shift s s.requestResync := by
  rw [Sync.requestResync]
  by_cases hs : s.state = .shutdown
  · rw [if_pos hs]
    exact .same rfl id
  · rw [if_neg hs]
    exact .resync (by simp [hs]) rfl

/-- A target ahead of the client moves a ready one to Synchronizing. -/
theorem Shift.of_require (target : Nat) (h : s.state = .ready) :
    Shift s (Sync.transition { s with requiredRevision := target } .synchronizing) :=
  .behind h (by simp [h])

/-- Every unary call does one of the three things to the state. -/
theorem UnaryStep.shift (hu : UnaryStep s s') : Shift s s' := by
  cases hu with
  | same => exact .same rfl id
  | requestResync => exact Shift.of_requestResync s
  | checkUnaryRevision revision expected =>
      simp only [Sync.checkUnaryRevision]
      repeat' split
      all_goals first
        | exact .same rfl id
        | exact Shift.of_requestResync s
        | exact Shift.of_require _ (by assumption)
  | commitCreate response revision =>
      cases response with
      | none => exact Shift.of_requestResync s
      | some committed =>
          simp only [Sync.commitCreate]
          repeat' split
          · exact Shift.of_requestResync s
          · exact .same rfl id
          · next hactive =>
              -- a commit ahead of the watch ends `ready` and leaves `synchronizing` alone
              rcases hactive with hready | hsync
              · exact Shift.of_require _ hready
              · exact .same (by simp [hsync]) (by simp)
          · exact .same rfl id
          · exact .same rfl id

end

/-- An accepted frame leaves the client active. -/
theorem Accepted.active {hasETLDPlusOne : Bytes → Bool} {c c' : Client} {delta : WatchEvent}
    {hot : Bool} {now : Time} (ha : c.sync.Active)
    (hacc : Accepted hasETLDPlusOne c delta hot now c') : c'.sync.Active := by
  have hlive := ha.not_shutdown
  cases hacc with
  | snapshotBegin => exact Or.inr (by simp [Sync.beginSnapshot, hlive])
  | snapshotBarrier snap =>
      simp only [Sync.Active, Sync.completeSnapshot, Sync.transition_state, if_neg hlive]
      split
      · split
        · exact Or.inl rfl
        · exact Or.inr rfl
      · split
        · exact Or.inl rfl
        · exact Or.inr rfl
  | resumeBarrier =>
      simp only [Sync.Active, Sync.resume]
      split
      · exact Or.inl (by simp [hlive])
      · exact Or.inr (by simp [hlive])
  | heartbeat | snapshotEntry => exact ha
  | mutation event c₁ event_eq expected applied =>
      have hstate : c₁.sync.state = c.sync.state := by rw [applied.sync_eq.1]
      have hlive₁ : c₁.sync.state ≠ .shutdown := by rw [hstate]; exact hlive
      have ha₁ : c₁.sync.Active := by
        rw [Sync.Active, hstate]
        exact ha
      show (c₁.sync.advance delta.revision delta.cursor).Active
      rw [Sync.advance]
      split
      · split
        · exact Or.inl (by simp [hlive₁])
        · exact ha₁
      · exact ha₁

/-! ## What an action can be -/

/-- An action and the stage it leads to. -/
inductive Acted (opts : WatchOptions) (fl : Rounding) (s : Supervised) : Act → Stage → Prop where
  | tick (d : Time) (pos : 0 < d) : Acted opts fl s (.tick d) s.stage
  | cancel : Acted opts fl s .cancel s.stage
  | start (stage_eq : s.stage = .head) (running : s.canceled = false) :
      Acted opts fl s .start .connecting
  | drainResync (stage_eq : s.stage = .connecting) : Acted opts fl s .drainResync .connecting
  | dialFailed (stage_eq : s.stage = .connecting) :
      Acted opts fl s .dialFailed (.returning false .other)
  | installTransport (stage_eq : s.stage = .connecting) :
      Acted opts fl s .installTransport .connecting
  | openWatch (stage_eq : s.stage = .connecting) : Acted opts fl s .openWatch .opening
  | watchFailed (stage_eq : s.stage = .opening) :
      Acted opts fl s .watchFailed (.returning false .other)
  | startTimers (stage_eq : s.stage = .opening) :
      Acted opts fl s .startTimers
        (.selecting
          { silence := s.now + opts.watchSilenceTimeout
            sync := some (s.now + opts.synchronizationTimeout)
            synced := false })
  | contextDone (t : Timers) (stage_eq : s.stage = .selecting t) (done : s.canceled = true) :
      Acted opts fl s .contextDone (.returning t.synced .canceled)
  | stateChanged (t : Timers) (stage_eq : s.stage = .selecting t)
      (pending : s.stateChanged = true) : Acted opts fl s .stateChanged (.reading t)
  | resyncSignal (t : Timers) (stage_eq : s.stage = .selecting t) :
      Acted opts fl s .resyncSignal (.returning t.synced .revisionRace)
  | silenceFired (t : Timers) (stage_eq : s.stage = .selecting t) (fired : t.silence ≤ s.now) :
      Acted opts fl s .silenceFired (.returning t.synced .watchSilence)
  | syncFired (t : Timers) (deadline : Time) (stage_eq : s.stage = .selecting t)
      (armed : t.sync = some deadline) (fired : deadline ≤ s.now) :
      Acted opts fl s .syncFired (.returning t.synced .synchronizationTimeout)
  | receiveError (eof : Bool) (t : Timers) (stage_eq : s.stage = .selecting t) :
      Acted opts fl s (.receiveError eof)
        (.returning t.synced (if eof then .closed else .other))
  | receive (delta : WatchEvent) (t : Timers) (stage_eq : s.stage = .selecting t) :
      Acted opts fl s (.receive delta) (.received t)
  | apply (t : Timers) (stage_eq : s.stage = .received t) : Acted opts fl s .apply (.processed t)
  | processFailed (t : Timers) (stage_eq : s.stage = .processed t)
      (failed : s.base.run = .closing) :
      Acted opts fl s .processFailed (.returning t.synced .other)
  | resetSilence (t : Timers) (st : Stream) (stage_eq : s.stage = .processed t)
      (handled : s.base.run = .streaming st) :
      Acted opts fl s .resetSilence
        (.checking { t with silence := s.now + opts.watchSilenceTimeout })
  | checkReady (t : Timers) (stage_eq : s.stage = .checking t) :
      Acted opts fl s .checkReady
        (.reading { t with synced := t.synced || s.base.client.sync.state = .ready })
  | readState (t : Timers) (stage_eq : s.stage = .reading t) :
      Acted opts fl s .readState (.arming t s.base.client.sync.state s.synchronizingSince)
  | disarm (t : Timers) (since : Time) (stage_eq : s.stage = .arming t .ready since) :
      Acted opts fl s .arm (.selecting { t with sync := none })
  | rearm (t : Timers) (since : Time) (stage_eq : s.stage = .arming t .synchronizing since)
      (left : ¬ s.remaining opts since ≤ 0) :
      Acted opts fl s .arm
        (.selecting { t with sync := some (s.now + s.remaining opts since) })
  | leave (t : Timers) (state : State) (since : Time)
      (stage_eq : s.stage = .arming t state since) (unready : state ≠ .ready)
      (idle : state ≠ .synchronizing) : Acted opts fl s .arm (.selecting t)
  | armTimeout (t : Timers) (since : Time)
      (stage_eq : s.stage = .arming t .synchronizing since)
      (spent : s.remaining opts since ≤ 0) :
      Acted opts fl s .armTimeout (.returning t.synced .synchronizationTimeout)
  | markDisconnected (synced : Bool) (err : WatchError)
      (stage_eq : s.stage = .returning synced err) :
      Acted opts fl s .markDisconnected (.returning synced err)
  | dropTransport (synced : Bool) (err : WatchError)
      (stage_eq : s.stage = .returning synced err) :
      Acted opts fl s .dropTransport (.returned synced)
  | backOff (random : ℚ) (synced : Bool) (stage_eq : s.stage = .returned synced)
      (running : s.canceled = false) (low : 0 ≤ random) (high : random < 1) :
      Acted opts fl s (.backOff random)
        (.sleeping (s.now + jittered fl (s.nextBackoff opts synced) random))
  | wake (wakeAt : Time) (stage_eq : s.stage = .sleeping wakeAt)
      (due : s.canceled = true ∨ wakeAt ≤ s.now) : Acted opts fl s .wake .head
  | stop (stage_eq : s.stage = .head ∨ ∃ synced, s.stage = .returned synced)
      (done : s.canceled = true) : Acted opts fl s .stop .stopped

section
variable {opts : WatchOptions} {fl : Rounding} {s : Supervised} {a : Act} {stage : Stage}

/-- **ACTION INVERSION**. -/
theorem acted_of_next (h : s.next opts fl a = some stage) : Acted opts fl s a stage := by
  rw [Supervised.next.eq_def] at h
  -- one branch for each stage and action the supervisor knows, in the order of `next`
  split at h
  · split at h
    · next hpos => cases h; exact .tick _ hpos
    · cases h
  · cases h; exact .cancel
  · next hs =>
      split at h
      · cases h
      · next hc => cases h; exact .start hs (Bool.eq_false_iff.mpr hc)
  · next hs => cases h; exact .drainResync hs
  · next hs => cases h; exact .dialFailed hs
  · next hs => cases h; exact .installTransport hs
  · next hs => cases h; exact .openWatch hs
  · next hs => cases h; exact .watchFailed hs
  · next hs => cases h; exact .startTimers hs
  · next t hs =>
      split at h
      · next hc => cases h; exact .contextDone t hs hc
      · cases h
  · next t hs =>
      split at h
      · next hc => cases h; exact .stateChanged t hs hc
      · cases h
  · next t hs => cases h; exact .resyncSignal t hs
  · next t hs =>
      split at h
      · next hf => cases h; exact .silenceFired t hs hf
      · cases h
  · next t hs =>
      split at h
      · next deadline hd =>
          split at h
          · next hf => cases h; exact .syncFired t deadline hs hd hf
          · cases h
      · cases h
  · next eof t hs => cases h; exact .receiveError eof t hs
  · next delta t hs => cases h; exact .receive delta t hs
  · next t hs => cases h; exact .apply t hs
  · next t hs =>
      split at h
      · next hrun => cases h; exact .processFailed t hs hrun
      · cases h
  · next t hs =>
      split at h
      · next st hrun => cases h; exact .resetSilence t st hs hrun
      · cases h
  · next t hs => cases h; exact .checkReady t hs
  · next t hs => cases h; exact .readState t hs
  · next t state since hs =>
      split at h
      · next hr => subst hr; cases h; exact .disarm t since hs
      · next hr =>
          split at h
          · next hy =>
              subst hy
              split at h
              · cases h
              · next hl => cases h; exact .rearm t since hs hl
          · next hy => cases h; exact .leave t state since hs hr hy
  · next t state since hs =>
      split at h
      · next ho =>
          obtain ⟨rfl, hover⟩ := ho
          cases h
          exact .armTimeout t since hs hover
      · cases h
  · next synced err hs => cases h; exact .markDisconnected synced err hs
  · next synced err hs => cases h; exact .dropTransport synced err hs
  · next random synced hs =>
      split at h
      · next hc => cases h; exact .backOff random synced hs hc.1 hc.2.1 hc.2.2
      · cases h
  · next wakeAt hs =>
      split at h
      · next hd => cases h; exact .wake wakeAt hs hd
      · cases h
  · next hs =>
      split at h
      · next hc => cases h; exact .stop (Or.inl hs) hc
      · cases h
  · next synced hs =>
      split at h
      · next hc => cases h; exact .stop (Or.inr ⟨synced, hs⟩) hc
      · cases h
  · cases h

end

/-! ## The timer follows the state -/

/-- The state of the client underneath. -/
abbrev Supervised.state (s : Supervised) : State := s.base.client.sync.state

/-- Where the client is while the supervisor is at a stage. -/
def Stage.Matches : Stage → RunPc → Prop
  | .head, .idle => True
  | .connecting, .connecting => True
  | .connecting, .dialing => True
  | .connecting, .installed => True
  | .opening, .streaming _ => True
  | .selecting _, .streaming _ => True
  | .received _, .processing _ _ _ => True
  | .processed _, .streaming _ => True
  | .processed _, .closing => True
  | .checking _, .streaming _ => True
  | .reading _, .streaming _ => True
  | .arming _ _ _, .streaming _ => True
  | .returning _ _, .closing => True
  | .returning _ _, .disconnected => True
  | .returned _, .idle => True
  | .sleeping _, .idle => True
  | .stopped, .stopped => True
  | _, _ => False

/-- A client that is not active has asked for a resynchronisation. -/
def Supervised.Resyncing (s : Supervised) : Prop :=
  s.base.client.sync.Active ∨ s.base.client.sync.resync = true

/-- The timers at the select statement. -/
structure Supervised.Armed (opts : WatchOptions) (s : Supervised) (t : Timers) : Prop where
  resyncing : s.Resyncing
  /-- A ready client is not timed. -/
  unarmed : s.state = .ready → t.sync = none
  /-- The timer never fires too early. -/
  late : s.state = .synchronizing → ∀ deadline, t.sync = some deadline →
    s.synchronizingSince + opts.synchronizationTimeout ≤ deadline
  /-- Without a signal in the channel it is set, and exactly. -/
  settled : s.stateChanged = false → s.state = .synchronizing →
    t.sync = some (s.synchronizingSince + opts.synchronizationTimeout)

/-- What `refreshSyncTimer` has read may be stale, but then a signal is pending; and only
    the loop itself makes the client active or ready. -/
structure Supervised.Read (s : Supervised) (state : State) (since : Time) : Prop where
  resyncing : s.Resyncing
  current : s.stateChanged = false → s.state = state
  synchronizing : state = .synchronizing →
    (s.state = .synchronizing ∧ s.synchronizingSince = since) ∨ ¬ s.base.client.sync.Active
  idle : state ≠ .ready → state ≠ .synchronizing → ¬ s.base.client.sync.Active

/-- What the supervisor knows at each place of its loop.  While it selects, its timers
    are armed for what it last read of the client; on the way there what it read may
    be stale, but then a signal is pending. -/
def Supervised.Watched (opts : WatchOptions) (s : Supervised) : Prop :=
  match s.stage with
  | .opening => s.stateChanged = true ∧ s.state ≠ .ready ∧ s.Resyncing
  | .selecting t => s.Armed opts t
  | .processed _ => s.base.run ≠ .closing → s.Resyncing
  | .checking _ => s.Resyncing
  | .reading _ => s.Resyncing
  | .arming _ state since => s.Read state since
  | _ => True

/-- A client that was read as not ready is not ready: only the loop itself makes it
    so, and it is busy here. -/
theorem Supervised.Read.unready {s : Supervised} {state : State} {since : Time}
    (h : s.Read state since) (hne : state ≠ .ready) : s.state ≠ .ready := by
  intro hready
  by_cases hy : state = .synchronizing
  · rcases h.synchronizing hy with hcase | hcase
    · rw [hcase.1] at hready
      cases hready
    · exact hcase (Or.inl hready)
  · exact h.idle hne hy (Or.inl hready)

/-- The invariant of the supervised client: that of the client itself, the place of
    the loop beside the run loop's, and what is known there. -/
structure Supervised.Inv (opts : WatchOptions) (s : Supervised) : Prop where
  base : s.base.Inv
  place : s.stage.Matches s.base.run
  final : s.state = .shutdown → s.stage = .stopped
  since : s.synchronizingSince ≤ s.now
  watched : s.Watched opts

section
variable {opts : WatchOptions} {fl : Rounding} {deps : Deps} {s s' : Supervised} {a : Act}
  {base : SystemState}

theorem Supervised.note_same (h : base.client.sync.state = s.state) :
    s.note base = { s with base := base } := by
  rw [Supervised.note, if_pos h]

/-- A change is signalled, and its time noted. -/
theorem Supervised.note_changed (h : base.client.sync.state ≠ s.state) :
    s.note base =
      { s with
        base := base
        stateChanged := true
        synchronizingSince :=
          if base.client.sync.state = .synchronizing then s.now else s.synchronizingSince } := by
  rw [Supervised.note, if_neg h]

@[simp] theorem Supervised.note_now : (s.note base).now = s.now := by
  rw [Supervised.note]
  split <;> rfl

@[simp] theorem Supervised.note_stage : (s.note base).stage = s.stage := by
  rw [Supervised.note]
  split <;> rfl

/-- A change is never noted for the future. -/
theorem Supervised.note_since (h : s.synchronizingSince ≤ s.now) :
    (s.note base).synchronizingSince ≤ (s.note base).now := by
  rw [Supervised.note]
  split
  · exact h
  · show (if _ then s.now else s.synchronizingSince) ≤ s.now
    split
    · exact le_rfl
    · exact h

theorem Supervised.Resyncing.same (hstate : s'.state = s.state)
    (hresync : s.base.client.sync.resync = true → s'.base.client.sync.resync = true)
    (h : s.Resyncing) : s'.Resyncing := by
  rcases h with ha | hr
  · exact Or.inl ((Sync.active_congr hstate).mpr ha)
  · exact Or.inr (hresync hr)

/-- What is watched is the state, the signal and the pending resynchronisation. -/
theorem Supervised.Watched.same (h : s.Watched opts) (hstage : s'.stage = s.stage)
    (hchanged : s'.stateChanged = s.stateChanged)
    (hsince : s'.synchronizingSince = s.synchronizingSince) (hstate : s'.state = s.state)
    (hresync : s.base.client.sync.resync = true → s'.base.client.sync.resync = true)
    (hrun : s'.base.run = s.base.run) : s'.Watched opts := by
  have hactive : s'.base.client.sync.Active → s.base.client.sync.Active :=
    (Sync.active_congr hstate).mp
  -- the stages that are not listed promise nothing
  cases hs : s.stage with
  | opening =>
      simp only [Supervised.Watched, hstage, hs] at h ⊢
      rw [hchanged, hstate]
      exact ⟨h.1, h.2.1, h.2.2.same hstate hresync⟩
  | selecting t =>
      simp only [Supervised.Watched, hstage, hs] at h ⊢
      refine ⟨h.resyncing.same hstate hresync, ?_, ?_, ?_⟩
      · rw [hstate]; exact h.unarmed
      · rw [hstate, hsince]; exact h.late
      · rw [hchanged, hstate, hsince]; exact h.settled
  | processed t =>
      simp only [Supervised.Watched, hstage, hs] at h ⊢
      rw [hrun]
      exact fun hc => (h hc).same hstate hresync
  | checking | reading =>
      simp only [Supervised.Watched, hstage, hs] at h ⊢
      exact h.same hstate hresync
  | arming t state since =>
      simp only [Supervised.Watched, hstage, hs] at h ⊢
      refine ⟨h.resyncing.same hstate hresync, ?_, ?_, ?_⟩
      · rw [hchanged, hstate]; exact h.current
      · intro hy
        rw [hstate, hsince]
        rcases h.synchronizing hy with hcase | hcase
        · exact Or.inl hcase
        · exact Or.inr (fun ha => hcase (hactive ha))
      · exact fun hr hy ha => h.idle hr hy (hactive ha)
  | _ => simp only [Supervised.Watched, hstage, hs]

/-! ## Callers keep it -/

/-- A ready client that falls behind: a signal is pending, and the timer is not set. -/
theorem Supervised.Watched.behind (h : s.Watched opts) (hready : s.state = .ready)
    (hstage : s'.stage = s.stage) (hchanged : s'.stateChanged = true)
    (hstate : s'.state = .synchronizing) : s'.Watched opts := by
  have hresync : s'.Resyncing := Or.inl (Or.inr hstate)
  have hunready : s'.state ≠ .ready := by rw [hstate]; decide
  cases hs : s.stage with
  | opening =>
      simp only [Supervised.Watched, hstage, hs] at h ⊢
      exact ⟨hchanged, hunready, hresync⟩
  | selecting t =>
      simp only [Supervised.Watched, hstage, hs] at h ⊢
      refine ⟨hresync, fun hr => absurd hr hunready, ?_, ?_⟩
      · intro _ deadline hd
        rw [h.unarmed hready] at hd
        cases hd
      · intro hf
        rw [hchanged] at hf
        cases hf
  | processed t =>
      simp only [Supervised.Watched, hstage, hs]
      exact fun _ => hresync
  | checking | reading => simp only [Supervised.Watched, hstage, hs]; exact hresync
  | arming t state since =>
      simp only [Supervised.Watched, hstage, hs] at h ⊢
      -- a state read before was Ready too
      have hread : state = .ready := not_not.mp (fun hne => h.unready hne hready)
      refine ⟨hresync, ?_, ?_, fun hne => absurd hread hne⟩
      · intro hf
        rw [hchanged] at hf
        cases hf
      · intro hy
        rw [hread] at hy
        cases hy
  | _ => simp only [Supervised.Watched, hstage, hs]

/-- A client that is to resynchronise: the loop will find the request. -/
theorem Supervised.watched_of_resync (hchanged : s'.stateChanged = true)
    (hstate : s'.state = .disconnected) (hresync : s'.base.client.sync.resync = true) :
    s'.Watched opts := by
  have hpending : s'.Resyncing := Or.inr hresync
  have hunready : s'.state ≠ .ready := by rw [hstate]; decide
  have hinactive : ¬ s'.base.client.sync.Active :=
    Sync.not_active_of_state hstate (by decide) (by decide)
  -- what is promised of a settled loop is void while the signal is pending
  have hunsettled : ∀ {p : Prop}, s'.stateChanged = false → p := by
    intro p hf
    rw [hchanged] at hf
    cases hf
  cases hs : s'.stage with
  | opening =>
      simp only [Supervised.Watched, hs]
      exact ⟨hchanged, hunready, hpending⟩
  | selecting t =>
      simp only [Supervised.Watched, hs]
      refine ⟨hpending, fun hr => absurd hr hunready, ?_, hunsettled⟩
      intro hy
      exact absurd (Or.inr hy) hinactive
  | processed t =>
      simp only [Supervised.Watched, hs]
      exact fun _ => hpending
  | checking | reading => simp only [Supervised.Watched, hs]; exact hpending
  | arming t state since =>
      simp only [Supervised.Watched, hs]
      exact ⟨hpending, hunsettled, fun _ => Or.inr hinactive, fun _ _ => hinactive⟩
  | _ => simp only [Supervised.Watched, hs]

/-- Operations of callers keep the invariant, wherever the loop is. -/
theorem Supervised.Inv.exec {o : Op} (h : s.Inv opts) (hs : OpStep o s.base base) :
    (s.note base).Inv opts := by
  have hshift := hs.sync.shift
  refine ⟨?_, ?_, ?_, Supervised.note_since h.since, ?_⟩
  · rw [Supervised.note_base]
    exact hs.inv h.base
  · rw [Supervised.note_stage, Supervised.note_base, hs.run_eq]
    exact h.place
  · rw [Supervised.note_stage, Supervised.state, Supervised.note_base]
    intro hd
    cases hshift with
    | same state_eq => exact h.final (state_eq.symm.trans hd)
    | behind was_ready state_eq | resync state_eq => rw [state_eq] at hd; cases hd
  · by_cases hstate : base.client.sync.state = s.state
    · rw [Supervised.note_same hstate]
      refine h.watched.same rfl rfl rfl hstate ?_ hs.run_eq
      cases hshift with
      | same state_eq resync_le => exact resync_le
      | behind was_ready state_eq =>
          rw [Supervised.state, was_ready, state_eq] at hstate
          cases hstate
      | resync state_eq resync_eq => exact fun _ => resync_eq
    · rw [Supervised.note_changed hstate]
      cases hshift with
      | same state_eq => exact absurd state_eq hstate
      | behind was_ready state_eq => exact h.watched.behind was_ready rfl rfl state_eq
      | resync state_eq resync_eq => exact Supervised.watched_of_resync rfl state_eq resync_eq

/-! ## The loop keeps it -/

/-- An action that only concerns the supervisor. -/
theorem supervise_alone (h : supervise opts fl deps a s = some s') (he : a.env s.now = none) :
    ∃ stage, Acted opts fl s a stage ∧ s' = { s.effect opts a with stage := stage } := by
  obtain ⟨stage, hnext, hcases⟩ := supervise_cases h
  rcases hcases with ⟨-, rfl⟩ | ⟨e, base, he', -, -⟩
  · exact ⟨stage, acted_of_next hnext, rfl⟩
  · rw [he] at he'
    cases he'

/-- An action that moves the client. -/
theorem supervise_moves {e : Env} (h : supervise opts fl deps a s = some s')
    (he : a.env s.now = some e) :
    ∃ stage base, Acted opts fl s a stage ∧ Moved deps s.base e base ∧
      s' = { (s.effect opts a).note base with stage := stage } := by
  obtain ⟨stage, hnext, hcases⟩ := supervise_cases h
  rcases hcases with ⟨hnone, -⟩ | ⟨e', base, he', hm, rfl⟩
  · rw [hnone] at he
    cases he
  · cases Option.some.inj (he.symm.trans he')
    exact ⟨stage, base, acted_of_next hnext, move_cases hm, rfl⟩

/-- Time does not run backwards. -/
theorem Acted.now_le {stage : Stage} (ha : Acted opts fl s a stage) :
    s.now ≤ (s.effect opts a).now := by
  rw [Supervised.effect.eq_def]
  split
  · cases ha with
    | tick _ pos => exact le_of_lt (lt_add_of_pos_right s.now pos)
  all_goals exact le_rfl

theorem supervise_now (h : supervise opts fl deps a s = some s') : s.now ≤ s'.now := by
  obtain ⟨stage, hnext, hcases⟩ := supervise_cases h
  rcases hcases with ⟨-, rfl⟩ | ⟨e, base, -, -, rfl⟩
  · exact (acted_of_next hnext).now_le
  · show s.now ≤ ((s.effect opts a).note base).now
    rw [Supervised.note_now]
    exact (acted_of_next hnext).now_le

theorem Supervised.effect_since (opts : WatchOptions) (s : Supervised) (a : Act) :
    (s.effect opts a).synchronizingSince = s.synchronizingSince := by
  rw [Supervised.effect.eq_def]
  split <;> rfl

/-- The noted time stays in the past. -/
theorem supervise_since (hs : s.synchronizingSince ≤ s.now)
    (h : supervise opts fl deps a s = some s') : s'.synchronizingSince ≤ s'.now := by
  have heffect := s.effect_since opts a
  have hnow := supervise_now h
  obtain ⟨stage, -, hcases⟩ := supervise_cases h
  rcases hcases with ⟨-, rfl⟩ | ⟨e, base, -, -, rfl⟩
  · show (s.effect opts a).synchronizingSince ≤ (s.effect opts a).now
    rw [heffect]
    exact le_trans hs hnow
  · refine Supervised.note_since ?_
    rw [heffect]
    refine le_trans hs (le_trans hnow ?_)
    show ((s.effect opts a).note base).now ≤ _
    rw [Supervised.note_now]

/-- Only the end of `Run` shuts the client down. -/
theorem Moved.live {e : Env} {b b' : SystemState} (hm : Moved deps b e b') (he : e ≠ .stop)
    (hlive : b.client.sync.state ≠ .shutdown) : b'.client.sync.state ≠ .shutdown := by
  have hmoved : ∀ {state : State} {sync : Sync}, sync.state = b.client.sync.state →
      state ≠ .shutdown → (sync.transition state).state ≠ .shutdown := by
    intro state sync hsync hne
    rw [Sync.transition_state, hsync, if_neg hlive]
    exact hne
  cases hm with
  | connect | openWatch | markDisconnected => exact hmoved rfl (by decide)
  | receive st delta now =>
      show (b.client.watchRead delta now).2.sync.state ≠ .shutdown
      rw [(b.client.watchRead_sync delta now).1]
      exact hlive
  | rejected st delta hot now c run_eq rejected =>
      show c.sync.state ≠ .shutdown
      rw [rejected.sync_eq]
      exact hmoved rfl (by decide)
  | accepted st delta hot now c run_eq active accepted => exact (accepted.active active).not_shutdown
  | stop => exact absurd rfl he
  | _ => exact hlive

variable {stage : Stage}

/-- Steps that move the run loop are those of a loop that runs. -/
theorem Acted.running (ha : Acted opts fl s a stage) {e : Env} (he : a.env s.now = some e) :
    s.stage ≠ .stopped := by
  intro hs
  cases ha with
  | tick | cancel => cases he
  | stop stage_eq =>
      rcases stage_eq with hs' | ⟨synced, hs'⟩
      · rw [hs] at hs'; cases hs'
      · rw [hs] at hs'; cases hs'
  | _ =>
      have hne := hs.symm.trans (by assumption)
      cases hne

/-- A loop that has stopped stays stopped. -/
theorem Acted.stopped_alone (ha : Acted opts fl s a stage) (he : a.env s.now = none)
    (hs : s.stage = .stopped) : stage = .stopped := by
  cases ha with
  | tick | cancel => exact hs
  | stop => cases he
  | _ =>
      have hne := hs.symm.trans (by assumption)
      cases hne

/-- Stopping the client is the loop's last step. -/
theorem Acted.stops (ha : Acted opts fl s a stage) (he : a.env s.now = some .stop) :
    stage = .stopped := by
  cases ha with
  | stop => rfl
  | _ => cases he

/-- The stages follow the moves of the client. -/
theorem Acted.place_moves (ha : Acted opts fl s a stage) {e : Env} (he : a.env s.now = some e)
    (hm : Moved deps s.base e base) : stage.Matches base.run := by
  cases ha
  all_goals first
    | (cases he; done)
    | (cases he; cases hm <;> exact True.intro)

/-- Steps that do not move the run loop keep the two places together. -/
theorem Acted.place_alone (ha : Acted opts fl s a stage) (he : a.env s.now = none)
    (hp : s.stage.Matches s.base.run) : stage.Matches s.base.run := by
  cases ha with
  | tick | cancel => exact hp
  | processFailed t stage_eq failed => rw [failed]; exact True.intro
  | resetSilence t st stage_eq handled => rw [handled]; exact True.intro
  | startTimers stage_eq | stateChanged t stage_eq | checkReady t stage_eq
  | readState t stage_eq | disarm t since stage_eq | rearm t since stage_eq
  | leave t state since stage_eq | backOff random synced stage_eq | wake wakeAt stage_eq =>
      rw [stage_eq] at hp
      revert hp
      cases s.base.run <;> exact id
  | _ => cases he

/-- A connection starts out without a state of its own: entering Synchronizing signals. -/
theorem Supervised.Inv.opened (h : s.Inv opts) (hopen : supervise opts fl deps .openWatch s = some s') :
    s'.Watched opts := by
  obtain ⟨stage, base, hact, hm, rfl⟩ := supervise_moves hopen rfl
  have hlive : s.state ≠ .shutdown := fun hd => hact.running rfl (h.final hd)
  cases hact
  cases hm with
  | openWatch run_eq =>
      have hinactive : s.state ≠ .synchronizing := by
        intro hs
        have hwatching := (h.base.active (Or.inr hs)).2
        rw [run_eq] at hwatching
        cases hwatching
      have hstate : (s.base.client.sync.transition .synchronizing).state = .synchronizing := by
        rw [Sync.transition_state, if_neg hlive]
      have hchanged : (s.base.client.sync.transition .synchronizing).state ≠ s.state := by
        rw [hstate]
        exact hinactive.symm
      show ({ s.note _ with stage := Stage.opening } : Supervised).Watched opts
      rw [Supervised.note_changed hchanged]
      refine ⟨rfl, ?_, Or.inl (Or.inr hstate)⟩
      show (s.base.client.sync.transition .synchronizing).state ≠ .ready
      rw [hstate]
      decide

/-- A frame that was handled without an error leaves the client active. -/
theorem Supervised.applied (h : supervise opts fl deps .apply s = some s') :
    s'.Watched opts := by
  obtain ⟨stage, base, hact, hm, rfl⟩ := supervise_moves h rfl
  cases hact with
  | apply t =>
      show ((s.effect opts .apply).note base).base.run ≠ .closing →
        ((s.effect opts .apply).note base).base.client.sync.Active ∨
          ((s.effect opts .apply).note base).base.client.sync.resync = true
      rw [Supervised.note_base]
      intro hrun
      cases hm with
      | ignored | rejected => exact absurd rfl hrun
      | accepted st delta hot now c run_eq active accepted =>
          exact Or.inl (accepted.active active)

/-- The first timer is set a little late, but then the signal of `openWatch` is pending. -/
theorem Supervised.Inv.started (h : s.Inv opts)
    (hstart : supervise opts fl deps .startTimers s = some s') : s'.Watched opts := by
  obtain ⟨stage, hact, rfl⟩ := supervise_alone hstart rfl
  cases hact with
  | startTimers stage_eq =>
      have hw := h.watched
      simp only [Supervised.Watched, stage_eq] at hw
      obtain ⟨hchanged, hunready, hresync⟩ := hw
      refine ⟨hresync, fun hr => absurd hr hunready, ?_, ?_⟩
      · intro _ deadline hd
        cases hd
        exact add_le_add_left h.since _
      · intro hf
        exact absurd (hf.symm.trans hchanged) (by decide)

/-- A timer set for what is left fires when all of it has passed. -/
theorem now_add_remaining (opts : WatchOptions) (s : Supervised) (since : Time) :
    s.now + s.remaining opts since = since + opts.synchronizationTimeout := by
  have hsum : ∀ now limit since : Int, now + (limit - (now - since)) = since + limit := by
    intro now limit since
    omega
  exact hsum _ _ _

/-- `refreshSyncTimer` sets the timer for the state it has read. -/
theorem Supervised.Inv.armed (h : s.Inv opts) (harm : supervise opts fl deps .arm s = some s') :
    s'.Watched opts := by
  obtain ⟨stage, hact, rfl⟩ := supervise_alone harm rfl
  have hw := h.watched
  cases hact with
  | disarm t since stage_eq =>
      simp only [Supervised.Watched, stage_eq] at hw
      refine ⟨hw.resyncing, fun _ => rfl, fun _ _ hd => (by cases hd), ?_⟩
      intro hf hy
      have hstale : State.ready = .synchronizing := (hw.current hf).symm.trans hy
      cases hstale
  | rearm t since stage_eq left =>
      simp only [Supervised.Watched, stage_eq] at hw
      have hunready : s.state ≠ .ready := hw.unready (by decide)
      have hsince : s.state = .synchronizing → s.synchronizingSince = since := by
        intro hy
        rcases hw.synchronizing rfl with hcase | hcase
        · exact hcase.2
        · exact absurd (Or.inr hy) hcase
      refine ⟨hw.resyncing, fun hr => absurd hr hunready, ?_, ?_⟩
      · intro hy deadline hd
        cases hd
        rw [now_add_remaining, ← hsince hy]
        exact le_rfl
      · intro _ hy
        show some _ = some _
        rw [now_add_remaining, ← hsince hy]
        rfl
  | leave t state since stage_eq unready idle =>
      simp only [Supervised.Watched, stage_eq] at hw
      -- a client read to be inactive stays so: it waits for its resynchronisation
      have hinactive := hw.idle unready idle
      refine ⟨hw.resyncing, fun hr => absurd (Or.inl hr) hinactive, ?_, ?_⟩
      · exact fun hy => absurd (Or.inr hy) hinactive
      · exact fun _ hy => absurd (Or.inr hy) hinactive

/-- **STEP**: after each step of the supervisor what is known is known at its new
    place.  This is where the timers are compared with what they are armed for. -/
theorem Supervised.Inv.act_watched (h : s.Inv opts) (ha : supervise opts fl deps a s = some s') :
    s'.Watched opts := by
  cases a with
  | openWatch => exact h.opened ha
  | apply => exact Supervised.applied ha
  | startTimers => exact h.started ha
  | arm => exact h.armed ha
  | tick | cancel =>
      obtain ⟨stage, hact, rfl⟩ := supervise_alone ha rfl
      cases hact
      exact h.watched.same rfl rfl rfl rfl id rfl
  | stateChanged =>
      obtain ⟨stage, hact, rfl⟩ := supervise_alone ha rfl
      have hw := h.watched
      cases hact with
      | stateChanged t stage_eq =>
          simp only [Supervised.Watched, stage_eq] at hw
          exact hw.resyncing
  | resetSilence =>
      obtain ⟨stage, hact, rfl⟩ := supervise_alone ha rfl
      have hw := h.watched
      cases hact with
      | resetSilence t st stage_eq handled =>
          simp only [Supervised.Watched, stage_eq, handled] at hw
          exact hw (fun hc => by cases hc)
  | checkReady =>
      obtain ⟨stage, hact, rfl⟩ := supervise_alone ha rfl
      have hw := h.watched
      cases hact with
      | checkReady t stage_eq =>
          simp only [Supervised.Watched, stage_eq] at hw
          exact hw
  | readState =>
      obtain ⟨stage, hact, rfl⟩ := supervise_alone ha rfl
      have hw := h.watched
      cases hact with
      | readState t stage_eq =>
          simp only [Supervised.Watched, stage_eq] at hw
          refine ⟨hw, fun _ => rfl, fun hy => Or.inl ⟨hy, rfl⟩, ?_⟩
          rintro hr hy (hready | hsync)
          · exact hr hready
          · exact hy hsync
  | processFailed | backOff random | wake =>
      obtain ⟨stage, hact, rfl⟩ := supervise_alone ha rfl
      cases hact
      exact True.intro
  | start | drainResync | dialFailed | installTransport | watchFailed | contextDone
  | resyncSignal | silenceFired | syncFired | receiveError eof | receive delta | armTimeout
  | markDisconnected | dropTransport | stop =>
      obtain ⟨stage, base, hact, -, rfl⟩ := supervise_moves ha rfl
      cases hact
      exact True.intro

/-- **THE INVARIANT OF THE SUPERVISOR** is kept by every action. -/
theorem Supervised.Inv.act (h : s.Inv opts) (ha : supervise opts fl deps a s = some s') :
    s'.Inv opts := by
  have hwatched := h.act_watched ha
  have hsince := supervise_since h.since ha
  obtain ⟨stage, hnext, hcases⟩ := supervise_cases ha
  have hact := acted_of_next hnext
  rcases hcases with ⟨he, rfl⟩ | ⟨e, base, he, hm, rfl⟩
  · have hbase : (s.effect opts a).base = s.base := Supervised.effect_base s a
    refine ⟨?_, ?_, ?_, hsince, hwatched⟩
    · show (s.effect opts a).base.Inv
      rw [hbase]
      exact h.base
    · show stage.Matches (s.effect opts a).base.run
      rw [hbase]
      exact hact.place_alone he h.place
    · show (s.effect opts a).base.client.sync.state = .shutdown → stage = .stopped
      rw [hbase]
      exact fun hd => hact.stopped_alone he (h.final hd)
  · have hmoved := move_cases hm
    have hbase : ((s.effect opts a).note base).base = base := Supervised.note_base _ _
    refine ⟨?_, ?_, ?_, hsince, hwatched⟩
    · show ((s.effect opts a).note base).base.Inv
      rw [hbase]
      exact hmoved.inv h.base
    · show stage.Matches ((s.effect opts a).note base).base.run
      rw [hbase]
      exact hact.place_moves he hmoved
    · show ((s.effect opts a).note base).base.client.sync.state = .shutdown → stage = .stopped
      rw [hbase]
      intro hd
      by_cases hstop : e = .stop
      · subst hstop
        exact hact.stops he
      · exact absurd hd (hmoved.live hstop (fun hs => hact.running he (h.final hs)))

end

/-! ## Runs -/

section
variable {opts : WatchOptions} {fl : Rounding} {deps : Deps} {α : Type} {lim : Limits}
  {start : Time} {G : Guard (supervised opts fl deps α)}
  (ρ : Run (supervised opts fl deps α) (Supervised.init opts lim start) G)

/-- The supervised client at a moment. -/
def supervisedAt (n : Nat) : Supervised := ρ.at n

/-- A moment of a run: the loop or the clock acts, a caller performs an operation, or
    nothing happens. -/
theorem supervised_step (n : Nat) :
    (∃ a, ρ.label n = .env a ∧ G.env a (ρ.at n) ∧
        supervise opts fl deps a (supervisedAt ρ n) = some (supervisedAt ρ (n + 1))) ∨
      ((∀ a, ρ.label n ≠ .env a) ∧
        ((∃ o base, OpStep o (supervisedAt ρ n).base base ∧
            supervisedAt ρ (n + 1) = (supervisedAt ρ n).note base) ∨
          supervisedAt ρ (n + 1) = supervisedAt ρ n)) := by
  rcases ρ.step_cases n with ⟨t, x, hl, ⟨w⟩⟩ | ⟨a, hl, hg, hm, -⟩ | ⟨t, j, hl, -, hs, -⟩ |
    ⟨hl, hc⟩
  · obtain ⟨base, he, hnote⟩ := supervised_exec w.fires
    refine Or.inr ⟨?_, Or.inl ⟨w.op, base, exec_spec he, hnote⟩⟩
    intro a ha
    cases hl.symm.trans ha
  · exact Or.inl ⟨a, hl, hg, hm⟩
  · refine Or.inr ⟨?_, Or.inr hs⟩
    intro a ha
    cases hl.symm.trans ha
  · refine Or.inr ⟨?_, Or.inr ?_⟩
    · intro a ha
      cases hl.symm.trans ha
    · show (ρ.cfg (n + 1)).shared = (ρ.cfg n).shared
      rw [hc]

theorem supervised_init_inv (opts : WatchOptions) (lim : Limits) (start : Time) :
    (Supervised.init opts lim start).Inv opts :=
  ⟨init_inv lim, True.intro, fun h => (by cases h), le_rfl, True.intro⟩

/-- **THE SUPERVISOR'S INVARIANT** holds at every moment of every run. -/
theorem supervised_inv (n : Nat) : (supervisedAt ρ n).Inv opts := by
  induction n with
  | zero =>
      show Supervised.Inv opts (ρ.at 0)
      rw [ρ.at_zero]
      exact supervised_init_inv opts lim start
  | succ n ih =>
      rcases supervised_step ρ n with ⟨a, -, -, ha⟩ | ⟨-, ⟨o, base, hop, hnote⟩ | hsame⟩
      · exact ih.act ha
      · rw [hnote]
        exact ih.exec hop
      · rw [hsame]
        exact ih

/-- The clock never runs backwards along a run. -/
theorem supervised_now_le {i j : Nat} (hij : i ≤ j) :
    (supervisedAt ρ i).now ≤ (supervisedAt ρ j).now := by
  induction j, hij using Nat.le_induction with
  | base => exact le_rfl
  | succ j _ ih =>
      refine le_trans ih ?_
      rcases supervised_step ρ j with ⟨a, -, -, ha⟩ | ⟨-, ⟨o, base, hop, hnote⟩ | hsame⟩
      · exact supervise_now ha
      · rw [hnote, Supervised.note_now]
      · rw [hsame]

end

end ControlPlane
