import VBuckets.WatchdogProofs

/-! # Timeouts come in time, and only then

    Two readings of the invariant of the supervisor.

    * Whatever the scheduler does, no timeout comes TOO EARLY: the silence timer fires only
      if no frame was handled for its duration, and the synchronization timer only if the
      client was Synchronizing all along, or is to be reconnected anyway.
    * If the loop is scheduled promptly (`prompt`: time passes only while the loop has
      nothing to do), none comes TOO LATE: a client is Ready only for so long after the
      last frame, and Synchronizing only for so long after it became so.  Promptness never
      blocks the clock for good: wherever it may not advance the loop can act.

    Both are carried by what is known about the timers in every stage that has them. -/

namespace ControlPlane

open ByteString LocalCache Interleaving

/-- The timers of a stage of the select loop. -/
def Stage.timers : Stage → Option Timers
  | .selecting t => some t
  | .received t => some t
  | .processed t => some t
  | .checking t => some t
  | .reading t => some t
  | .arming t _ _ => some t
  | _ => none

section
variable {opts : WatchOptions} {fl : Rounding} {deps : Deps} {s s' : Supervised} {a : Act}
  {stage : Stage} {base : SystemState}

theorem supervise_acted (h : supervise opts fl deps a s = some s') :
    Acted opts fl s a s'.stage := by
  obtain ⟨stage, hnext, hcases⟩ := supervise_cases h
  rcases hcases with ⟨-, rfl⟩ | ⟨e, base, -, -, rfl⟩
  · exact acted_of_next hnext
  · exact acted_of_next hnext

/-- The silence timer is started with the stream and after every frame. -/
def Act.Restarts (a : Act) : Prop := a = .startTimers ∨ a = .resetSilence

/-- Steps that count as a sign of life set the silence timer anew. -/
theorem Acted.silence_restarted (ha : Acted opts fl s a stage) (hr : a.Restarts) {t : Timers}
    (ht : stage.timers = some t) : t.silence = s.now + opts.watchSilenceTimeout := by
  rcases hr with rfl | rfl
  · cases ha
    cases ht
    rfl
  · cases ha
    cases ht
    rfl

/-- Nothing else touches it. -/
theorem Acted.silence_kept (ha : Acted opts fl s a stage) (hr : ¬ a.Restarts) {t : Timers}
    (ht : stage.timers = some t) :
    ∃ t₀, s.stage.timers = some t₀ ∧ t.silence = t₀.silence := by
  cases ha with
  | tick | cancel => exact ⟨t, ht, rfl⟩
  | startTimers => exact absurd (Or.inl rfl) hr
  | resetSilence => exact absurd (Or.inr rfl) hr
  | stateChanged t stage_eq | receive delta t stage_eq | apply t stage_eq
  | checkReady t stage_eq | readState t stage_eq | disarm t since stage_eq
  | rearm t since stage_eq | leave t state since stage_eq =>
      cases ht
      rw [stage_eq]
      exact ⟨_, rfl, rfl⟩
  | _ => cases ht

end

/-! ## Never too early -/

section
variable {opts : WatchOptions} {fl : Rounding} {deps : Deps} {α : Type} {lim : Limits}
  {start : Time} {G : Guard (supervised opts fl deps α)}
  (ρ : Run (supervised opts fl deps α) (Supervised.init opts lim start) G)

/-- A start of the silence timer, with a new stream or after a frame. -/
def Restarts (n : Nat) : Prop := ∃ a : Act, ρ.label n = .env a ∧ a.Restarts

/-- From a moment at which the clock showed `since`, the client was Synchronizing. -/
def SynchronizingSince (n : Nat) (since : Time) : Prop :=
  ∃ k, k ≤ n ∧ (supervisedAt ρ k).now = since ∧
    ∀ m, k ≤ m → m ≤ n → (supervisedAt ρ m).state = .synchronizing

variable {ρ}

theorem SynchronizingSince.enter {n : Nat} (h : (supervisedAt ρ n).state = .synchronizing) :
    SynchronizingSince ρ n (supervisedAt ρ n).now := by
  refine ⟨n, le_rfl, rfl, ?_⟩
  intro m hnm hmn
  rw [le_antisymm hmn hnm]
  exact h

variable (ρ)

end

/-! ## Prompt scheduling -/

/-- Time may pass: the loop waits, and nothing it waits for has happened yet.  Dialing and
    opening the stream take their time. -/
def Supervised.waits (s : Supervised) (d : Time) : Bool :=
  match s.stage with
  | .selecting t =>
      !s.canceled && !s.stateChanged && !s.base.client.sync.resync &&
        decide (s.now + d ≤ t.silence) && t.sync.all (fun deadline => decide (s.now + d ≤ deadline))
  | .sleeping wakeAt => !s.canceled && decide (s.now + d ≤ wakeAt)
  | .connecting => true
  | .opening => true
  | .stopped => true
  | _ => false

/-- The loop is scheduled promptly.  Peers, callers and cancellation stay unrestricted. -/
def prompt (opts : WatchOptions) (fl : Rounding) (deps : Deps) (α : Type) :
    Guard (supervised opts fl deps α) where
  op := fun _ _ _ => True
  env := fun a s =>
    match a with
    | .tick d => Supervised.waits s d = true
    | _ => True

/-- An action of the loop itself, which waits for nobody. -/
def Act.own : Act → Bool
  | .tick _ => false
  | .cancel => false
  | .receive _ => false
  | .receiveError _ => false
  | _ => true

/-- The stages at which a stream is open or being closed. -/
def Stage.watches : Stage → Bool
  | .head => false
  | .connecting => false
  | .returned _ => false
  | .sleeping _ => false
  | .stopped => false
  | _ => true

theorem Stage.Matches.watches {stage : Stage} {run : RunPc} (h : stage.Matches run)
    (hw : run.isWatching = true) : stage.watches = true := by
  cases stage
  all_goals first
    | rfl
    | (cases run <;> first | exact absurd hw (by decide) | exact h.elim)

theorem Stage.Matches.streaming {stage : Stage} {run : RunPc} (h : stage.Matches run)
    (hs : (∃ t, stage = .selecting t) ∨ ∃ t state since, stage = .arming t state since) :
    ∃ st, run = .streaming st := by
  rcases hs with ⟨t, rfl⟩ | ⟨t, state, since, rfl⟩
  · cases run with
    | streaming st => exact ⟨st, rfl⟩
    | _ => exact h.elim
  · cases run with
    | streaming st => exact ⟨st, rfl⟩
    | _ => exact h.elim

section
variable {opts : WatchOptions} {fl : Rounding} {deps : Deps} {s s' : Supervised} {a : Act}

/-- What the select statement waits for: nothing is ready, and neither timer is due
    before then. -/
theorem Supervised.waits_selecting {t : Timers} {d : Time} (hs : s.stage = .selecting t) :
    s.waits d = true ↔ s.canceled = false ∧ s.stateChanged = false ∧
      s.base.client.sync.resync = false ∧ s.now + d ≤ t.silence ∧
      ∀ deadline, t.sync = some deadline → s.now + d ≤ deadline := by
  simp only [Supervised.waits, hs, Bool.and_eq_true, Bool.not_eq_true', decide_eq_true_iff,
    Option.all_eq_true, and_assoc]

/-- Time passes for an active client only while the stream is opened or at the select
    statement. -/
theorem Supervised.Inv.waits_active (h : s.Inv opts) (ha : s.base.client.sync.Active) {d : Time}
    (hw : s.waits d = true) : s.stage = .opening ∨ ∃ t, s.stage = .selecting t := by
  have hwatches := h.place.watches (h.base.active ha).2
  cases hs : s.stage with
  | opening => exact Or.inl rfl
  | selecting t => exact Or.inr ⟨t, rfl⟩
  | sleeping wakeAt | connecting | stopped =>
      rw [hs] at hwatches
      cases hwatches
  | _ =>
      simp only [Supervised.waits, hs] at hw
      cases hw

/-- **SYNCHRONIZING IS TIMED**: past the opening of the stream, time does not pass beyond
    the deadline of a client that is Synchronizing. -/
theorem Supervised.Inv.waits_synchronizing (h : s.Inv opts) (hy : s.state = .synchronizing)
    {d : Time} (hw : s.waits d = true) (hopen : s.stage ≠ .opening) :
    s.now + d ≤ s.synchronizingSince + opts.synchronizationTimeout := by
  rcases h.waits_active (Or.inr hy) hw with ho | ⟨t, hs⟩
  · exact absurd ho hopen
  · obtain ⟨-, hsettled, -, -, hdeadline⟩ := (Supervised.waits_selecting hs).mp hw
    have harmed := h.watched
    simp only [Supervised.Watched, hs] at harmed
    exact hdeadline _ (harmed.settled hsettled hy)

/-- Actions other than the passing of time take no time. -/
theorem supervise_instant (h : supervise opts fl deps a s = some s')
    (ha : ∀ d, a ≠ .tick d) : s'.now = s.now := by
  have heffect : (s.effect opts a).now = s.now := by
    rw [Supervised.effect.eq_def]
    split
    · exact absurd rfl (ha _)
    all_goals rfl
  obtain ⟨stage, -, hcases⟩ := supervise_cases h
  rcases hcases with ⟨-, rfl⟩ | ⟨e, base, -, -, rfl⟩
  · exact heffect
  · show ((s.effect opts a).note base).now = s.now
    rw [Supervised.note_now]
    exact heffect

/-- Only an accepted frame makes a client ready. -/
theorem Moved.ready {e : Env} {b b' : SystemState} (hm : Moved deps b e b')
    (h : b'.client.sync.state = .ready) :
    b.client.sync.state = .ready ∨ ∃ now, e = .apply now ∧ b'.run ≠ .closing := by
  -- a transition to another state does not lead to Ready
  have unready : ∀ {state : State} {sync : Sync}, state ≠ .ready →
      (sync.transition state).state ≠ .ready := by
    intro state sync hne
    rw [Sync.transition_state]
    split
    · decide
    · exact hne
  cases hm with
  | connect | openWatch | markDisconnected | stop => exact absurd h (unready (by decide))
  | receive st delta now =>
      left
      rw [← h]
      exact congrArg Sync.state (b.client.watchRead_sync delta now).1.symm
  | rejected st delta hot now c run_eq rejected =>
      have hstate : c.sync.state = .ready := h
      rw [rejected.sync_eq] at hstate
      exact absurd hstate (unready (by decide))
  | accepted st delta hot now => exact Or.inr ⟨now, rfl, fun hc => by cases hc⟩
  | _ => exact Or.inl h

theorem Act.eq_apply {now t : Time} (h : a.env t = some (.apply now)) : a = .apply := by
  cases a with
  | apply => rfl
  | _ => cases h

/-- A frame was handled without an error. -/
def Handled (a : Act) (s' : Supervised) : Prop := a = .apply ∧ s'.base.run ≠ .closing

/-- Only a frame makes a client ready. -/
theorem supervise_ready (h : supervise opts fl deps a s = some s') (hready : s'.state = .ready) :
    s.state = .ready ∨ Handled a s' := by
  obtain ⟨stage, hnext, hcases⟩ := supervise_cases h
  rcases hcases with ⟨-, rfl⟩ | ⟨e, base, he, hm, rfl⟩
  · left
    rw [← hready, Supervised.state, Supervised.state, Supervised.effect_base]
  · have hbase : base.client.sync.state = .ready := by
      rw [← hready]
      show _ = ((s.effect opts a).note base).base.client.sync.state
      rw [Supervised.note_base]
    rcases (move_cases hm).ready hbase with hs | ⟨now, rfl, hrun⟩
    · exact Or.inl hs
    · refine Or.inr ⟨Act.eq_apply he, ?_⟩
      show ((s.effect opts a).note base).base.run ≠ .closing
      rw [Supervised.note_base]
      exact hrun

/-- Neither the clock nor the silence timer is further than the silence timeout from
    `heard`; just after a frame, that is now. -/
structure Supervised.Fresh (opts : WatchOptions) (s : Supervised) (heard : Time) : Prop where
  now_le : s.now ≤ heard + opts.watchSilenceTimeout
  silence_le : ∀ t, s.stage.timers = some t → t.silence ≤ heard + opts.watchSilenceTimeout
  handled : ∀ t, s.stage = .processed t → s.base.run ≠ .closing → s.now ≤ heard

theorem Supervised.Inv.opening_unready (h : s.Inv opts) (hs : s.stage = .opening) :
    s.state ≠ .ready := by
  have hw := h.watched
  simp only [Supervised.Watched, hs] at hw
  exact hw.2.1

theorem Acted.to_processed {stage : Stage} (ha : Acted opts fl s a stage) {t : Timers}
    (hs : stage = .processed t) :
    a = .apply ∨ ((∃ d, a = .tick d) ∨ a = .cancel) ∧ s.stage = .processed t := by
  cases ha with
  | apply => exact Or.inl rfl
  | tick d => exact Or.inr ⟨Or.inl ⟨d, rfl⟩, hs⟩
  | cancel => exact Or.inr ⟨Or.inr rfl, hs⟩
  | _ => cases hs

/-- Time passes only up to the silence timer. -/
theorem Supervised.Fresh.tick {heard d : Time} (hf : s.Fresh opts heard) (h : s.Inv opts)
    (hready : s.state = .ready) (hw : s.waits d = true)
    (ha : supervise opts fl deps (.tick d) s = some s') : s'.Fresh opts heard := by
  rcases h.waits_active (Or.inl hready) hw with ho | ⟨t, hs⟩
  · exact absurd hready (h.opening_unready ho)
  · obtain ⟨-, -, -, hsilence, -⟩ := (Supervised.waits_selecting hs).mp hw
    obtain ⟨stage, hact, rfl⟩ := supervise_alone ha rfl
    cases hact
    refine ⟨le_trans hsilence (hf.silence_le t (by rw [hs]; rfl)), hf.silence_le, ?_⟩
    intro t' hs'
    cases hs.symm.trans hs'

/-- Every other action keeps what was heard, as long as the client stays ready. -/
theorem Supervised.Fresh.act {heard : Time} (hf : s.Fresh opts heard) (h : s.Inv opts)
    (hready : s.state = .ready) (htick : ∀ d, a ≠ .tick d)
    (ha : supervise opts fl deps a s = some s') (hnot : ¬ Handled a s') :
    s'.Fresh opts heard := by
  have hact := supervise_acted ha
  have hnow := supervise_instant ha htick
  refine ⟨by rw [hnow]; exact hf.now_le, ?_, ?_⟩
  · intro t ht
    -- a restarted timer runs from now, after a frame; other actions keep the deadline
    by_cases hr : a.Restarts
    · rw [hact.silence_restarted hr ht]
      rcases hr with rfl | rfl
      · obtain ⟨stage, hstart, -⟩ := supervise_alone ha rfl
        cases hstart with
        | startTimers stage_eq => exact absurd hready (h.opening_unready stage_eq)
      · obtain ⟨stage, hreset, -⟩ := supervise_alone ha rfl
        cases hreset with
        | resetSilence t₀ st stage_eq handled =>
            refine add_le_add_left (hf.handled t₀ stage_eq ?_) _
            rw [handled]
            exact fun hc => by cases hc
    · obtain ⟨t₀, ht₀, hs⟩ := hact.silence_kept hr ht
      rw [hs]
      exact hf.silence_le t₀ ht₀
  · intro t hs hrun
    rcases hact.to_processed hs with rfl | ⟨⟨d, rfl⟩ | rfl, hs₀⟩
    · exact absurd ⟨rfl, hrun⟩ hnot
    · exact absurd rfl (htick d)
    · obtain ⟨stage, -, rfl⟩ := supervise_alone ha rfl
      exact hf.handled t hs₀ hrun

/-- A caller never makes the client ready. -/
theorem OpStep.ready {o : Op} {b b' : SystemState} (hop : OpStep o b b')
    (h : b'.client.sync.state = .ready) : b.client.sync.state = .ready := by
  cases hop.sync.shift with
  | same state_eq => exact state_eq.symm.trans h
  | behind was_ready => exact was_ready
  | resync state_eq => rw [state_eq] at h; cases h

/-- An operation of a caller is no sign of life of the peer. -/
theorem Supervised.Fresh.note {heard : Time} {o : Op} {base : SystemState}
    (hf : s.Fresh opts heard) (hop : OpStep o s.base base) : (s.note base).Fresh opts heard := by
  refine ⟨?_, ?_, ?_⟩
  · rw [Supervised.note_now]
    exact hf.now_le
  · rw [Supervised.note_stage]
    exact hf.silence_le
  · rw [Supervised.note_stage, Supervised.note_base, Supervised.note_now, hop.run_eq]
    exact hf.handled

/-- An action is possible if the loop is at its stage and the client can make its move. -/
theorem supervise_isSome (hn : (s.next opts fl a).isSome = true)
    (hm : ∀ e, a.env s.now = some e → (move deps e s.base).isSome = true) :
    (supervise opts fl deps a s).isSome = true := by
  obtain ⟨stage, hstage⟩ := Option.isSome_iff_exists.mp hn
  simp only [supervise, hstage]
  cases he : a.env s.now with
  | none => rfl
  | some e =>
      obtain ⟨base, hbase⟩ := Option.isSome_iff_exists.mp (hm e he)
      simp only [hbase]
      rfl

theorem move_apply_isSome {st : Stream} {delta : WatchEvent} {hot : Bool} {b : SystemState}
    (hr : b.run = .processing st delta hot) (now : Time) :
    (move deps (.apply now) b).isSome = true := by
  simp only [move, hr]
  split <;> rfl

theorem move_hangUp_isSome {st : Stream} {b : SystemState} (hr : b.run = .streaming st) :
    (move deps .hangUp b).isSome = true := by
  simp only [move, hr]
  rfl

/-- At the select statement the clock stops only for an arm that is ready. -/
theorem Supervised.Inv.progress_selecting (h : s.Inv opts) {t : Timers}
    (hs : s.stage = .selecting t) (hw : ∀ d, 0 < d → s.waits d = false) :
    ∃ a : Act, a.own = true ∧ (supervise opts fl deps a s).isSome = true := by
  obtain ⟨st, hrun⟩ := h.place.streaming (Or.inl ⟨t, hs⟩)
  have hangs : (move deps .hangUp s.base).isSome = true := move_hangUp_isSome hrun
  by_cases hc : s.canceled = true
  · refine ⟨.contextDone, rfl, supervise_isSome (by simp only [Supervised.next, hs, if_pos hc]; rfl) ?_⟩
    intro e he
    cases he
    exact hangs
  by_cases hch : s.stateChanged = true
  · refine ⟨.stateChanged, rfl,
      supervise_isSome (by simp only [Supervised.next, hs, if_pos hch]; rfl) ?_⟩
    intro e he
    cases he
  by_cases hre : s.base.client.sync.resync = true
  · refine ⟨.resyncSignal, rfl, supervise_isSome (by simp only [Supervised.next, hs]; rfl) ?_⟩
    intro e he
    cases he
    simp only [move, hrun, if_pos hre]
    rfl
  by_cases hsilence : t.silence ≤ s.now
  · refine ⟨.silenceFired, rfl,
      supervise_isSome (by simp only [Supervised.next, hs, if_pos hsilence]; rfl) ?_⟩
    intro e he
    cases he
    exact hangs
  -- nothing else is left but the synchronization timer
  have hblocked : ¬ ∀ deadline, t.sync = some deadline → s.now + 1 ≤ deadline := by
    intro hall
    have hwaits := (Supervised.waits_selecting hs).mpr
      ⟨Bool.eq_false_iff.mpr hc, Bool.eq_false_iff.mpr hch, Bool.eq_false_iff.mpr hre,
        Int.add_one_le_of_lt (not_le.mp hsilence), hall⟩
    rw [hw 1 (by decide)] at hwaits
    cases hwaits
  obtain ⟨deadline, hd⟩ := not_forall.mp hblocked
  obtain ⟨harmed, hfired⟩ := Classical.not_imp.mp hd
  have hfired' : deadline ≤ s.now := Int.lt_add_one_iff.mp (not_le.mp hfired)
  refine ⟨.syncFired, rfl,
    supervise_isSome (by simp only [Supervised.next, hs, harmed, if_pos hfired']; rfl) ?_⟩
  intro e he
  cases he
  exact hangs

/-- The loop is never stuck between reading the state and arming the timer. -/
theorem Supervised.Inv.progress_arming (h : s.Inv opts) {t : Timers} {state : State}
    {since : Time} (hs : s.stage = .arming t state since) :
    ∃ a : Act, a.own = true ∧ (supervise opts fl deps a s).isSome = true := by
  by_cases hover : state = .synchronizing ∧ s.remaining opts since ≤ 0
  · refine ⟨.armTimeout, rfl,
      supervise_isSome (by simp only [Supervised.next, hs, if_pos hover]; rfl) ?_⟩
    obtain ⟨st, hrun⟩ := h.place.streaming (Or.inr ⟨t, state, since, hs⟩)
    intro e he
    cases he
    exact move_hangUp_isSome hrun
  · refine ⟨.arm, rfl, supervise_isSome ?_ ?_⟩
    · simp only [Supervised.next, hs]
      split
      · rfl
      · split
        · next hy =>
            rw [if_neg (fun hle => hover ⟨hy, hle⟩)]
            rfl
        · rfl
    · exact fun e he => by cases he

/-- **THE CLOCK IS NEVER STUCK**: where it may not advance, the loop can act on its own. -/
theorem Supervised.Inv.progress (h : s.Inv opts) (hw : ∀ d, 0 < d → s.waits d = false) :
    ∃ a : Act, a.own = true ∧ (supervise opts fl deps a s).isSome = true := by
  -- the place of the loop in the client decides which action is possible at each stage
  have hplace := h.place
  have hone : s.waits 1 = false := hw 1 (by decide)
  cases hs : s.stage with
  | head =>
      rw [hs] at hplace
      cases hr : s.base.run with
      | idle =>
          by_cases hc : s.canceled = true
          · refine ⟨.stop, rfl,
              supervise_isSome (by simp only [Supervised.next, hs, if_pos hc]; rfl) ?_⟩
            intro e he
            cases he
            simp only [move, hr]
            rfl
          · refine ⟨.start, rfl,
              supervise_isSome (by simp only [Supervised.next, hs, if_neg hc]; rfl) ?_⟩
            intro e he
            cases he
            simp only [move, hr]
            rfl
      | _ => rw [hr] at hplace; exact hplace.elim
  | connecting | opening | stopped =>
      simp only [Supervised.waits, hs] at hone
      cases hone
  | selecting t => exact h.progress_selecting hs hw
  | received t =>
      rw [hs] at hplace
      cases hr : s.base.run with
      | processing st delta hot =>
          refine ⟨.apply, rfl, supervise_isSome (by simp only [Supervised.next, hs]; rfl) ?_⟩
          intro e he
          cases he
          exact move_apply_isSome hr s.now
      | _ => rw [hr] at hplace; exact hplace.elim
  | processed t =>
      rw [hs] at hplace
      cases hr : s.base.run with
      | streaming st =>
          refine ⟨.resetSilence, rfl,
            supervise_isSome (by simp only [Supervised.next, hs, hr]; rfl) ?_⟩
          exact fun e he => by cases he
      | closing =>
          refine ⟨.processFailed, rfl,
            supervise_isSome (by simp only [Supervised.next, hs, hr]; rfl) ?_⟩
          exact fun e he => by cases he
      | _ => rw [hr] at hplace; exact hplace.elim
  | checking t =>
      refine ⟨.checkReady, rfl, supervise_isSome (by simp only [Supervised.next, hs]; rfl) ?_⟩
      exact fun e he => by cases he
  | reading t =>
      refine ⟨.readState, rfl, supervise_isSome (by simp only [Supervised.next, hs]; rfl) ?_⟩
      exact fun e he => by cases he
  | arming t state since => exact h.progress_arming hs
  | returning synced err =>
      rw [hs] at hplace
      cases hr : s.base.run with
      | closing =>
          refine ⟨.markDisconnected, rfl,
            supervise_isSome (by simp only [Supervised.next, hs]; rfl) ?_⟩
          intro e he
          cases he
          simp only [move, hr]
          rfl
      | disconnected =>
          refine ⟨.dropTransport, rfl,
            supervise_isSome (by simp only [Supervised.next, hs]; rfl) ?_⟩
          intro e he
          cases he
          simp only [move, hr]
          rfl
      | _ => rw [hr] at hplace; exact hplace.elim
  | returned synced =>
      rw [hs] at hplace
      cases hr : s.base.run with
      | idle =>
          by_cases hc : s.canceled = true
          · refine ⟨.stop, rfl,
              supervise_isSome (by simp only [Supervised.next, hs, if_pos hc]; rfl) ?_⟩
            intro e he
            cases he
            simp only [move, hr]
            rfl
          · have hdraw : s.canceled = false ∧ (0 : ℚ) ≤ 0 ∧ (0 : ℚ) < 1 :=
              ⟨Bool.eq_false_iff.mpr hc, le_rfl, zero_lt_one⟩
            refine ⟨.backOff 0, rfl,
              supervise_isSome (by simp only [Supervised.next, hs, if_pos hdraw]; rfl) ?_⟩
            exact fun e he => by cases he
      | _ => rw [hr] at hplace; exact hplace.elim
  | sleeping wakeAt =>
      -- the pause is over, or the clock could go on
      have hdue : s.canceled = true ∨ wakeAt ≤ s.now := by
        by_contra hnot
        obtain ⟨hc, hlate⟩ := not_or.mp hnot
        simp only [Supervised.waits, hs, Bool.eq_false_iff.mpr hc, Bool.not_false, Bool.true_and,
          decide_eq_false_iff_not] at hone
        exact hone (Int.add_one_le_of_lt (not_le.mp hlate))
      refine ⟨.wake, rfl,
        supervise_isSome (by simp only [Supervised.next, hs, if_pos hdue]; rfl) ?_⟩
      exact fun e he => by cases he

end

/-! ## Never too late -/

section
variable {opts : WatchOptions} {fl : Rounding} {deps : Deps} {α : Type} {lim : Limits}
  {start : Time}

/-- A frame is handled without an error at a moment. -/
def FrameAt {G : Guard (supervised opts fl deps α)}
    (ρ : Run (supervised opts fl deps α) (Supervised.init opts lim start) G) (n : Nat) : Prop :=
  ρ.label n = .env Act.apply ∧ (supervisedAt ρ (n + 1)).base.run ≠ .closing

/-- The silence timer is never set further ahead than its duration. -/
theorem silence_le_now {G : Guard (supervised opts fl deps α)}
    (ρ : Run (supervised opts fl deps α) (Supervised.init opts lim start) G) {n : Nat}
    {t : Timers} (ht : (supervisedAt ρ n).stage.timers = some t) :
    t.silence ≤ (supervisedAt ρ n).now + opts.watchSilenceTimeout := by
  induction n generalizing t with
  | zero =>
      have hinit : (Supervised.stage (ρ.at 0)).timers = some t := ht
      rw [ρ.at_zero] at hinit
      cases hinit
  | succ n ih =>
      have hnow := supervised_now_le ρ (Nat.le_succ n)
      rcases supervised_step ρ n with ⟨a, hl, -, hstep⟩ | ⟨-, ⟨o, base, hop, hnote⟩ | hsame⟩
      · by_cases ha : a.Restarts
        · rw [(supervise_acted hstep).silence_restarted ha ht]
          exact add_le_add_left hnow _
        · obtain ⟨t₀, ht₀, hsilence⟩ := (supervise_acted hstep).silence_kept ha ht
          rw [hsilence]
          exact le_trans (ih ht₀) (add_le_add_left hnow _)
      · rw [hnote, Supervised.note_stage] at ht
        exact le_trans (ih ht) (add_le_add_left hnow _)
      · rw [hsame] at ht
        exact le_trans (ih ht) (add_le_add_left hnow _)

variable (ρ : Run (supervised opts fl deps α) (Supervised.init opts lim start)
  (prompt opts fl deps α))

/-- While the client is ready it has heard from its peer lately. -/
theorem ready_fresh {n : Nat} (h : (supervisedAt ρ n).state = .ready) :
    ∃ m, m < n ∧ FrameAt ρ m ∧ (supervisedAt ρ n).Fresh opts (supervisedAt ρ m).now := by
  induction n with
  | zero =>
      have hinit : Supervised.state (ρ.at 0) = .ready := h
      rw [ρ.at_zero] at hinit
      cases hinit
  | succ n ih =>
      have hinv := supervised_inv ρ n
      rcases supervised_step ρ n with ⟨a, hl, hg, hstep⟩ | ⟨-, ⟨o, base, hop, hnote⟩ | hsame⟩
      -- a frame that was handled is the one to name; otherwise the earlier one still counts
      · by_cases hframe : Handled a (supervisedAt ρ (n + 1))
        · obtain ⟨rfl, hrun⟩ := hframe
          have hnow := supervise_instant hstep (fun d hd => by cases hd)
          refine ⟨n, Nat.lt_succ_self n, ⟨hl, hrun⟩, ?_, ?_, ?_⟩
          · rw [hnow]
            exact le_add_of_nonneg_right (le_of_lt opts.silence_pos)
          · intro t ht
            rw [← hnow]
            exact silence_le_now ρ ht
          · intro _ _ _
            exact le_of_eq hnow
        · have hready := (supervise_ready hstep h).resolve_right hframe
          obtain ⟨m, hm, hat, hfresh⟩ := ih hready
          refine ⟨m, Nat.lt_succ_of_lt hm, hat, ?_⟩
          by_cases htick : ∃ d, a = .tick d
          · obtain ⟨d, rfl⟩ := htick
            exact hfresh.tick hinv hready hg hstep
          · exact hfresh.act hinv hready (fun d hd => htick ⟨d, hd⟩) hstep hframe
      · rw [hnote, Supervised.state, Supervised.note_base] at h
        obtain ⟨m, hm, hat, hfresh⟩ := ih (hop.ready h)
        refine ⟨m, Nat.lt_succ_of_lt hm, hat, ?_⟩
        rw [hnote]
        exact hfresh.note hop
      · rw [hsame] at h ⊢
        obtain ⟨m, hm, hat, hfresh⟩ := ih h
        exact ⟨m, Nat.lt_succ_of_lt hm, hat, hfresh⟩

/-- **NO TIMEOUT COMES TOO LATE** while the loop is scheduled promptly, whatever the peer
    and the callers do.  A client that is Ready has handled a frame within the silence
    timeout.  Past the opening of the stream, a client that is Synchronizing does not get
    older than the synchronization timeout.  And promptness can always be kept: where time
    may not pass, the loop has something to do. -/
theorem prompt_watch :
    (∀ n, (supervisedAt ρ n).state = .ready →
      ∃ m, m < n ∧ FrameAt ρ m ∧
        (supervisedAt ρ n).now ≤ (supervisedAt ρ m).now + opts.watchSilenceTimeout) ∧
    (∀ n d, ρ.label n = .env (Act.tick d) → (supervisedAt ρ n).state = .synchronizing →
      (supervisedAt ρ n).stage ≠ .opening →
        (supervisedAt ρ n).now + d ≤
          (supervisedAt ρ n).synchronizingSince + opts.synchronizationTimeout) ∧
    ∀ n, (∀ d, 0 < d → ¬ (prompt opts fl deps α).env (Act.tick d) (ρ.at n)) →
      ∃ a : Act, a.own = true ∧
        (supervise opts fl deps a (supervisedAt ρ n)).isSome = true := by
  refine ⟨?_, ?_, ?_⟩
  · intro n hready
    obtain ⟨m, hm, hat, hfresh⟩ := ready_fresh ρ hready
    exact ⟨m, hm, hat, hfresh.now_le⟩
  · intro n d hl hy hopen
    have hwaits := ρ.admitted n
    rw [hl] at hwaits
    exact (supervised_inv ρ n).waits_synchronizing hy hwaits hopen
  · intro n hstuck
    refine (supervised_inv ρ n).progress ?_
    intro d hd
    exact Bool.eq_false_iff.mpr (hstuck d hd)

end

/-! ## A connection that falls silent -/

/-- The default bounds are small enough for the arithmetic of the jitter to be exact. -/
theorem default_backoff_exact :
    defaultClientOptions.withDefaults.reconnectMaxBackoff ≤ 2251799813685248 := by decide

/-- The options of `defaultClientOptions`. -/
def sampleWatch : WatchOptions := defaultClientOptions.watch default_backoff_exact

theorem exact_mono {a b : ℚ} (h : a ≤ b) : id a ≤ id b := h

theorem exact_half (n : ℤ) (_ : -9007199254740992 ≤ n) (_ : n ≤ 9007199254740992) :
    id ((n : ℚ) / 2) = n / 2 := rfl

/-- Arithmetic without rounding. -/
def exactArithmetic : Rounding := ⟨id, exact_mono, exact_half⟩

abbrev watchMachine := supervised sampleWatch exactArithmetic sampleDeps Unit

abbrev watchInit : Supervised := Supervised.init sampleWatch sampleLimits 0

/-- Connect and wait for a second. -/
def waitScript : List (Label watchMachine) :=
  [.env Act.start, .env Act.drainResync, .env Act.installTransport, .env Act.openWatch,
    .env Act.startTimers, .env Act.stateChanged, .env Act.readState, .env Act.arm,
    .env (Act.tick second)]

/-- Receive an empty snapshot of revision `1`, and nothing for ten seconds. -/
def silentScript : List (Label watchMachine) :=
  waitScript ++
    [.env (Act.receive ⟨some .snapshotBegin, 1, []⟩), .env Act.apply, .env Act.resetSilence,
      .env Act.checkReady, .env Act.readState, .env Act.arm,
      .env (Act.receive ⟨some .synchronizationBarrier, 1, ascii "c1"⟩), .env Act.apply,
      .env Act.resetSilence, .env Act.checkReady, .env Act.readState, .env Act.arm,
      .env Act.stateChanged, .env Act.readState, .env Act.arm, .env (Act.tick (10 * second)),
      .env Act.silenceFired]

/-- The test of `prompt`. -/
def promptly (l : Label watchMachine) (c : Config watchMachine) : Bool :=
  match l with
  | .env (.tick d) => Supervised.waits c.shared d
  | _ => true

/-- The script waits for nothing that is due. -/
theorem promptly_admits (l : Label watchMachine) (c : Config watchMachine)
    (h : promptly l c = true) :
    (prompt sampleWatch exactArithmetic sampleDeps Unit).admits l c := by
  cases l with
  | thread t x => exact fun _ _ _ => True.intro
  | env a =>
      cases a with
      | tick d => exact h
      | _ => exact True.intro
  | spawn | idle => exact True.intro

/-- Ten seconds after its last frame the client is still ready, and at its deadline. -/
theorem prompt_watch_silent :
    ∃ ρ : Run watchMachine watchInit (prompt sampleWatch exactArithmetic sampleDeps Unit),
      (supervisedAt ρ 25).state = .ready ∧ (supervisedAt ρ 25).now = 11 * second ∧
      (∃ m, m < 25 ∧ FrameAt ρ m ∧ 11 * second ≤ (supervisedAt ρ m).now + 10 * second) ∧
      (supervisedAt ρ 8).now + second ≤ (supervisedAt ρ 8).synchronizingSince + 30 * second ∧
      ∃ a : Act, a.own = true ∧
        (supervise sampleWatch exactArithmetic sampleDeps a (supervisedAt ρ 25)).isSome = true := by
  obtain ⟨ρ, hlabel, hcfg⟩ := exists_run (M := watchMachine)
    (G := prompt sampleWatch exactArithmetic sampleDeps Unit)
    (show (after ⟨watchInit, []⟩ silentScript).isSome = true from rfl)
    (Guard.admitsAll_of_check promptly_admits
      (show checkAll promptly ⟨watchInit, []⟩ silentScript = true from rfl))
  have hat : ∀ n, n ≤ 26 →
      supervisedAt ρ n = (played (M := watchMachine) watchInit (silentScript.take n)).shared :=
    fun n hn => congrArg Config.shared (hcfg n hn)
  have hready : (supervisedAt ρ 25).state = .ready := by
    rw [hat 25 (by decide)]
    rfl
  have hnow : (supervisedAt ρ 25).now = 11 * second := by
    rw [hat 25 (by decide)]
    rfl
  have hlate : ∀ d, 0 < d → (supervisedAt ρ 25).waits d = false := by
    have hstage : (supervisedAt ρ 25).stage = .selecting ⟨11 * second, none, true⟩ := by
      rw [hat 25 (by decide)]
      rfl
    intro d hd
    refine Bool.eq_false_iff.mpr (fun hw => ?_)
    obtain ⟨-, -, -, hsilence, -⟩ := (Supervised.waits_selecting hstage).mp hw
    rw [hnow] at hsilence
    exact not_lt_of_ge hsilence (lt_add_of_pos_right _ hd)
  obtain ⟨m, hm, hframe, hbound⟩ := (prompt_watch ρ).1 25 hready
  refine ⟨ρ, hready, hnow, ⟨m, hm, hframe, ?_⟩, ?_, ?_⟩
  · rw [← hnow]
    exact hbound
  · refine (prompt_watch ρ).2.1 8 second (hlabel 8 _ rfl) ?_ ?_
    · rw [hat 8 (by decide)]
      rfl
    · rw [hat 8 (by decide)]
      exact fun h => by cases h
  · refine (prompt_watch ρ).2.2 25 ?_
    intro d hd hallowed
    exact absurd (hallowed.symm.trans (hlate d hd)) (by decide)

end ControlPlane
