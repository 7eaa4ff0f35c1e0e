import VBuckets.ReadinessProofs

/-! # Resolution stamps

    `BeginResolution` answers with the revision and the epoch of a ready client, and
    `ValidateResolution` compares them with the present ones (`controlplane/lookup.go`).
    Every departure from Ready retires the epoch, so equal stamps enclose an interval in
    which nothing the stamp vouches for has moved, even if the client was back in Ready
    at the same revision. -/

namespace ControlPlane

open ByteString Interleaving

section
variable {deps : Deps} {α : Type} {lim : Limits} {G : Guard (machine deps α)}

/-- At moment `n` some thread's `BeginResolution` is answered with `stamp`. -/
def Begins (ρ : Run (machine deps α) (SystemState.init lim) G) (n : Nat)
    (stamp : ResolutionStamp) : Prop :=
  ∃ t, ρ.Performs n t Op.lookupSnapshot (.ok (stamp.revision, stamp.epoch))

/-- At moment `n` some thread's `ValidateResolution` accepts `stamp`. -/
def Validates (ρ : Run (machine deps α) (SystemState.init lim) G) (n : Nat)
    (stamp : ResolutionStamp) : Prop :=
  ∃ t, ρ.Performs n t (Op.stillCurrent stamp.revision stamp.epoch) true

/-- At moment `n` the client accepts `delta`. -/
def AcceptsAt (ρ : Run (machine deps α) (SystemState.init lim) G) (n : Nat)
    (delta : WatchEvent) : Prop :=
  ∃ now st hot, ρ.label n = .env (Env.apply now) ∧
    SystemState.run (ρ.at n) = .processing st delta hot ∧
    ((clientAt ρ n).watchApply deps.hasETLDPlusOne delta hot now).1 = none

variable {ρ : Run (machine deps α) (SystemState.init lim) G}

/-! ## What the answers say -/

/-- A view is handed out by a ready client, at its revision and epoch. -/
theorem lookupSnapshot_ok {c : Client} {revision epoch : Nat}
    (h : c.lookupSnapshot = .ok (revision, epoch)) :
    c.sync.state = .ready ∧ c.sync.revision = revision ∧ c.sync.epoch = epoch := by
  simp only [Client.lookupSnapshot] at h
  by_cases hr : c.sync.state ≠ .ready
  · rw [if_pos hr] at h; exact nomatch h
  · rw [if_neg hr] at h
    by_cases hc : (!c.connected) = true
    · rw [if_pos hc] at h; exact nomatch h
    · rw [if_neg hc] at h
      have hp := Except.ok.inj h
      exact ⟨not_not.mp hr, congrArg Prod.fst hp, congrArg Prod.snd hp⟩

/-- The view is still current if the client is ready at the same revision and in the
    same epoch. -/
theorem stillCurrent_true {c : Client} {revision epoch : Nat}
    (h : c.stillCurrent revision epoch = true) :
    c.sync.state = .ready ∧ c.sync.revision = revision ∧ c.sync.epoch = epoch := by
  simpa [Client.stillCurrent, and_assoc] using h

/-- A stamp is the view at the moment it is taken. -/
theorem Begins.view {n : Nat} {stamp : ResolutionStamp} (h : Begins ρ n stamp) :
    (clientAt ρ n).sync.state = .ready ∧ (clientAt ρ n).sync.revision = stamp.revision ∧
      (clientAt ρ n).sync.epoch = stamp.epoch := by
  obtain ⟨t, x, k, new, -, -, he⟩ := h
  obtain ⟨-, hv⟩ := of_unlocked he
  exact lookupSnapshot_ok (congrArg Prod.fst hv)

/-- And it is accepted only if that is the view again. -/
theorem Validates.view {n : Nat} {stamp : ResolutionStamp} (h : Validates ρ n stamp) :
    (clientAt ρ n).sync.state = .ready ∧ (clientAt ρ n).sync.revision = stamp.revision ∧
      (clientAt ρ n).sync.epoch = stamp.epoch := by
  obtain ⟨t, x, k, new, -, -, he⟩ := h
  obtain ⟨-, hv⟩ := of_unlocked he
  exact stillCurrent_true (congrArg Prod.fst hv)

/-- An accepted frame takes the client to the next moment. -/
theorem AcceptsAt.accepted {n : Nat} {delta : WatchEvent} (h : AcceptsAt ρ n delta) :
    ∃ hot now, (clientAt ρ n).sync.Active ∧
      Accepted deps.hasETLDPlusOne (clientAt ρ n) delta hot now (clientAt ρ (n + 1)) := by
  obtain ⟨now, st, hot, hl, hrun, hnone⟩ := h
  refine ⟨hot, now, ?_⟩
  rcases watchApply_cases deps.hasETLDPlusOne (clientAt ρ n) delta hot now with
    ⟨-, hw⟩ | ⟨m, c, hw, -⟩ | ⟨c, hw, hact, hacc⟩
  · rw [hw] at hnone; cases hnone
  · rw [hw] at hnone; cases hnone
  · refine ⟨hact, ?_⟩
    have hnext : clientAt ρ (n + 1) = c := by
      rcases ρ.step_cases n with ⟨t, x, hl', -⟩ | ⟨e, hl', -, hm, -⟩ | ⟨t, j, hl', -⟩ | ⟨hl', -⟩
      · rw [hl] at hl'; cases hl'
      · rw [hl] at hl'
        injection hl' with he
        subst he
        have hm' : move deps (Env.apply now) (ρ.at n) = some (ρ.at (n + 1)) := hm
        simp only [move, hrun] at hm'
        have hw' : (SystemState.client (ρ.at n)).watchApply deps.hasETLDPlusOne delta hot now
            = (none, c) := hw
        rw [hw'] at hm'
        have hs := Option.some.inj hm'
        show SystemState.client (ρ.at (n + 1)) = c
        rw [← hs]
      · rw [hl] at hl'; cases hl'
      · rw [hl] at hl'; cases hl'
    rw [hnext]
    exact hacc

/-! ## Between two equal stamps -/

/-- Two ready moments with the same revision and epoch agree on everything in between. -/
theorem view_constant {i j k : Nat} (hik : i ≤ k) (hkj : k ≤ j)
    (hready : (clientAt ρ i).sync.state = .ready)
    (hrev : (clientAt ρ j).sync.revision = (clientAt ρ i).sync.revision)
    (hepoch : (clientAt ρ j).sync.epoch = (clientAt ρ i).sync.epoch) :
    (clientAt ρ k).sync.state = .ready ∧
      (clientAt ρ k).sync.revision = (clientAt ρ i).sync.revision ∧
      (clientAt ρ k).sync.cursor = (clientAt ρ i).sync.cursor ∧
      (clientAt ρ k).sync.baseHosts = (clientAt ρ i).sync.baseHosts := by
  have h1 := run_progress ρ hik
  have h2 := run_progress ρ hkj
  have hrev' : (clientAt ρ k).sync.revision = (clientAt ρ i).sync.revision :=
    Nat.le_antisymm (hrev ▸ h2.revision) h1.revision
  have hepoch' : (clientAt ρ k).sync.epoch = (clientAt ρ i).sync.epoch :=
    Nat.le_antisymm (hepoch ▸ h2.epoch) h1.epoch
  obtain ⟨hr, hhosts⟩ := h1.steady hready hepoch'
  refine ⟨hr, hrev', ?_, hhosts hrev'⟩
  by_contra hc
  have hlt := h1.cursor hc
  omega

/-- A frame accepted between two ready moments of one revision mutates nothing. -/
theorem accepted_idle {n : Nat} {delta : WatchEvent} (h : AcceptsAt ρ n delta)
    (hready : (clientAt ρ n).sync.state = .ready)
    (hready' : (clientAt ρ (n + 1)).sync.state = .ready)
    (hrev : (clientAt ρ (n + 1)).sync.revision = (clientAt ρ n).sync.revision) :
    delta.event = some .synchronizationBarrier ∨ delta.event = some .heartbeat := by
  obtain ⟨hot, now, hact, hacc⟩ := h.accepted
  have hnone : (clientAt ρ n).sync.snapshot = none := ((run_inv ρ n).sync.ready hready).1
  -- the accepted frame decides what the next client is
  generalize clientAt ρ (n + 1) = c' at hacc hready' hrev
  cases hacc with
  | snapshotBegin event_eq no_snapshot revision_ne revision_le =>
      have hst : ((clientAt ρ n).sync.transition .synchronizing).state = .ready := hready'
      rw [Sync.transition_state, hready] at hst
      exact nomatch hst
  | snapshotBarrier snap event_eq | resumeBarrier event_eq => exact Or.inl event_eq
  | heartbeat event_eq => exact Or.inr event_eq
  | snapshotEntry snap d domain event_eq snapshot_eq =>
      rw [hnone] at snapshot_eq
      exact nomatch snapshot_eq
  | mutation event c₁ event_eq expected applied =>
      obtain ⟨-, -, -, -, hnext, -, -⟩ := Sync.expectsMutation_iff.mp expected
      have hrev' : (c₁.sync.advance delta.revision delta.cursor).revision
          = (clientAt ρ n).sync.revision := hrev
      have hadv : (c₁.sync.advance delta.revision delta.cursor).revision = delta.revision := by
        simp only [Sync.advance]
        split
        · split
          · simp
          · rfl
        · rfl
      omega

/-- **STAMPS ARE SOUND**: if a stamp was handed out and is later accepted, then in
    between the client was Ready at every moment, its revision, cursor and base-host
    registry are those of the stamp's moment, and the only frames it accepted were
    barriers and heartbeats. -/
theorem resolution_stamp_sound {i j : Nat} {stamp : ResolutionStamp}
    (hbegin : Begins ρ i stamp) (hvalid : Validates ρ j stamp) :
    ∀ k, i ≤ k → k ≤ j →
      (clientAt ρ k).sync.state = .ready ∧
      (clientAt ρ k).sync.revision = (clientAt ρ i).sync.revision ∧
      (clientAt ρ k).sync.cursor = (clientAt ρ i).sync.cursor ∧
      (clientAt ρ k).sync.baseHosts = (clientAt ρ i).sync.baseHosts ∧
      (k < j → ∀ delta, AcceptsAt ρ k delta →
        delta.event = some .synchronizationBarrier ∨ delta.event = some .heartbeat) := by
  intro k hik hkj
  obtain ⟨hready, hrev, hepoch⟩ := hbegin.view
  obtain ⟨-, hrev', hepoch'⟩ := hvalid.view
  have hr : (clientAt ρ j).sync.revision = (clientAt ρ i).sync.revision := hrev'.trans hrev.symm
  have he : (clientAt ρ j).sync.epoch = (clientAt ρ i).sync.epoch := hepoch'.trans hepoch.symm
  obtain ⟨hk, hkrev, hkcur, hkhosts⟩ := view_constant hik hkj hready hr he
  refine ⟨hk, hkrev, hkcur, hkhosts, ?_⟩
  intro hlt delta hacc
  obtain ⟨hk', hkrev', -, -⟩ := view_constant (Nat.le_succ_of_le hik) hlt hready hr he
  exact accepted_idle hacc hk hk' (hkrev'.trans hkrev.symm)

end

/-- A choice for operations that consult nothing. -/
def plainChoice : Choice where
  readAt := 0
  rereadAt := 0
  setAt := 0
  admitted := true
  canceled := false
  lookupResponse := fun _ => .error .other
  createResponse := .error .other
  listResponse := .error .other

/-- One caller takes a stamp, another validates it. -/
def stampScript : List (Label sampleMachine) :=
  bootScript ++
    [.spawn 0 ((call .beginResolution).bind (fun _ => .ret ())), .thread 0 plainChoice,
      .spawn 1 ((call (.validateResolution ⟨1, 0⟩)).bind (fun _ => .ret ())),
      .thread 1 plainChoice]

/-- A stamp that is taken and accepted right after the first snapshot: the client
    stayed where it was in between. -/
theorem resolution_stamp_sound_after_boot :
    ∃ ρ : Run sampleMachine sampleInit (Guard.any sampleMachine),
      Begins ρ 9 ⟨1, 0⟩ ∧ Validates ρ 11 ⟨1, 0⟩ ∧
      (clientAt ρ 10).sync.state = .ready ∧
      (clientAt ρ 10).sync.cursor = (clientAt ρ 9).sync.cursor := by
  obtain ⟨ρ, hlabel, hcfg⟩ := exists_run (M := sampleMachine) (G := Guard.any sampleMachine)
    (show (after ⟨sampleInit, []⟩ stampScript).isSome = true from rfl) (Guard.any_admitsAll _ _)
  have hb : Begins ρ 9 ⟨1, 0⟩ :=
    ⟨0, Run.performs_of_played (hlabel 9 _ rfl) (hcfg 9 (by decide)) (hcfg 10 (by decide))
      rfl rfl⟩
  have hv : Validates ρ 11 ⟨1, 0⟩ :=
    ⟨1, Run.performs_of_played (hlabel 11 _ rfl) (hcfg 11 (by decide)) (hcfg 12 (by decide))
      rfl rfl⟩
  have hs := resolution_stamp_sound hb hv 10 (by decide) (by decide)
  exact ⟨ρ, hb, hv, hs.1, hs.2.2.1⟩

end ControlPlane
