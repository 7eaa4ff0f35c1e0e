import VBuckets.InterleavingProofs

/-! # Machines laid over machines

    A machine REFINES another one when its state has an image there, every operation
    answers what it answers on the image, and every move of the environment is a move of
    the other machine or leaves the image as it is.  Programs are shared: the upper machine
    may keep more state and allow less, but it runs the same threads.

    A run of the upper machine then has an image, moment by moment, and everything proved
    about runs of the lower machine holds of it. -/

namespace Interleaving

variable {S : Sig} {α : Type}

/-- A machine `M` over a machine `N`.  A move without image is invisible below. -/
structure Simulation (M N : Machine S α) where
  state : M.State → N.State
  choice : M.State → M.Choice → N.Choice
  job : M.Job → N.Job
  move : M.Env → M.State → Option N.Env
  body_eq : ∀ j, N.body (job j) = M.body j
  exec_eq : ∀ {o x s r s' new}, M.exec o x s = some (r, s', new) →
    N.exec o (choice s x) (state s) = some (r, state s', new)
  visible : ∀ {e s s' e'}, M.move e s = some s' → move e s = some e' →
    N.move e' (state s) = some (state s')
  invisible : ∀ {e s s'}, M.move e s = some s' → move e s = none → state s' = state s

section
variable {M N : Machine S α} (σ : Simulation M N)

/-- The image of a configuration: the threads are the same. -/
def Simulation.config (c : Config M) : Config N := ⟨σ.state c.shared, c.pool⟩

/-- The image of a scheduling decision. -/
def Simulation.label (c : Config M) : Label M → Label N
  | .thread t x => .thread t (σ.choice c.shared x)
  | .env e =>
      match σ.move e c.shared with
      | some e' => .env e'
      | none => .idle
  | .spawn t j => .spawn t (σ.job j)
  | .idle => .idle

/-- One step above is one step below, which may be to stay. -/
theorem Simulation.step_image {l : Label M} {c c' : Config M} (h : step l c = some c') :
    step (σ.label c l) (σ.config c) = some (σ.config c') := by
  cases l with
  | thread t x =>
      obtain ⟨w⟩ := step_thread (G := Guard.any M) h (Guard.any_admits _ _)
      have hp : (σ.config c).pool[t]? = some (.act w.op w.cont) := w.here
      have he : N.exec w.op (σ.choice c.shared x) (σ.config c).shared =
          some (w.res, σ.state c'.shared, w.new) := σ.exec_eq w.fires
      simp only [Simulation.label, step, hp, he]
      exact congrArg (fun pool => some (Config.mk (σ.state c'.shared) pool)) w.pool_eq.symm
  | env e =>
      simp only [step] at h
      cases hm : M.move e c.shared with
      | none => rw [hm] at h; cases h
      | some s =>
          rw [hm] at h
          cases h
          -- a move that is invisible below is answered by staying
          cases hv : σ.move e c.shared with
          | none =>
              simp only [Simulation.label, hv, step]
              rw [Simulation.config, Simulation.config, σ.invisible hm hv]
          | some e' =>
              simp only [Simulation.label, hv, step, Simulation.config, σ.visible hm hv]
  | spawn t j =>
      simp only [step] at h
      by_cases ht : t = c.pool.length
      · rw [if_pos ht] at h
        cases h
        simp only [Simulation.label, step, Simulation.config, if_pos ht, σ.body_eq]
      · rw [if_neg ht] at h; cases h
  | idle =>
      cases h
      rfl

/-- What the upper environment may do is allowed below. -/
structure Simulation.Respects (G : Guard M) (H : Guard N) : Prop where
  op : ∀ {o x s}, G.op o x s → H.op o (σ.choice s x) (σ.state s)
  env : ∀ {e s e'}, G.env e s → σ.move e s = some e' → H.env e' (σ.state s)

/-- Nothing is asked of steps where nothing is guarded. -/
theorem Simulation.Respects.any (G : Guard M) : σ.Respects G (Guard.any N) :=
  ⟨fun _ => trivial, fun _ _ => trivial⟩

variable {σ}

/-- A step that is admitted below is admitted above. -/
theorem Simulation.Respects.admits {G : Guard M} {H : Guard N} (hr : σ.Respects G H)
    {l : Label M} {c : Config M} (h : G.admits l c) : H.admits (σ.label c l) (σ.config c) := by
  cases l with
  | thread t x => exact fun o k hp => hr.op (h o k hp)
  | env e =>
      cases hv : σ.move e c.shared with
      | none =>
          simp only [Simulation.label, hv]
          trivial
      | some e' =>
          simp only [Simulation.label, hv]
          exact hr.env h hv
  | spawn | idle => trivial

/-- **THE IMAGE OF A RUN** is a run. -/
def Run.image {init : M.State} {G : Guard M} {H : Guard N} (ρ : Run M init G)
    (hr : σ.Respects G H) : Run N (σ.state init) H where
  label := fun n => σ.label (ρ.cfg n) (ρ.label n)
  cfg := fun n => σ.config (ρ.cfg n)
  start := by rw [ρ.start]; rfl
  next := fun n => σ.step_image (ρ.next n)
  admitted := fun n => hr.admits (ρ.admitted n)

section
variable {init : M.State} {G : Guard M} {H : Guard N} (ρ : Run M init G)
  (hr : σ.Respects G H)

@[simp] theorem Run.image_at (n : Nat) : (ρ.image hr).at n = σ.state (ρ.at n) := rfl

@[simp] theorem Run.image_thread (n t : Nat) : (ρ.image hr).thread n t = ρ.thread n t := rfl

end

end

end Interleaving
