import VBuckets.ThreadProofs
import VBuckets.RecencyProofs
import VBuckets.TimeProofs
import Mathlib.Algebra.Order.Field.Rat
import Mathlib.Algebra.BigOperators.Intervals
import Mathlib.Tactic.Linarith
import Mathlib.Tactic.Ring

/-! # Admission of misses

    `missAdmission` of `controlplane/cache.go`: a token bucket and a bounded channel in
    front of the control plane.  `acquire` is two steps, the section under `mu` and the
    `select` on the channel, and other goroutines may act between them; `release` is the
    deferred function of the load that `loadGroup.Do` starts for an admitted miss.

    Two accounts are kept over a run.

    * **tokens** — what is in the bucket plus what was spent since a moment is at most the
      burst plus the refills since (`potential`).  Clock readings are arbitrary: a reading
      that goes back takes tokens out.
    * **slots** — the channel holds as many elements as there are goroutines that still
      have to release one (`slots`), so a release finds one.

    The bucket's arithmetic is that of the rationals, but `time.Sub` saturates: a reading
    that goes back by more than a `Duration` takes too little out, and the refills of such
    a detour exceed the time it took (`detour_admits_two`).  Up to such readings the
    refills are at most the recorded time (`refilled_le`). -/

namespace Admission

open Interleaving Recency

/-! ## The admission -/

/-- The token bucket and the slots for loads that are running.  The channel of slots
    is its capacity and how many are taken. -/
structure MissAdmission where
  rate : ℚ
  burst : ℚ
  tokens : ℚ
  last : Time.Instant
  /-- `cap(inflight)` and `len(inflight)` -/
  capacity : Nat
  inflight : Nat

/-- The bucket starts full, and all slots are free. -/
def newMissAdmission (rate : ℚ) (burst : Int) (inflight : Nat) (now : Time.Instant) :
    MissAdmission where
  rate := rate
  burst := burst
  tokens := burst
  last := now
  capacity := inflight
  inflight := 0

/-- `Duration.Seconds`. -/
def seconds (d : Int) : ℚ := (d : ℚ) / Time.nanosecondsPerSecond

/-- `now.Sub(last).Seconds()`.  `Sub` saturates, and nothing makes the clock go
    forward, so this can be negative. -/
def elapsed (now last : Time.Instant) : ℚ := seconds (Time.sub now last)

/-- The section of `acquire` under `mu`: refill up to the burst, then take a token if
    there is a whole one.  The reading is recorded in either case. -/
def MissAdmission.take (a : MissAdmission) (now : Time.Instant) : Bool × MissAdmission :=
  let tokens := min a.burst (a.tokens + elapsed now a.last * a.rate)
  if tokens < 1 then (false, { a with tokens := tokens, last := now })
  else (true, { a with tokens := tokens - 1, last := now })

/-- The `select` of `acquire`: a slot if there is room, and no waiting for one.  A
    token that was taken is not given back. -/
def MissAdmission.send (a : MissAdmission) : Bool × MissAdmission :=
  if a.inflight < a.capacity then (true, { a with inflight := a.inflight + 1 }) else (false, a)

/-- It waits while the channel is empty. -/
def MissAdmission.release (a : MissAdmission) : Option MissAdmission :=
  if a.inflight = 0 then none else some { a with inflight := a.inflight - 1 }

/-! ## Lookups and their loads -/

/-- The steps of a caller that misses: join a running load if there is one, else take
    a token, take a slot, start the load; and of the load: run, and give the slot
    back. -/
inductive Op where
  | join
  | take
  | send
  | go
  | load
  | release

/-- What each step returns. -/
abbrev Op.Res : Op → Type
  | .join => Bool
  | .take => Bool
  | .send => Bool
  | .go => Unit
  | .load => Unit
  | .release => Unit

/-- The steps with their results. -/
def sig : Sig := ⟨Op, Op.Res⟩

/-- How a goroutine ends. -/
inductive Outcome where
  | joined
  | rejected
  | started
  | loaded

/-- A caller, or a load. -/
abbrev Program := Prog sig Outcome

/-- A program that is one step. -/
def perform (o : Op) : Prog sig o.Res := Prog.perform (S := sig) o

/-- A token first, then a slot.  A token that was taken is not given back if there is
    no slot. -/
def acquire : Prog sig Bool := do
  if ← perform .take then perform .send else pure false

/-- What `Do` makes of the answer of `admit`: an admitted call is registered and its
    goroutine started. -/
def admitted (ok : Bool) : Program := do
  if ok then
    perform .go
    pure .started
  else pure .rejected

/-- A miss in `loadGroup.Do`: a call that is under way is joined; otherwise `admit` asks
    for admission. -/
def lookup : Program := do
  if ← perform .join then pure .joined
  else
    let ok ← acquire
    admitted ok

/-- The goroutine of an admitted call, up to the end of its load function; the release is
    the deferred call that runs last. -/
def loader : Program := do
  perform .load
  perform .release
  pure .loaded

/-- Whether the key has a call under way, and the clock. -/
structure Choice where
  joins : Bool
  now : Time.Instant

/-- One step on the shared state.  Only giving a slot back could block, and it never
    does. -/
def exec (o : Op) (x : Choice) (a : MissAdmission) :
    Option (o.Res × MissAdmission × List Program) :=
  match o with
  | .join => some (x.joins, a, [])
  | .take => some ((a.take x.now).1, (a.take x.now).2, [])
  | .send => some (a.send.1, a.send.2, [])
  | .go => some ((), a, [loader])
  | .load => some ((), a, [])
  | .release => a.release.map (fun a' => ((), a', []))

/-- Any number of lookups. -/
def machine : Machine sig Outcome where
  State := MissAdmission
  Choice := Choice
  Env := Empty
  Job := Unit
  body := fun _ => lookup
  exec := exec
  move := fun e _ => nomatch e

/-- What an operation does to the admission, and which program it leaves. -/
inductive Effect (a : MissAdmission) : (o : Op) → o.Res → MissAdmission → List Program → Prop where
  | join (r : Bool) : Effect a .join r a []
  | taken (now : Time.Instant) {tokens : ℚ} (hone : 1 ≤ tokens)
      (htokens : tokens = min a.burst (a.tokens + elapsed now a.last * a.rate)) :
      Effect a .take true { a with tokens := tokens - 1, last := now } []
  | empty (now : Time.Instant) {tokens : ℚ}
      (htokens : tokens = min a.burst (a.tokens + elapsed now a.last * a.rate)) :
      Effect a .take false { a with tokens := tokens, last := now } []
  | sent (hroom : a.inflight < a.capacity) :
      Effect a .send true { a with inflight := a.inflight + 1 } []
  | full : Effect a .send false a []
  | go : Effect a .go () a [loader]
  | load : Effect a .load () a []
  | released (hsome : a.inflight ≠ 0) :
      Effect a .release () { a with inflight := a.inflight - 1 } []

/-- **EFFECTS**: everything an operation can do. -/
theorem exec_effect {o : Op} {x : Choice} {a a' : MissAdmission} {r : o.Res}
    {new : List Program} (h : exec o x a = some (r, a', new)) : Effect a o r a' new := by
  cases o with
  | join =>
      cases h
      exact .join _
  | take =>
      simp only [exec, MissAdmission.take] at h
      by_cases hlt : min a.burst (a.tokens + elapsed x.now a.last * a.rate) < 1
      · rw [if_pos hlt] at h
        cases h
        exact .empty x.now rfl
      · rw [if_neg hlt] at h
        cases h
        exact .taken x.now (not_lt.mp hlt) rfl
  | send =>
      simp only [exec, MissAdmission.send] at h
      by_cases hroom : a.inflight < a.capacity
      · rw [if_pos hroom] at h
        cases h
        exact .sent hroom
      · rw [if_neg hroom] at h
        cases h
        exact .full
  | go =>
      cases h
      exact .go
  | load =>
      cases h
      exact .load
  | release =>
      simp only [exec, MissAdmission.release] at h
      by_cases hzero : a.inflight = 0
      · rw [if_pos hzero] at h
        exact nomatch h
      · rw [if_neg hzero] at h
        cases h
        exact .released hzero

/-! ## The bucket -/

theorem elapsed_self (t : Time.Instant) : elapsed t t = 0 := by
  have hsub : Time.sub t t = 0 := by
    rw [Time.sub, Int.sub_self]
    decide
  rw [elapsed, hsub, seconds, Int.cast_zero, zero_div]

theorem seconds_mono {d e : Int} (h : d ≤ e) : seconds d ≤ seconds e := by
  have hpos : (0 : ℚ) ≤ Time.nanosecondsPerSecond := Int.cast_nonneg (by decide)
  exact div_le_div_of_nonneg_right (Int.cast_le.mpr h) hpos

/-- Durations add up in seconds too, as they are exact here. -/
theorem seconds_add (d e : Int) : seconds d + seconds e = seconds (d + e) := by
  rw [seconds, seconds, seconds, ← add_div, ← Int.cast_add]

/-- Saturation at the top loses time, and only saturation at the bottom makes any: unless a
    reading goes back by more than a `Duration`, `Sub` is at most the difference. -/
theorem elapsed_le {now last : Time.Instant} (h : Time.minDuration ≤ now - last) :
    elapsed now last ≤ seconds (now - last) :=
  seconds_mono (max_le h (min_le_right _ _))

/-- What operations keep: the configuration, and the bounds of bucket and channel.  The
    bucket may be overdrawn by a clock that goes back, so it has no lower bound. -/
structure Configured (rate : ℚ) (burst : Int) (limit : Nat) (a : MissAdmission) : Prop where
  rate_eq : a.rate = rate
  burst_eq : a.burst = burst
  capacity_eq : a.capacity = limit
  tokens_le : a.tokens ≤ burst
  inflight_le : a.inflight ≤ limit

section
variable {rate : ℚ} {burst : Int} {limit : Nat}

theorem configured_new (now : Time.Instant) :
    Configured rate burst limit (newMissAdmission rate burst limit now) :=
  ⟨rfl, rfl, rfl, le_refl _, Nat.zero_le _⟩

/-- The configuration never changes; there are never more tokens than the burst, nor
    more loads than slots. -/
theorem Effect.configured {a a' : MissAdmission} {o : Op} {r : o.Res} {new : List Program}
    (he : Effect a o r a' new) (h : Configured rate burst limit a) :
    Configured rate burst limit a' := by
  -- a refill stops at the burst
  have hrefill : ∀ {tokens x : ℚ}, tokens = min a.burst x → tokens ≤ burst := by
    rintro tokens x rfl
    rw [h.burst_eq]
    exact min_le_left _ _
  cases he with
  | join r => exact h
  | taken now hone htokens =>
      refine ⟨h.rate_eq, h.burst_eq, h.capacity_eq, ?_, h.inflight_le⟩
      have hle := hrefill htokens
      show _ - 1 ≤ (burst : ℚ)
      linarith
  | empty now htokens =>
      exact ⟨h.rate_eq, h.burst_eq, h.capacity_eq, hrefill htokens, h.inflight_le⟩
  | sent hroom =>
      exact ⟨h.rate_eq, h.burst_eq, h.capacity_eq, h.tokens_le, h.capacity_eq ▸ hroom⟩
  | full | go | load => exact h
  | released hsome =>
      exact ⟨h.rate_eq, h.burst_eq, h.capacity_eq, h.tokens_le,
        Nat.le_trans (Nat.sub_le _ _) h.inflight_le⟩

variable {start : Time.Instant} {G : Guard machine}
  {ρ : Run machine (newMissAdmission rate burst limit start) G} {m n t : Nat}

/-- **CONFIGURED**: hence in every state of every run. -/
theorem configured (n : Nat) : Configured rate burst limit (ρ.at n) := by
  refine ρ.invariant (configured_new start) ?_ ?_ n
  · intro o x a r a' new h _ he
    exact (exec_effect he).configured h
  · intro e
    exact nomatch e

theorem performs_effect {o : Op} {r : o.Res} (h : ρ.Performs n t o r) :
    ∃ new, Effect (ρ.at n) o r (ρ.at (n + 1)) new := by
  obtain ⟨x, k, new, -, -, he⟩ := h
  exact ⟨new, exec_effect he⟩

/-- A call takes a token at this moment. -/
def Takes (ρ : Run machine (newMissAdmission rate burst limit start) G) (n : Nat) : Prop :=
  ∃ t, ρ.Performs n t .take true

/-- What one moment does to the bucket. -/
theorem tokens_succ (n : Nat) :
    (Takes ρ n ∧ (ρ.at (n + 1)).tokens + 1 ≤
        (ρ.at n).tokens + rate * elapsed (ρ.at (n + 1)).last (ρ.at n).last) ∨
      (¬ Takes ρ n ∧ (ρ.at (n + 1)).tokens ≤
        (ρ.at n).tokens + rate * elapsed (ρ.at (n + 1)).last (ρ.at n).last) := by
  have hrate := (configured (ρ := ρ) n).rate_eq
  -- a moment that records no reading refills nothing
  have hsame : ∀ {a : MissAdmission}, a.tokens = (ρ.at n).tokens → a.last = (ρ.at n).last →
      a.tokens ≤ (ρ.at n).tokens + rate * elapsed a.last (ρ.at n).last := by
    intro a htokens hlast
    rw [htokens, hlast, elapsed_self, mul_zero, add_zero]
  rcases ρ.performs_or_idle (fun e => nomatch e) n with ⟨t, o, r, h⟩ | ⟨hidle, hstay, -⟩
  · obtain ⟨new, he⟩ := performs_effect h
    have hnot : ∀ {o' : Op} {r' : o'.Res}, ρ.Performs n t o' r' → o' ≠ .take → ¬ Takes ρ n := by
      rintro o' r' h' hne ⟨t', htake⟩
      exact hne (h'.op_eq htake)
    generalize ρ.at (n + 1) = a' at he
    cases he with
    | join r => exact Or.inr ⟨hnot h (fun ho => (nomatch ho)), hsame rfl rfl⟩
    -- the refill may be cut off at the burst, so only the upper bound is left of it
    | taken now hone htokens =>
        refine Or.inl ⟨⟨t, h⟩, ?_⟩
        have hle := htokens.trans_le (min_le_right _ _)
        rw [hrate] at hle
        show _ - 1 + 1 ≤ (ρ.at n).tokens + rate * elapsed now (ρ.at n).last
        linarith
    | empty now htokens =>
        refine Or.inr ⟨?_, ?_⟩
        · rintro ⟨t', htake⟩
          exact nomatch h.res_eq htake
        · have hle := htokens.trans_le (min_le_right _ _)
          rw [hrate] at hle
          show _ ≤ (ρ.at n).tokens + rate * elapsed now (ρ.at n).last
          linarith
    | sent | full | go | load | released =>
        exact Or.inr ⟨hnot h (fun ho => (nomatch ho)), hsame rfl rfl⟩
  · refine Or.inr ⟨?_, ?_⟩
    · rintro ⟨t, htake⟩
      exact hidle t _ _ htake
    · rw [hstay]
      exact hsame rfl rfl

/-- What `Sub` counts from moment to moment.  For a clock that jumps further than a
    `Duration` it is not the time that passed. -/
def refilled (ρ : Run machine (newMissAdmission rate burst limit start) G) (m n : Nat) : ℚ :=
  ∑ i ∈ Finset.Ico m n, elapsed (ρ.at (i + 1)).last (ρ.at i).last

theorem refilled_self (m : Nat) : refilled ρ m m = 0 := by
  rw [refilled, Finset.Ico_self, Finset.sum_empty]

theorem refilled_succ (hmn : m ≤ n) :
    refilled ρ m (n + 1) = refilled ρ m n + elapsed (ρ.at (n + 1)).last (ρ.at n).last :=
  Finset.sum_Ico_succ_top hmn _

/-- **THE POTENTIAL**: what is in the bucket, and what was spent since `m`, came from the
    burst or from the refills since. -/
theorem potential (hmn : m ≤ n) :
    (ρ.at n).tokens + countBetween (Takes ρ) m n ≤ burst + rate * refilled ρ m n := by
  induction n, hmn using Nat.le_induction with
  | base =>
      rw [countBetween_self, Nat.cast_zero, add_zero, refilled_self, mul_zero, add_zero]
      exact (configured m).tokens_le
  | succ n hmn ih =>
      rw [refilled_succ hmn, mul_add]
      rcases tokens_succ (ρ := ρ) n with ⟨htakes, hle⟩ | ⟨hnot, hle⟩
      · rw [countBetween_succ_of_pos hmn htakes, Nat.cast_add, Nat.cast_one]
        linarith
      · rw [countBetween_succ_of_neg hmn hnot]
        linarith

/-- No reading recorded from `m` on and before `n` goes back by more than a `Duration`. -/
def Steady (ρ : Run machine (newMissAdmission rate burst limit start) G) (m n : Nat) : Prop :=
  ∀ i, m ≤ i → i < n → Time.minDuration ≤ (ρ.at (i + 1)).last - (ρ.at i).last

/-- Then the refills are at most the time that has passed. -/
theorem refilled_le (hmn : m ≤ n) (h : Steady ρ m n) :
    refilled ρ m n ≤ seconds ((ρ.at n).last - (ρ.at m).last) := by
  induction n, hmn using Nat.le_induction with
  | base =>
      rw [refilled_self, Int.sub_self, seconds, Int.cast_zero, zero_div]
  | succ n hmn ih =>
      have hbefore := ih (fun i hmi hin => h i hmi (Nat.lt_succ_of_lt hin))
      have hstep := elapsed_le (h n hmn (Nat.lt_succ_self n))
      calc refilled ρ m (n + 1)
          = refilled ρ m n + elapsed (ρ.at (n + 1)).last (ρ.at n).last := refilled_succ hmn
        _ ≤ seconds ((ρ.at n).last - (ρ.at m).last) +
              seconds ((ρ.at (n + 1)).last - (ρ.at n).last) := add_le_add hbefore hstep
        _ = seconds ((ρ.at (n + 1)).last - (ρ.at m).last) := by
              rw [seconds_add, add_comm, sub_add_sub_cancel]

/-- A call that takes a token leaves no debt. -/
theorem tokens_nonneg_of_takes (h : Takes ρ n) : 0 ≤ (ρ.at (n + 1)).tokens := by
  obtain ⟨t, h⟩ := h
  obtain ⟨new, he⟩ := performs_effect h
  generalize ρ.at (n + 1) = a' at he
  cases he with
  | taken now hone htokens => exact sub_nonneg.mpr hone

/-- The call that takes its token at moment `n` is admitted: its `send` finds room. -/
def AdmittedCall (ρ : Run machine (newMissAdmission rate burst limit start) G) (n : Nat) : Prop :=
  ∃ t j, ρ.Performs n t .take true ∧ n < j ∧ ρ.Performs j t .send true

theorem AdmittedCall.takes (h : AdmittedCall ρ n) : Takes ρ n := by
  obtain ⟨t, -, htake, -⟩ := h
  exact ⟨t, htake⟩

/-- **THE RATE**: admissions among the calls from `m` to an admitted one at `n`. -/
theorem admissions_le (hmn : m ≤ n) (h : AdmittedCall ρ n) :
    (countBetween (AdmittedCall ρ) m (n + 1) : ℚ) ≤ burst + rate * refilled ρ m (n + 1) := by
  have hspent : (countBetween (AdmittedCall ρ) m (n + 1) : ℚ) ≤
      countBetween (Takes ρ) m (n + 1) :=
    Nat.cast_le.mpr (countBetween_le (fun _ hi => AdmittedCall.takes hi) m (n + 1))
  have hpotential := potential (ρ := ρ) (Nat.le_succ_of_le hmn)
  have hnonneg := tokens_nonneg_of_takes h.takes
  linarith

/-- With readings that are steady the bound is the one of a token bucket: the burst,
    and the rate times the time between the first and the last reading. -/
theorem admissions_le_of_steady (hrate : 0 ≤ rate) (hmn : m ≤ n) (hsteady : Steady ρ m (n + 1))
    (h : AdmittedCall ρ n) :
    (countBetween (AdmittedCall ρ) m (n + 1) : ℚ) ≤
      burst + rate * seconds ((ρ.at (n + 1)).last - (ρ.at m).last) := by
  have hrefilled := mul_le_mul_of_nonneg_left (refilled_le (Nat.le_succ_of_le hmn) hsteady) hrate
  have hle := admissions_le (ρ := ρ) hmn h
  linarith

/-! ## The slots -/

/-! What is left of a lookup after each of its operations, and of a loader. -/

/-- A caller that is about to take a token. -/
def taking : Program := acquire.bind admitted

/-- A caller that has its token and is about to take a slot. -/
def sending : Program := (perform .send).bind admitted

/-- A load that is done and is about to give its slot back. -/
def releasing : Program := (perform .release).bind (fun _ => .ret .loaded)

/-- At moment `g` an admitted caller starts the goroutine of its load, the next thread. -/
def StartsAt (ρ : Run machine (newMissAdmission rate burst limit start) G) (g t : Nat) : Prop :=
  (∃ t₀, ρ.Performs g t₀ .go ()) ∧ t = (ρ.cfg g).pool.length

/-- What a thread can be at. -/
inductive Stage (ρ : Run machine (newMissAdmission rate burst limit start) G) (n t : Nat) :
    Program → Prop where
  | looking : Stage ρ n t lookup
  | taking : Stage ρ n t taking
  | sending : Stage ρ n t sending
  | starting : Stage ρ n t (admitted true)
  | returned (a : Outcome) : Stage ρ n t (.ret a)
  | loading {g : Nat} (hg : g < n) (h : StartsAt ρ g t) : Stage ρ n t loader
  | releasing {g : Nat} (hg : g < n) (h : StartsAt ρ g t) : Stage ρ n t releasing

/-- The goroutine has put an element into the channel, or stands for one that has, and it is
    still to be taken out. -/
def owes : Program → Bool
  | .act .go _ => true
  | .act .load _ => true
  | .act .release _ => true
  | _ => false

/-- One operation: what it does to the stage of the thread, and to the channel. -/
theorem Stage.next {o : Op} {k : o.Res → Program} {r : o.Res} {new : List Program}
    (h : Stage ρ n t (.act (S := sig) o k)) {a' : MissAdmission}
    (he : Effect (ρ.at n) o r a' new) :
    Stage ρ (n + 1) t (k r) ∧
      a'.inflight + (owes (.act (S := sig) o k)).toNat =
        (ρ.at n).inflight + (owes (k r)).toNat + new.countP owes := by
  generalize hq : Prog.act (S := sig) o k = q at h
  -- the stages in the order of the program; only `sent` and `released` move the channel,
  -- and only `go` adds a thread that owes a slot
  cases h with
  | looking =>
      cases hq
      cases he with
      | join r =>
          cases r with
          | true => exact ⟨.returned _, rfl⟩
          | false => exact ⟨.taking, rfl⟩
  | taking =>
      cases hq
      cases he with
      | taken now hone htokens => exact ⟨.sending, rfl⟩
      | empty now htokens => exact ⟨.returned _, rfl⟩
  | sending =>
      cases hq
      cases he with
      | sent hroom => exact ⟨.starting, rfl⟩
      | full => exact ⟨.returned _, rfl⟩
  | starting =>
      cases hq
      cases he with
      | go => exact ⟨.returned _, rfl⟩
  | returned a => exact nomatch hq
  | loading hg h =>
      cases hq
      cases he with
      | load => exact ⟨.releasing (Nat.lt_succ_of_lt hg) h, rfl⟩
  | releasing hg h =>
      cases hq
      cases he with
      | released hsome =>
          refine ⟨.returned _, ?_⟩
          exact Nat.succ_pred_eq_of_ne_zero hsome

theorem Stage.later {p : Program} (h : Stage ρ n t p) : Stage ρ (n + 1) t p := by
  cases h with
  | looking => exact .looking
  | taking => exact .taking
  | sending => exact .sending
  | starting => exact .starting
  | returned a => exact .returned a
  | loading hg h => exact .loading (Nat.lt_succ_of_lt hg) h
  | releasing hg h => exact .releasing (Nat.lt_succ_of_lt hg) h

/-- **STAGES**: every thread is at a place of the source, with what it has got so far. -/
theorem stages (ρ : Run machine (newMissAdmission rate burst limit start) G) :
    ∀ n t p, ρ.thread n t = some p → Stage ρ n t p := by
  refine ρ.threads_induction ?_ ?_ ?_
  · intro n t job _
    exact .looking
  · intro n t o k r new x ih hp hk he
    have heffect : Effect (ρ.at n) o r (ρ.at (n + 1)) new := exec_effect he
    refine ⟨((ih t _ hk).next heffect).1, ?_⟩
    intro i q hq
    generalize ρ.at (n + 1) = a' at heffect
    cases heffect with
    | go =>
        -- the loader is the only program an operation leaves
        cases i with
        | zero =>
            cases hq
            exact .loading (Nat.lt_succ_self n) ⟨⟨t, hp⟩, rfl⟩
        | succ i => exact nomatch hq
    | join | taken | empty | sent | full | load | released => exact nomatch hq
  · intro n t p ih hp _
    exact (ih t p hp).later

/-- **THE SLOTS**: the channel holds an element for every goroutine that owes one. -/
theorem slots (n : Nat) : (ρ.at n).inflight = (ρ.cfg n).pool.countP owes := by
  induction n with
  | zero =>
      show (ρ.cfg 0).shared.inflight = (ρ.cfg 0).pool.countP owes
      rw [ρ.start]
      rfl
  | succ n ih =>
      rcases ρ.performs_or_idle (fun e => nomatch e) n with ⟨t, o, r, h⟩ | ⟨-, hsame, jobs, hpool⟩
      · obtain ⟨k, hk⟩ := h.here
        obtain ⟨x, new, -, he, hpool⟩ := h.pool hk
        -- what the thread and the new ones owe changes as the channel does
        have hbalance := ((stages ρ n t _ hk).next (exec_effect he)).2
        have hcount : ((ρ.cfg n).pool.set t (k r) ++ new).countP owes +
            (owes (.act (S := sig) o k)).toNat =
            (ρ.cfg n).pool.countP owes + (owes (k r)).toNat + new.countP owes :=
          countP_pool owes hk
        rw [hpool]
        have hinflight : (ρ.at n).inflight = List.countP owes (ρ.cfg n).pool := ih
        omega
      -- new callers hold nothing yet
      · have hjobs : (jobs.map (fun _ => lookup)).countP owes = 0 := by
          rw [List.countP_eq_zero]
          intro p hp
          obtain ⟨job, -, rfl⟩ := List.mem_map.mp hp
          exact Bool.false_ne_true
        rw [hsame, ih, hpool, List.countP_append]
        exact (Nat.add_eq_left.mpr hjobs).symm

/-- **NOTHING BLOCKS**: no operation ever waits, and a release finds an element. -/
theorem never_blocks {o : Op} {k : o.Res → Program}
    (hk : ρ.thread n t = some (.act (S := sig) o k)) (x : Choice) : exec o x (ρ.at n) ≠ none := by
  cases o with
  | join | take | send | go | load => exact fun h => nomatch h
  | release =>
      have hpos : 0 < (ρ.cfg n).pool.countP owes :=
        List.countP_pos_iff.mpr ⟨_, List.mem_of_getElem? hk, rfl⟩
      rw [← slots] at hpos
      simp only [exec, MissAdmission.release, if_neg (Nat.ne_of_gt hpos)]
      exact fun h => nomatch h

/-! ## Admissions and releases -/

/-- A call is admitted at this moment. -/
def Sends (ρ : Run machine (newMissAdmission rate burst limit start) G) (n : Nat) : Prop :=
  ∃ t, ρ.Performs n t .send true

/-- A slot is given back. -/
def Releases (ρ : Run machine (newMissAdmission rate burst limit start) G) (n : Nat) : Prop :=
  ∃ t, ρ.Performs n t .release ()

/-- Admissions that are not released yet are in the channel. -/
theorem admissions_eq (n : Nat) :
    countBetween (Sends ρ) 0 n = countBetween (Releases ρ) 0 n + (ρ.at n).inflight := by
  induction n with
  | zero =>
      rw [countBetween_self, countBetween_self, ρ.at_zero]
      rfl
  | succ n ih =>
      have hle := Nat.zero_le n
      -- the case of every operation but a successful `send` and a release
      have hneither : ¬ Sends ρ n → ¬ Releases ρ n → (ρ.at (n + 1)).inflight = (ρ.at n).inflight →
          countBetween (Sends ρ) 0 (n + 1) =
            countBetween (Releases ρ) 0 (n + 1) + (ρ.at (n + 1)).inflight := by
        intro hsends hreleases hsame
        rw [countBetween_succ_of_neg hle hsends, countBetween_succ_of_neg hle hreleases, hsame, ih]
      rcases ρ.performs_or_idle (fun e => nomatch e) n with ⟨t, o, r, h⟩ | ⟨hidle, hsame, -⟩
      · obtain ⟨new, he⟩ := performs_effect h
        have hsends : o ≠ .send → ¬ Sends ρ n := fun hne ⟨t', h'⟩ => hne (h.op_eq h')
        have hreleases : o ≠ .release → ¬ Releases ρ n := fun hne ⟨t', h'⟩ => hne (h.op_eq h')
        generalize ha : ρ.at (n + 1) = a' at he hneither ⊢
        cases he with
        | sent hroom =>
            rw [countBetween_succ_of_pos hle ⟨t, h⟩,
              countBetween_succ_of_neg hle (hreleases (fun ho => (nomatch ho))), ih]
            rfl
        | released hsome =>
            rw [countBetween_succ_of_neg hle (hsends (fun ho => (nomatch ho))),
              countBetween_succ_of_pos hle ⟨t, h⟩, ih, Nat.add_assoc]
            refine congrArg _ ?_
            show (ρ.at n).inflight = 1 + ((ρ.at n).inflight - 1)
            omega
        | full =>
            refine hneither ?_ (hreleases (fun ho => (nomatch ho))) rfl
            rintro ⟨t', h'⟩
            exact nomatch h.res_eq h'
        | join | taken | empty | go | load =>
            exact hneither (hsends (fun ho => (nomatch ho))) (hreleases (fun ho => (nomatch ho))) rfl
      · exact hneither (fun ⟨t, h⟩ => hidle t _ _ h) (fun ⟨t, h⟩ => hidle t _ _ h) (by rw [hsame])

/-- Only the goroutine of an admitted call releases. -/
theorem startsAt_of_release (h : ρ.Performs n t .release ()) : ∃ g, g < n ∧ StartsAt ρ g t := by
  obtain ⟨k, hk⟩ := h.here
  have hstage := stages ρ n t _ hk
  generalize hq : Prog.act (S := sig) .release k = q at hstage
  cases hstage with
  | releasing hg hs => exact ⟨_, hg, hs⟩
  | looking | taking | sending | starting | returned | loading => exact nomatch hq

/-- A load that is started runs from the next moment on. -/
theorem loader_of_startsAt (h : StartsAt ρ n t) : ρ.thread (n + 1) t = some loader := by
  obtain ⟨⟨t₀, h⟩, rfl⟩ := h
  obtain ⟨k, hk⟩ := h.here
  obtain ⟨x, new, -, he, hpool⟩ := h.pool hk
  have hnew : new = [loader] := by
    have heffect : Effect (ρ.at n) .go () (ρ.at (n + 1)) new := exec_effect (x := x) he
    generalize ρ.at (n + 1) = a' at heffect
    cases heffect
    rfl
  show (ρ.cfg (n + 1)).pool[(ρ.cfg n).pool.length]? = _
  rw [hpool, hnew, List.getElem?_append_right (by rw [List.length_set]), List.length_set,
    Nat.sub_self]
  rfl

/-- A load gives its slot back exactly once. -/
theorem loader_releases_once : Exactly (S := sig) (· = Op.release) 1 loader := by
  refine .miss (fun h => (nomatch h)) (fun _ => ?_)
  refine .hit rfl (fun _ => ?_)
  exact .ret Outcome.loaded

/-- An admitted caller starts exactly one load. -/
theorem admitted_starts_once : Exactly (S := sig) (· = Op.go) 1 (admitted true) := by
  refine .hit rfl (fun _ => ?_)
  exact .ret Outcome.started

/-- An admitted caller goes on to start its load. -/
theorem starting_of_send (h : ρ.Performs n t .send true) :
    ρ.thread (n + 1) t = some (admitted true) := by
  obtain ⟨k, hk⟩ := h.here
  have hstage := stages ρ n t _ hk
  generalize hq : Prog.act (S := sig) .send k = q at hstage
  cases hstage with
  | sending =>
      cases hq
      exact h.next hk
  | looking | taking | starting | returned | loading | releasing => exact nomatch hq

/-- So a slot that is taken leads to one load, if the caller goes on. -/
theorem starts_once (h : ρ.Performs n t .send true) (hfair : ρ.Fair t) :
    ∃ g, n < g ∧ ρ.Performs g t .go () ∧ ∀ g', n < g' → ρ.Performs g' t .go () → g' = g := by
  have hfirst := starting_of_send h
  obtain ⟨e, a, hle, hret⟩ := hfair.returns hfirst (fun _ _ _ _ hk x => never_blocks hk x)
  obtain ⟨g, hng, -, ⟨o, r, rfl, hgo⟩, honly⟩ := Run.once admitted_starts_once hfirst hle hret
  exact ⟨g, hng, hgo, fun g' hg' h' => honly g' hg' ⟨.go, (), rfl, h'⟩⟩

/-- A loader that is scheduled releases once. -/
theorem releases_once {g : Nat} (h : StartsAt ρ g t) (hfair : ρ.Fair t) :
    ∃ i, ρ.Performs i t .release () ∧ ∀ j, ρ.Performs j t .release () → j = i := by
  have hfirst := loader_of_startsAt h
  obtain ⟨e, a, hle, hret⟩ := hfair.returns hfirst (fun _ _ _ _ hk x => never_blocks hk x)
  obtain ⟨i, -, -, ⟨o, r, rfl, hrelease⟩, honly⟩ := Run.once loader_releases_once hfirst hle hret
  refine ⟨i, hrelease, fun j hj => honly j ?_ ⟨.release, (), rfl, hj⟩⟩
  obtain ⟨k, hk⟩ := hj.here
  exact ρ.lt_of_thread h.2 hk

/-! ## The bound on the load -/

/-- What a run of lookups keeps to. -/
structure Bounded (ρ : Run machine (newMissAdmission rate burst limit start) G) : Prop where
  /-- Calls are numbered by the moments they take the lock at.  Whatever the clock reads, the
      admissions are paid for by the burst and by what `Sub` counts between the calls. -/
  refills : ∀ {j k : Nat}, j ≤ k → AdmittedCall ρ k →
    (countBetween (AdmittedCall ρ) j (k + 1) : ℚ) ≤ burst + rate * refilled ρ j (k + 1)
  /-- While no reading goes back by more than a `Duration`, that is the time from the one
      recorded before call `j` to the reading of call `k`. -/
  rate : ∀ {j k : Nat}, 0 ≤ rate → j ≤ k → Steady ρ j (k + 1) → AdmittedCall ρ k →
    (countBetween (AdmittedCall ρ) j (k + 1) : ℚ) ≤
      burst + rate * seconds ((ρ.at (k + 1)).last - (ρ.at j).last)
  /-- Admissions not yet released. -/
  inflight : ∀ n, countBetween (Releases ρ) 0 n ≤ countBetween (Sends ρ) 0 n ∧
    countBetween (Sends ρ) 0 n ≤ countBetween (Releases ρ) 0 n + limit
  /-- An admitted caller starts one load. -/
  starts : ∀ {n t : Nat}, ρ.Performs n t .send true → ρ.Fair t →
    ∃ g, n < g ∧ ρ.Performs g t .go () ∧ ∀ g', n < g' → ρ.Performs g' t .go () → g' = g
  /-- A load releases once, and nothing else releases. -/
  releases : ∀ {g t : Nat}, StartsAt ρ g t → ρ.Fair t →
    ∃ i, ρ.Performs i t .release () ∧ ∀ j, ρ.Performs j t .release () → j = i
  released : ∀ {n t : Nat}, ρ.Performs n t .release () → ∃ g, g < n ∧ StartsAt ρ g t
  /-- A goroutine that is scheduled is never kept waiting, at its release or elsewhere. -/
  unblocked : ∀ {n t : Nat} {o : Op} {k : o.Res → Program},
    ρ.thread n t = some (.act (S := sig) o k) → ∀ x, exec o x (ρ.at n) ≠ none

/-- **ADMISSION BOUNDS THE LOAD**, in every run of lookups: the slots and the refills with
    arbitrary clock readings, the rate while no reading goes back by more than a
    `Duration`. -/
theorem miss_admission_bounds (ρ : Run machine (newMissAdmission rate burst limit start) G) :
    Bounded ρ where
  refills := fun hjk h => admissions_le hjk h
  rate := fun hrate hjk hsteady h => admissions_le_of_steady hrate hjk hsteady h
  inflight := by
    intro n
    have hcount := admissions_eq (ρ := ρ) n
    have hlimit := (configured (ρ := ρ) n).inflight_le
    omega
  starts := starts_once
  releases := releases_once
  released := startsAt_of_release
  unblocked := never_blocks

/-- A lookup that is scheduled four times in a row, finds no call, a token and room. -/
theorem admittedCall_of_schedule {i : Nat} {x y z : Choice} (hspawn : ρ.label i = .spawn t ())
    (hx : ρ.label (i + 1) = .thread t x) (hy : ρ.label (i + 2) = .thread t y)
    (hz : ρ.label (i + 3) = .thread t z) (hjoin : x.joins = false)
    (htake : ((ρ.at (i + 2)).take y.now).1 = true) (hsend : (ρ.at (i + 3)).send.1 = true) :
    AdmittedCall ρ (i + 2) := by
  have hlooking := (ρ.thread_spawned hspawn).2
  have hjoins := Run.performs_of_answer hx hlooking (congrArg some hjoin)
  have htaking := hjoins.next hlooking
  have htakes := Run.performs_of_answer hy htaking (congrArg some htake)
  have hsending := htakes.next htaking
  have hsends := Run.performs_of_answer hz hsending (congrArg some hsend)
  exact ⟨t, i + 3, htakes, Nat.lt_succ_self _, hsends⟩

end

/-! One token and one slot: the first miss is admitted; the second finds no token, since its
    clock was read earlier; the third is admitted a second later, after the release. -/

/-- One slot: a load takes it, a second caller finds none, the load ends, and a third
    caller is admitted a second later. -/
def oneSlotScript : List (Label machine) :=
  let at_ (now : Time.Instant) : Choice := ⟨false, now⟩
  [.spawn 0 (), .thread 0 (at_ 0), .thread 0 (at_ 0), .thread 0 (at_ 0), .thread 0 (at_ 0),
    .spawn 2 (), .thread 2 (at_ 0), .thread 2 (at_ (-1)),
    .thread 1 (at_ 0), .thread 1 (at_ 0),
    .spawn 3 (), .thread 3 (at_ 0), .thread 3 (at_ 1000000000), .thread 3 (at_ 0)]

theorem played_at {a : MissAdmission} {G : Guard machine} {script : List (Label machine)}
    {ρ : Run machine a G}
    (hcfg : ∀ k ≤ script.length, ρ.cfg k = played a (script.take k)) {β : Type}
    (f : MissAdmission → β) (k : Nat) {b : β} (hk : k ≤ script.length)
    (hb : f (played a (script.take k)).shared = b) : f (ρ.at k) = b := by
  show f (ρ.cfg k).shared = b
  rw [hcfg k hk, hb]

/-- Two admissions within a second, at a burst of one and one token a second. -/
theorem miss_admission_bounds_one_slot :
    ∃ ρ : Run machine (newMissAdmission 1 1 1 0) (Guard.any machine),
      AdmittedCall ρ 2 ∧ AdmittedCall ρ 12 ∧ Steady ρ 2 13 ∧
      (countBetween (AdmittedCall ρ) 2 13 : ℚ) ≤ 1 + 1 * seconds (1000000000 - 0) := by
  have hsome : (after (M := machine) ⟨newMissAdmission 1 1 1 0, []⟩ oneSlotScript).isSome := by
    decide +kernel
  obtain ⟨ρ, hlabel, hcfg⟩ := exists_run hsome (Guard.any_admitsAll _ _)
  have hfirst : AdmittedCall ρ 2 :=
    admittedCall_of_schedule (i := 0) (hlabel 0 _ rfl) (hlabel 1 _ rfl) (hlabel 2 _ rfl)
      (hlabel 3 _ rfl) rfl
      (played_at hcfg (fun a => (a.take 0).1) 2 (by decide) (by decide +kernel))
      (played_at hcfg (fun a => a.send.1) 3 (by decide) (by decide +kernel))
  have hthird : AdmittedCall ρ 12 :=
    admittedCall_of_schedule (i := 10) (hlabel 10 _ rfl) (hlabel 11 _ rfl) (hlabel 12 _ rfl)
      (hlabel 13 _ rfl) rfl
      (played_at hcfg (fun a => (a.take 1000000000).1) 12 (by decide) (by decide +kernel))
      (played_at hcfg (fun a => a.send.1) 13 (by decide) (by decide +kernel))
  have hsteady : Steady ρ 2 13 := by
    intro i _ hi
    rw [played_at hcfg MissAdmission.last (i + 1) (Nat.le_trans hi (by decide)) rfl,
      played_at hcfg MissAdmission.last i (Nat.le_trans (Nat.le_of_lt hi) (by decide)) rfl]
    revert i
    decide +kernel
  refine ⟨ρ, hfirst, hthird, hsteady, ?_⟩
  have hbound := (miss_admission_bounds ρ).rate zero_le_one (show 2 ≤ 12 by decide) hsteady hthird
  have hnow : (ρ.at (12 + 1)).last = 1000000000 :=
    played_at hcfg MissAdmission.last 13 (by decide) (by decide +kernel)
  have hlast : (ρ.at 2).last = 0 :=
    played_at hcfg MissAdmission.last 2 (by decide) (by decide +kernel)
  rw [hnow, hlast] at hbound
  exact hbound

/-! A detour of the clock: after the first miss a reading goes back by 570 years, of which
    `Sub` counts 292, and two readings come forward again by 285 years each. -/

/-- The clock is set back by more than a duration can hold, and forward again in two
    steps. -/
def detourScript : List (Label machine) :=
  let at_ (now : Time.Instant) : Choice := ⟨false, now⟩
  [.spawn 0 (), .thread 0 (at_ 0), .thread 0 (at_ 0), .thread 0 (at_ 0), .thread 0 (at_ 0),
    .spawn 2 (), .thread 2 (at_ 0), .thread 2 (at_ (-18000000000000000000)),
    .spawn 3 (), .thread 3 (at_ 0), .thread 3 (at_ (-9000000000000000000)),
    .spawn 4 (), .thread 4 (at_ 0), .thread 4 (at_ 0), .thread 4 (at_ 0)]

/-- Two misses are admitted at one and the same time, with a burst of one. -/
theorem detour_admits_two :
    ∃ ρ : Run machine (newMissAdmission 1 1 100 0) (Guard.any machine),
      AdmittedCall ρ 2 ∧ AdmittedCall ρ 13 ∧ (ρ.at 2).last = 0 ∧ (ρ.at (13 + 1)).last = 0 ∧
      1 + 1 * seconds ((ρ.at (13 + 1)).last - (ρ.at 2).last) <
        (countBetween (AdmittedCall ρ) 2 (13 + 1) : ℚ) := by
  have hsome : (after (M := machine) ⟨newMissAdmission 1 1 100 0, []⟩ detourScript).isSome := by
    decide +kernel
  obtain ⟨ρ, hlabel, hcfg⟩ := exists_run hsome (Guard.any_admitsAll _ _)
  have hfirst : AdmittedCall ρ 2 :=
    admittedCall_of_schedule (i := 0) (hlabel 0 _ rfl) (hlabel 1 _ rfl) (hlabel 2 _ rfl)
      (hlabel 3 _ rfl) rfl
      (played_at hcfg (fun a => (a.take 0).1) 2 (by decide) (by decide +kernel))
      (played_at hcfg (fun a => a.send.1) 3 (by decide) (by decide +kernel))
  have hlater : AdmittedCall ρ 13 :=
    admittedCall_of_schedule (i := 11) (hlabel 11 _ rfl) (hlabel 12 _ rfl) (hlabel 13 _ rfl)
      (hlabel 14 _ rfl) rfl
      (played_at hcfg (fun a => (a.take 0).1) 13 (by decide) (by decide +kernel))
      (played_at hcfg (fun a => a.send.1) 14 (by decide) (by decide +kernel))
  have hbefore : (ρ.at 2).last = 0 :=
    played_at hcfg MissAdmission.last 2 (by decide) (by decide +kernel)
  have hafter : (ρ.at (13 + 1)).last = 0 :=
    played_at hcfg MissAdmission.last 14 (by decide) (by decide +kernel)
  refine ⟨ρ, hfirst, hlater, hbefore, hafter, ?_⟩
  have htwo : 1 < countBetween (AdmittedCall ρ) 2 (13 + 1) := by
    classical
    refine Finset.one_lt_card.mpr ⟨2, ?_, 13, ?_, by decide⟩
    · exact Finset.mem_filter.mpr ⟨by decide, hfirst⟩
    · exact Finset.mem_filter.mpr ⟨by decide, hlater⟩
  rw [hbefore, hafter, Int.sub_self, seconds, Int.cast_zero, zero_div, mul_zero, add_zero]
  exact Nat.one_lt_cast.mpr htwo

end Admission
