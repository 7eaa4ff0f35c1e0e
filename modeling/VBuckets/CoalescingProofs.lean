import VBuckets.LoadGroupProofs
import VBuckets.ThreadProofs

/-! # Calls of `loadGroup.Do`

    `Do` of `controlplane/cache.go` as a program over its critical sections, run by any
    number of callers on any keys.  The caller looks its key up, is turned away by
    `admit`, or registers a call and leaves its loader behind; then it waits for the call
    or for its own context.  `admit`, the load function and the contexts are the
    environment's: they answer anything.

    1. **`joinable`** — a key is mapped to a call exactly while that call is unpublished.
    2. **`stages`** — what a thread can be at; only the loader of a call publishes or
       closes it.
    3. **`progress`** — the loader of a call and the record of the call go through the same
       four stages together.

    The order in the loader carries the last property: a call leaves the map BEFORE its
    channel is closed, so nobody joins it once somebody may have its result. -/

namespace Coalescing

open ByteString LoadGroup Interleaving

/-! ## The program -/

/-- What the first section of `Do` answers: a call and whether it is shared. -/
inductive Entered where
  | rejected
  | call (id : Nat) (shared : Bool)

/-- How the wait ends. -/
inductive Awaited (R : Type) where
  | canceled
  | received (result : R)

/-- The operations of a load group.  A caller of `Do` enters and waits; the goroutine
    it starts loads, publishes and closes. -/
inductive Op (R : Type) where
  | enter (key : Bytes)
  | await (call : Nat)
  | load (key : Bytes)
  | publish (call : Nat) (result : R)
  | close (call : Nat)

/-- What each operation returns. -/
abbrev Op.Res {R : Type} : Op R → Type
  | .enter _ => Entered
  | .await _ => Awaited R
  | .load _ => R
  | .publish _ _ => Unit
  | .close _ => Unit

/-- The operations with their results, for any type of loaded values. -/
def sig (R : Type) : Sig := ⟨Op R, Op.Res⟩

/-- What `Do` returns: a value or error of the load, `ErrMissRejected` or the error of the
    context, and whether the call was shared. -/
inductive Outcome (R : Type) where
  | rejected
  | canceled (shared : Bool)
  | received (result : R) (shared : Bool)

variable {R : Type}

/-- Callers return an outcome, loaders nothing. -/
abbrev Program (R : Type) := Prog (sig R) (Option (Outcome R))

/-- The `select` of `Do`. -/
def waiting (call : Nat) (shared : Bool) : Program R :=
  .act (.await call) fun
    | .canceled => .ret (some (.canceled shared))
    | .received result => .ret (some (.received result shared))

/-- `Do`: a caller either is rejected, or waits for a call, which may be shared. -/
def loadGroupDo (key : Bytes) : Program R :=
  .act (.enter key) fun
    | .rejected => .ret (some .rejected)
    | .call id shared => waiting id shared

/-! The goroutine of `Do`, from its end. -/

/-- The end of the loader, after its result is published. -/
def closing (call : Nat) : Program R := .act (.close call) fun _ => .ret none

/-- The rest of the loader once it has its result. -/
def publishing (call : Nat) (result : R) : Program R :=
  .act (.publish call result) fun _ => closing call

/-- The goroutine of a call: load, publish, close.  A panic of the load function is
    not modelled. -/
def loader (key : Bytes) (call : Nat) : Program R :=
  .act (.load key) fun result => publishing call result

/-! ## The group -/

/-- What `admit`, the context and the load function answer. -/
structure Choice (R : Type) where
  admitted : Bool
  canceled : Bool
  result : R

/-- One operation on the group.  Entering is one section under the lock, and a wait is
    blocked until the call is closed or the waiter is canceled. -/
def exec (o : Op R) (x : Choice R) (g : Loads R) :
    Option (o.Res × Loads R × List (Program R)) :=
  match o with
  | .enter key =>
      match g.join key with
      | some call => some (.call call true, g, [])
      | none =>
          if !x.admitted then some (.rejected, g, [])
          else
            let started := g.start key
            some (.call started.1 false, started.2, [loader key started.1])
  | .await call =>
      if x.canceled then some (.canceled, g, [])
      else
        match g.received call with
        | some result => some (.received result, g, [])
        | none => none
  | .load _ => some (x.result, g, [])
  | .publish call result => some ((), g.publish call result, [])
  | .close call => some ((), g.close call, [])

/-- Callers of `Do`, each with its key. -/
def machine (R : Type) : Machine (sig R) (Option (Outcome R)) where
  State := Loads R
  Choice := Choice R
  Env := Empty
  Job := Bytes
  body := loadGroupDo
  exec := exec
  move := fun e _ => nomatch e

/-- What an operation does to the group, and which program it leaves. -/
inductive Effect (g : Loads R) : (o : Op R) → o.Res → Loads R → List (Program R) → Prop where
  | joined {key : Bytes} {call : Nat} (h : g.join key = some call) :
      Effect g (.enter key) (.call call true) g []
  | rejected {key : Bytes} (h : g.join key = none) : Effect g (.enter key) .rejected g []
  | started {key : Bytes} (h : g.join key = none) :
      Effect g (.enter key) (.call g.table.length false) (g.start key).2
        [loader key g.table.length]
  | canceled {call : Nat} : Effect g (.await call) .canceled g []
  | received {call : Nat} {r : R} (h : g.received call = some r) :
      Effect g (.await call) (.received r) g []
  | loaded {key : Bytes} (r : R) : Effect g (.load key) r g []
  | published {call : Nat} {r : R} : Effect g (.publish call r) () (g.publish call r) []
  | closed {call : Nat} : Effect g (.close call) () (g.close call) []

/-- **EFFECTS**: everything an operation can do. -/
theorem exec_effect {o : Op R} {x : Choice R} {g g' : Loads R} {r : o.Res}
    {new : List (Program R)} (h : exec o x g = some (r, g', new)) : Effect g o r g' new := by
  cases o with
  | enter key =>
      rw [exec] at h
      cases hj : g.join key with
      | some call =>
          simp only [hj] at h
          cases h
          exact .joined hj
      | none =>
          simp only [hj] at h
          by_cases ha : (!x.admitted) = true
          · rw [if_pos ha] at h
            cases h
            exact .rejected hj
          · rw [if_neg ha] at h
            cases h
            exact .started hj
  | await call =>
      rw [exec] at h
      by_cases hc : x.canceled = true
      · rw [if_pos hc] at h
        cases h
        exact .canceled
      · rw [if_neg hc] at h
        cases hr : g.received call with
        | some result =>
            simp only [hr] at h
            cases h
            exact .received hr
        | none =>
            simp only [hr] at h
            exact nomatch h
  | load key =>
      cases h
      exact .loaded _
  | publish call result =>
      cases h
      exact .published
  | close call =>
      cases h
      exact .closed

/-! ## Calls that can be joined -/

/-- The record of a call that is started for `key` and unpublished. -/
def Unpublished (g : Loads R) (key : Bytes) (call : Nat) : Prop :=
  ∃ closed, g.table[call]? = some ⟨key, none, closed⟩

/-- A key is mapped to its unpublished call, if it has one, and to nothing else.  So
    there is at most one such call for a key. -/
def Joinable (g : Loads R) : Prop :=
  ∀ key call, g.join key = some call ↔ Unpublished g key call

section
variable {g : Loads R} {key : Bytes} {call : Nat}

theorem joinable_empty : Joinable (Loads.empty : Loads R) := by
  intro key call
  constructor
  · intro h
    exact nomatch h
  · rintro ⟨closed, h⟩
    exact nomatch h

theorem table_start {i : Nat} (hi : i < g.table.length) :
    (g.start key).2.table[i]? = g.table[i]? := by
  show (g.table ++ [_])[i]? = _
  rw [List.getElem?_append_left hi]

theorem table_start_self : (g.start key).2.table[g.table.length]? = some ⟨key, none, false⟩ := by
  show (g.table ++ [_])[g.table.length]? = _
  rw [List.getElem?_concat_length]

/-- The unpublished calls are those before and the new one. -/
theorem unpublished_start {k : Bytes} {i : Nat} :
    Unpublished (g.start key).2 k i ↔ Unpublished g k i ∨ (k = key ∧ i = g.table.length) := by
  by_cases hi : i < g.table.length
  · rw [Unpublished, table_start hi]
    exact ⟨Or.inl, fun h => h.resolve_right (fun hk => absurd hi (by omega))⟩
  · have hnone : ¬ Unpublished g k i := by
      rintro ⟨closed, h⟩
      exact hi (List.getElem?_eq_some_iff.mp h).1
    rw [or_iff_right hnone]
    constructor
    · rintro ⟨closed, h⟩
      have hlt : i < (g.table ++ [_]).length := (List.getElem?_eq_some_iff.mp h).1
      rw [List.length_append, List.length_singleton] at hlt
      obtain rfl : i = g.table.length := by omega
      rw [table_start_self] at h
      injection Option.some.inj h with hk
      exact ⟨hk.symm, rfl⟩
    · rintro ⟨rfl, rfl⟩
      exact ⟨false, table_start_self⟩

/-- A key without a call gets one: the invariant that each key has at most one
    unpublished call is kept. -/
theorem Joinable.start (h : Joinable g) (hnone : g.join key = none) :
    Joinable (g.start key).2 := by
  intro k i
  rw [unpublished_start, ← h k i]
  show (g.calls.insert key g.table.length).lookup k = some i ↔ _
  by_cases hk : k = key
  · subst hk
    rw [AList.lookup_insert, hnone]
    constructor
    · intro hi
      exact Or.inr ⟨rfl, (Option.some.inj hi).symm⟩
    · rintro (hi | ⟨-, rfl⟩)
      · exact nomatch hi
      · rfl
  · rw [AList.lookup_insert_ne hk]
    exact ⟨Or.inl, fun hi => hi.resolve_right (fun hs => hk hs.1)⟩

theorem table_set {c c' : LoadCall R} {i : Nat} (hc : g.table[call]? = some c) :
    (g.table.set call c')[i]? = if call = i then some c' else g.table[i]? := by
  rw [List.getElem?_set, if_pos (List.getElem?_eq_some_iff.mp hc).1]

/-- Publishing takes one call out of the unpublished. -/
theorem unpublished_publish {r : R} {k : Bytes} {i : Nat} :
    Unpublished (g.publish call r) k i ↔ Unpublished g k i ∧ i ≠ call := by
  rw [Loads.publish]
  cases hc : g.table[call]? with
  | none =>
      refine ⟨fun h => ⟨h, ?_⟩, And.left⟩
      rintro rfl
      obtain ⟨closed, hi⟩ := h
      cases hc.symm.trans hi
  | some c =>
      show (∃ closed, (g.table.set call _)[i]? = some _) ↔ _
      simp only [table_set hc]
      by_cases hi : call = i
      · simp only [if_pos hi]
        refine iff_of_false ?_ (fun h => h.2 hi.symm)
        rintro ⟨closed, h⟩
        cases h
      · simp only [if_neg hi]
        exact ⟨fun h => ⟨h, fun hs => hi hs.symm⟩, And.left⟩

/-- And makes exactly that one unjoinable, since the key is erased only if it still
    leads to it. -/
theorem Joinable.publish (h : Joinable g) (call : Nat) (r : R) : Joinable (g.publish call r) := by
  intro k i
  rw [unpublished_publish, ← h k i, Loads.publish]
  cases hc : g.table[call]? with
  | none =>
      refine ⟨fun hi => ⟨hi, ?_⟩, And.left⟩
      rintro rfl
      obtain ⟨closed, hi⟩ := (h k i).mp hi
      cases hc.symm.trans hi
  | some c =>
      show (if g.calls.lookup c.key = some call then g.calls.erase c.key else g.calls).lookup k =
        some i ↔ g.calls.lookup k = some i ∧ i ≠ call
      -- a key mapped to this call is the key of its record
      have hkey : g.calls.lookup k = some call → k = c.key := by
        intro hk
        obtain ⟨closed, hrec⟩ := (h k call).mp hk
        rw [Option.some.inj (hc.symm.trans hrec)]
      by_cases hmapped : g.calls.lookup c.key = some call
      · rw [if_pos hmapped]
        by_cases hk : k = c.key
        · rw [hk, AList.lookup_erase, hmapped]
          exact iff_of_false (fun hi => (by cases hi))
            (fun hi => hi.2 (Option.some.inj hi.1).symm)
        · rw [AList.lookup_erase_ne hk]
          refine ⟨fun hi => ⟨hi, ?_⟩, And.left⟩
          rintro rfl
          exact hk (hkey hi)
      · rw [if_neg hmapped]
        refine ⟨fun hi => ⟨hi, ?_⟩, And.left⟩
        rintro rfl
        rw [← hkey hi] at hmapped
        exact hmapped hi

/-- Closing a call is not publishing it. -/
theorem unpublished_close {k : Bytes} {i : Nat} :
    Unpublished (g.close call) k i ↔ Unpublished g k i := by
  rw [Loads.close]
  cases hc : g.table[call]? with
  | none => exact Iff.rfl
  | some c =>
      show (∃ closed, (g.table.set call _)[i]? = some _) ↔ _
      simp only [table_set hc]
      by_cases hi : call = i
      · subst hi
        simp only [if_true, Unpublished, hc]
        obtain ⟨ckey, cresult, cclosed⟩ := c
        constructor
        · rintro ⟨closed, h⟩
          cases h
          exact ⟨cclosed, rfl⟩
        · rintro ⟨closed, h⟩
          cases h
          exact ⟨true, rfl⟩
      · simp only [if_neg hi]
        exact Iff.rfl

/-- Closing leaves the map of keys alone. -/
theorem Joinable.close (h : Joinable g) (call : Nat) : Joinable (g.close call) := by
  intro k i
  rw [unpublished_close, ← h k i, Loads.close]
  cases g.table[call]? with
  | none | some => exact Iff.rfl

/-- Every effect of an operation keeps the group joinable. -/
theorem Effect.joinable {o : Op R} {r : o.Res} {g' : Loads R} {new : List (Program R)}
    (he : Effect g o r g' new) (h : Joinable g) : Joinable g' := by
  cases he with
  | joined | rejected => exact h
  | started hnone => exact h.start hnone
  | canceled | received | loaded => exact h
  | published => exact h.publish _ _
  | closed => exact h.close _

end

/-! ## Runs -/

section
variable {G : Guard (machine R)} (ρ : Run (machine R) Loads.empty G)

/-- **JOINABLE**: in every state of every run the keys lead exactly to the unpublished
    calls. -/
theorem joinable (n : Nat) : Joinable (ρ.at n) := by
  refine ρ.invariant joinable_empty ?_ ?_ n
  · intro o x g r g' new h _ he
    exact (exec_effect he).joinable h
  · intro e
    exact nomatch e

variable {ρ}

theorem performs_effect {n t : Nat} {o : Op R} {r : o.Res} (h : ρ.Performs n t o r) :
    ∃ new, Effect (ρ.at n) o r (ρ.at (n + 1)) new := by
  obtain ⟨x, k, new, -, -, he⟩ := h
  exact ⟨new, exec_effect he⟩

/-- Records are never removed, nor results. -/
structure Grows (g g' : Loads R) : Prop where
  length : g.table.length ≤ g'.table.length
  unpublished : ∀ {key : Bytes} {call : Nat}, call < g.table.length →
    Unpublished g' key call → Unpublished g key call

theorem Grows.trans {g g' g'' : Loads R} (h : Grows g g') (h' : Grows g' g'') : Grows g g'' :=
  ⟨Nat.le_trans h.length h'.length,
    fun hc hu => h.unpublished hc (h'.unpublished (Nat.lt_of_lt_of_le hc h.length) hu)⟩

theorem Grows.refl (g : Loads R) : Grows g g := ⟨Nat.le_refl _, fun _ h => h⟩

theorem length_publish (g : Loads R) (call : Nat) (r : R) :
    (g.publish call r).table.length = g.table.length := by
  rw [Loads.publish]
  cases g.table[call]? with
  | none => rfl
  | some c => exact List.length_set

theorem length_close (g : Loads R) (call : Nat) :
    (g.close call).table.length = g.table.length := by
  rw [Loads.close]
  cases g.table[call]? with
  | none => rfl
  | some c => exact List.length_set

/-- No effect removes a record or takes its result back. -/
theorem Effect.grows {g g' : Loads R} {o : Op R} {r : o.Res} {new : List (Program R)}
    (he : Effect g o r g' new) : Grows g g' := by
  cases he with
  | joined | rejected => exact .refl g
  | started _ =>
      refine ⟨?_, fun hc hu => ?_⟩
      · show g.table.length ≤ (g.table ++ [_]).length
        rw [List.length_append]
        exact Nat.le_add_right _ _
      · exact (unpublished_start.mp hu).resolve_right (fun h => absurd hc (by omega))
  | canceled | received | loaded => exact .refl g
  | published =>
      exact ⟨Nat.le_of_eq (length_publish ..).symm, fun _ hu => (unpublished_publish.mp hu).1⟩
  | closed => exact ⟨Nat.le_of_eq (length_close ..).symm, fun _ hu => unpublished_close.mp hu⟩

/-- Hence results stay along a run; a waiter that comes late receives what the early
    ones did. -/
theorem grows {i j : Nat} (hij : i ≤ j) : Grows (ρ.at i) (ρ.at j) := by
  refine ρ.related (fun g => .refl g) (fun h h' => h.trans h') (fun n => ?_) hij
  rcases ρ.performs_or_idle (fun e => nomatch e) n with ⟨t, o, r, h⟩ | ⟨-, hsame, -⟩
  · obtain ⟨new, he⟩ := performs_effect h
    exact he.grows
  · rw [hsame]
    exact .refl _

/-! ### Loaders -/

/-- At moment `m` a caller registers a call; its loader is the next thread. -/
def StartedAt (ρ : Run (machine R) Loads.empty G) (m : Nat) (key : Bytes) (call : Nat) : Prop :=
  ∃ t, ρ.Performs m t (.enter key) (.call call false)

/-- The loader of a call that is registered at `m`. -/
def loaderThread (ρ : Run (machine R) Loads.empty G) (m : Nat) : Nat := (ρ.cfg m).pool.length

section
variable {m m' n t : Nat} {key key' : Bytes} {call : Nat}

/-- What is the case when a call is started: nobody was loading the key, and a loader
    for it is running now. -/
theorem StartedAt.spec (h : StartedAt ρ m key call) :
    (ρ.at m).join key = none ∧ call = (ρ.at m).table.length ∧
      ρ.at (m + 1) = ((ρ.at m).start key).2 ∧
      ρ.thread (m + 1) (loaderThread ρ m) = some (loader key call) := by
  obtain ⟨t, h⟩ := h
  obtain ⟨k, hk⟩ := h.here
  obtain ⟨x, new, -, he, hpool⟩ := h.pool hk
  have hnext : ρ.thread (m + 1) (loaderThread ρ m) = new[0]? := by
    show (ρ.cfg (m + 1)).pool[(ρ.cfg m).pool.length]? = _
    rw [hpool, List.getElem?_append_right (by rw [List.length_set]), List.length_set,
      Nat.sub_self]
  have heffect : Effect (ρ.at m) (.enter key) (.call call false) (ρ.at (m + 1)) new :=
    exec_effect he
  generalize ρ.at (m + 1) = g' at heffect
  rw [hnext]
  cases heffect with
  | started hnone => exact ⟨hnone, rfl, rfl, rfl⟩

/-- A call is registered once. -/
theorem StartedAt.unique (h : StartedAt ρ m key call) (h' : StartedAt ρ m' key' call) :
    m = m' ∧ key = key' := by
  -- a call is numbered by the length of the table, which has grown since
  have hlater : ∀ {i j : Nat} {k k' : Bytes}, StartedAt ρ i k call → StartedAt ρ j k' call →
      ¬ i < j := by
    intro i j k k' hi hj hij
    obtain ⟨-, hlen, hnext, -⟩ := hi.spec
    obtain ⟨-, hlen', -, -⟩ := hj.spec
    have hgrow := (grows (ρ := ρ) hij).length
    rw [hnext] at hgrow
    have hlong : ((ρ.at i).start k).2.table.length = (ρ.at i).table.length + 1 := by
      show ((ρ.at i).table ++ [_]).length = _
      rw [List.length_append, List.length_singleton]
    omega
  have hm : m = m' := by
    rcases Nat.lt_trichotomy m m' with hlt | heq | hgt
    · exact absurd hlt (hlater h h')
    · exact heq
    · exact absurd hgt (hlater h' h)
  subst hm
  obtain ⟨t, h⟩ := h
  obtain ⟨t', h'⟩ := h'
  have hop := h.op_eq h'
  injection hop with hkey
  exact ⟨rfl, hkey⟩

/-- Thread `t` is the loader of a call that was registered before `n`. -/
def LoaderOf (ρ : Run (machine R) Loads.empty G) (n t : Nat) (key : Bytes) (call : Nat) : Prop :=
  ∃ m, m < n ∧ StartedAt ρ m key call ∧ t = loaderThread ρ m

theorem LoaderOf.later (h : LoaderOf ρ n t key call) : LoaderOf ρ (n + 1) t key call := by
  obtain ⟨m, hm, h⟩ := h
  exact ⟨m, Nat.lt_succ_of_lt hm, h⟩

/-- A call has one loader. -/
theorem LoaderOf.thread_eq (h : LoaderOf ρ n t key call) (hs : StartedAt ρ m key' call) :
    t = loaderThread ρ m ∧ key = key' := by
  obtain ⟨m', -, hs', rfl⟩ := h
  obtain ⟨rfl, rfl⟩ := hs'.unique hs
  exact ⟨rfl, rfl⟩

/-! ### Stages of a thread -/

/-- What a thread can be at, and how it came there. -/
inductive Stage (ρ : Run (machine R) Loads.empty G) (n t : Nat) : Program R → Prop where
  | entering (key : Bytes) : Stage ρ n t (loadGroupDo key)
  | waiting {m : Nat} {key : Bytes} {call : Nat} {shared : Bool} (hm : m < n)
      (h : ρ.Performs m t (.enter key) (.call call shared)) : Stage ρ n t (waiting call shared)
  | returned (a : Option (Outcome R)) : Stage ρ n t (.ret a)
  | loading {key : Bytes} {call : Nat} (h : LoaderOf ρ n t key call) :
      Stage ρ n t (loader key call)
  | publishing {key : Bytes} {call : Nat} (r : R) (h : LoaderOf ρ n t key call) :
      Stage ρ n t (publishing call r)
  | closing {key : Bytes} {call : Nat} (h : LoaderOf ρ n t key call) :
      Stage ρ n t (closing call)

theorem Stage.later {p : Program R} (h : Stage ρ n t p) : Stage ρ (n + 1) t p := by
  cases h with
  | entering key => exact .entering key
  | waiting hm h => exact .waiting (Nat.lt_succ_of_lt hm) h
  | returned a => exact .returned a
  | loading h => exact .loading h.later
  | publishing r h => exact .publishing r h.later
  | closing h => exact .closing h.later

/-- A thread that acts goes to its next stage. -/
theorem Stage.next {o : Op R} {k : o.Res → Program R} {r : o.Res} (h : Stage ρ n t (.act o k))
    (hp : ρ.Performs n t o r) : Stage ρ (n + 1) t (k r) := by
  generalize hq : Prog.act (S := sig R) o k = q at h
  -- a thread is a caller or a loader, and each has one way on
  cases h with
  | entering key =>
      cases hq
      cases r with
      | rejected => exact .returned _
      | call id shared => exact .waiting (Nat.lt_succ_self n) hp
  | waiting hm h =>
      cases hq
      cases r with
      | canceled | received => exact .returned _
  | returned a => exact nomatch hq
  | loading h =>
      cases hq
      exact .publishing r h.later
  | publishing r h =>
      cases hq
      exact .closing h.later
  | closing h =>
      cases hq
      exact .returned _

/-- **STAGES**: every thread is at a place of `Do` or of a loader, with the values it
    got there. -/
theorem stages (ρ : Run (machine R) Loads.empty G) :
    ∀ n t p, ρ.thread n t = some p → Stage ρ n t p := by
  refine ρ.threads_induction ?_ ?_ ?_
  · intro n t key _
    exact .entering key
  · intro n t o k r new x ih hp hk he
    refine ⟨(ih t _ hk).next hp, ?_⟩
    intro i q hq
    have heffect : Effect (ρ.at n) o r (ρ.at (n + 1)) new := exec_effect he
    generalize ρ.at (n + 1) = g' at heffect
    cases heffect with
    | started _ =>
        -- the loader is the only program an operation leaves
        cases i with
        | zero =>
            cases hq
            exact .loading ⟨n, Nat.lt_succ_self n, ⟨t, hp⟩, rfl⟩
        | succ i => exact nomatch hq
    | joined | rejected | canceled | received | loaded | published | closed => exact nomatch hq
  · intro n t p ih hp _
    exact (ih t p hp).later

/-- The call whose record an operation changes. -/
def Op.writes : Op R → Option Nat
  | .publish call _ => some call
  | .close call => some call
  | _ => none

/-- Only its loader publishes and closes a call. -/
theorem loaderOf_writes {o : Op R} {r : o.Res} (h : ρ.Performs n t o r)
    (ho : o.writes = some call) : ∃ key, LoaderOf ρ n t key call := by
  obtain ⟨k, hk⟩ := h.here
  have hstage := stages ρ n t _ hk
  generalize hq : Prog.act (S := sig R) o k = q at hstage
  cases hstage with
  | entering | waiting =>
      cases hq
      exact nomatch ho
  | returned a => exact nomatch hq
  | loading h =>
      cases hq
      exact nomatch ho
  | publishing r hloader | closing hloader =>
      cases hq
      exact Option.some.inj ho ▸ ⟨_, hloader⟩

/-- Other operations keep the record of a call. -/
theorem Effect.record {g g' : Loads R} {o : Op R} {r : o.Res} {new : List (Program R)}
    (he : Effect g o r g' new) (hcall : call < g.table.length) (ho : o.writes ≠ some call) :
    g'.table[call]? = g.table[call]? := by
  cases he with
  | joined | rejected => rfl
  | started _ => exact table_start hcall
  | canceled | received | loaded => rfl
  | @published i r =>
      have hne : i ≠ call := fun h => ho (congrArg some h)
      rw [Loads.publish]
      cases hi : g.table[i]? with
      | none => rfl
      | some c => exact (table_set hi).trans (if_neg hne)
  | @closed i =>
      have hne : i ≠ call := fun h => ho (congrArg some h)
      rw [Loads.close]
      cases hi : g.table[i]? with
      | none => rfl
      | some c => exact (table_set hi).trans (if_neg hne)

/-- While its loader does not act, the record of a call stays. -/
theorem record_stays (hs : StartedAt ρ m key call) (hmn : m < n)
    (hidle : ∀ x, ρ.label n ≠ .thread (loaderThread ρ m) x) :
    (ρ.at (n + 1)).table[call]? = (ρ.at n).table[call]? := by
  rcases ρ.performs_or_idle (fun e => nomatch e) n with ⟨t, o, r, h⟩ | ⟨-, hsame, -⟩
  · obtain ⟨new, he⟩ := performs_effect h
    have hcall : call < (ρ.at n).table.length := by
      obtain ⟨-, hlen, hnext, -⟩ := hs.spec
      have hgrow : (ρ.at (m + 1)).table.length ≤ (ρ.at n).table.length := (grows hmn).length
      have hlong : (ρ.at (m + 1)).table.length = call + 1 := by
        rw [hnext, hlen]
        exact List.length_append
      omega
    refine he.record hcall (fun ho => ?_)
    obtain ⟨key', hloader⟩ := loaderOf_writes h ho
    obtain ⟨rfl, -⟩ := hloader.thread_eq hs
    obtain ⟨x, -, -, hl, -⟩ := h
    exact hidle x hl
  · rw [hsame]

/-! ### Progress of a load -/

/-- The loader of a call and the record of the call, at the same stage. -/
inductive Progress (ρ : Run (machine R) Loads.empty G) (m : Nat) (key : Bytes) (call n : Nat) :
    Prop where
  | loading (hp : ρ.thread n (loaderThread ρ m) = some (loader key call))
      (hrec : (ρ.at n).table[call]? = some ⟨key, none, false⟩)
  | publishing (r : R) (i : Nat) (hi : i < n)
      (hload : ρ.Performs i (loaderThread ρ m) (.load key) r)
      (hp : ρ.thread n (loaderThread ρ m) = some (publishing call r))
      (hrec : (ρ.at n).table[call]? = some ⟨key, none, false⟩)
  | closing (r : R) (i : Nat) (hi : i < n)
      (hload : ρ.Performs i (loaderThread ρ m) (.load key) r)
      (hp : ρ.thread n (loaderThread ρ m) = some (closing call))
      (hrec : (ρ.at n).table[call]? = some ⟨key, some r, false⟩)
  | done (r : R) (i : Nat) (hi : i < n)
      (hload : ρ.Performs i (loaderThread ρ m) (.load key) r)
      (hp : ρ.thread n (loaderThread ρ m) = some (.ret none))
      (hrec : (ρ.at n).table[call]? = some ⟨key, some r, true⟩)

theorem record_publish {g : Loads R} {c : LoadCall R} (hc : g.table[call]? = some c) (r : R) :
    (g.publish call r).table[call]? = some { c with result := some r } := by
  rw [Loads.publish, hc]
  exact (table_set hc).trans (if_pos rfl)

theorem record_close {g : Loads R} {c : LoadCall R} (hc : g.table[call]? = some c) :
    (g.close call).table[call]? = some { c with closed := true } := by
  rw [Loads.close, hc]
  exact (table_set hc).trans (if_pos rfl)

/-- The answer of a thread that acts. -/
theorem performs_of_act {o : Op R} {k : o.Res → Program R}
    (hp : ρ.thread n t = some (.act (S := sig R) o k)) :
    (ρ.thread (n + 1) t = some (.act (S := sig R) o k) ∧ ∀ x, ρ.label n ≠ .thread t x) ∨
      ∃ r, ρ.Performs n t o r ∧ ρ.thread (n + 1) t = some (k r) ∧
        ∃ new, Effect (ρ.at n) o r (ρ.at (n + 1)) new := by
  rcases ρ.thread_succ hp with hstay | ⟨x, hl, w, hact, hnext⟩
  · exact Or.inl hstay
  · have hperforms := Run.performs_of_step hl w
    obtain ⟨op, cont, res, new, here, permitted, fires, pool_eq⟩ := w
    cases hact
    exact Or.inr ⟨res, hperforms, hnext, performs_effect hperforms⟩

/-- A started call goes through its stages in order: loading, published, closed. -/
theorem Progress.next (hs : StartedAt ρ m key call) (hmn : m < n)
    (h : Progress ρ m key call n) : Progress ρ m key call (n + 1) := by
  -- at each stage the loader idles, and then its record stays, or it does its one operation
  cases h with
  | loading hp hrec =>
      rcases performs_of_act hp with ⟨hstay, hidle⟩ | ⟨r, hload, hnext, new, he⟩
      · exact .loading hstay (by rw [record_stays hs hmn hidle, hrec])
      · refine .publishing r n (Nat.lt_succ_self n) hload hnext ?_
        generalize ρ.at (n + 1) = g' at he
        cases he
        exact hrec
  | publishing r i hi hload hp hrec =>
      rcases performs_of_act hp with ⟨hstay, hidle⟩ | ⟨_, -, hnext, new, he⟩
      · exact .publishing r i (Nat.lt_succ_of_lt hi) hload hstay
          (by rw [record_stays hs hmn hidle, hrec])
      · refine .closing r i (Nat.lt_succ_of_lt hi) hload hnext ?_
        generalize ρ.at (n + 1) = g' at he
        cases he
        exact record_publish hrec r
  | closing r i hi hload hp hrec =>
      rcases performs_of_act hp with ⟨hstay, hidle⟩ | ⟨_, -, hnext, new, he⟩
      · exact .closing r i (Nat.lt_succ_of_lt hi) hload hstay
          (by rw [record_stays hs hmn hidle, hrec])
      · refine .done r i (Nat.lt_succ_of_lt hi) hload hnext ?_
        generalize ρ.at (n + 1) = g' at he
        cases he
        exact record_close hrec
  | done r i hi hload hp hrec =>
      rcases ρ.thread_succ hp with ⟨hstay, hidle⟩ | ⟨x, hl, w, hact, -⟩
      · exact .done r i (Nat.lt_succ_of_lt hi) hload hstay
          (by rw [record_stays hs hmn hidle, hrec])
      · exact nomatch hact

/-- At any later time it is in one of them, and its record says so. -/
theorem progress (hs : StartedAt ρ m key call) (hmn : m < n) : Progress ρ m key call n := by
  induction n, hmn using Nat.le_induction with
  | base =>
      obtain ⟨-, hlen, hnext, hp⟩ := hs.spec
      refine .loading hp ?_
      show (ρ.at (m + 1)).table[call]? = _
      rw [hnext, hlen]
      exact table_start_self
  | succ n hmn ih => exact ih.next hs hmn

/-- Every record belongs to a call that was registered. -/
theorem startedAt_of_record {c : LoadCall R} (h : (ρ.at n).table[call]? = some c) :
    ∃ m key, m < n ∧ StartedAt ρ m key call := by
  induction n generalizing c with
  | zero =>
      rw [ρ.at_zero] at h
      exact nomatch h
  | succ n ih =>
      -- a record that was there before is covered by the induction hypothesis
      have hearlier : call < (ρ.at n).table.length →
          ∃ m key, m < n + 1 ∧ StartedAt ρ m key call := by
        intro hlt
        obtain ⟨m, key, hm, hs⟩ := ih (List.getElem?_eq_getElem hlt)
        exact ⟨m, key, Nat.lt_succ_of_lt hm, hs⟩
      have hlt : call < (ρ.at (n + 1)).table.length := (List.getElem?_eq_some_iff.mp h).1
      rcases ρ.performs_or_idle (fun e => nomatch e) n with ⟨t, o, r, hperforms⟩ | ⟨-, hsame, -⟩
      · obtain ⟨new, he⟩ := performs_effect hperforms
        generalize hg : ρ.at (n + 1) = g' at he hlt
        cases he with
        | @started key _ =>
            have hlong : call < ((ρ.at n).table ++ [_]).length := hlt
            rw [List.length_append, List.length_singleton] at hlong
            rcases Nat.lt_succ_iff_lt_or_eq.mp hlong with hold | rfl
            · exact hearlier hold
            · exact ⟨n, key, Nat.lt_succ_self n, t, hperforms⟩
        | joined | rejected | canceled | received | loaded => exact hearlier hlt
        | published => exact hearlier (Nat.lt_of_lt_of_eq hlt (length_publish _ _ _))
        | closed => exact hearlier (Nat.lt_of_lt_of_eq hlt (length_close _ _))
      · rw [hsame] at hlt
        exact hearlier hlt

/-! ### Running loads, results and later calls -/

/-- The load function of a call has not returned yet. -/
def Running (ρ : Run (machine R) Loads.empty G) (n t : Nat) (key : Bytes) (call : Nat) : Prop :=
  LoaderOf ρ n t key call ∧ ρ.thread n t = some (loader key call)

/-- A call whose load is running is the one its key is mapped to. -/
theorem Running.joinable (h : Running ρ n t key call) : (ρ.at n).join key = some call := by
  obtain ⟨⟨m, hm, hs, rfl⟩, hrunning⟩ := h
  refine (Coalescing.joinable ρ n key call).mpr ?_
  cases progress hs hm with
  | loading hp hrec | publishing r i hi hload hp hrec => exact ⟨false, hrec⟩
  | closing r i hi hload hp hrec | done r i hi hload hp hrec => exact nomatch hrunning.symm.trans hp

/-- A received result is the one of a closed record. -/
theorem received_record {g : Loads R} {r : R} (h : g.received call = some r) :
    ∃ key, g.table[call]? = some ⟨key, some r, true⟩ := by
  simp only [Loads.received] at h
  cases hrec : g.table[call]? with
  | none =>
      rw [hrec] at h
      cases h
  | some c =>
      obtain ⟨key, result, closed⟩ := c
      cases closed with
      | false =>
          rw [hrec] at h
          cases h
      | true =>
          rw [hrec] at h
          exact ⟨key, by rw [show result = some r from h]⟩

/-- What a waiter is handed is the result of the load, and the record says so. -/
theorem received_spec {r : R} (h : (ρ.at n).received call = some r) :
    ∃ m key i, m < n ∧ StartedAt ρ m key call ∧ i < n ∧
      ρ.Performs i (loaderThread ρ m) (.load key) r ∧
      (ρ.at n).table[call]? = some ⟨key, some r, true⟩ := by
  obtain ⟨key', hrec⟩ := received_record h
  obtain ⟨m, key, hm, hs⟩ := startedAt_of_record hrec
  cases progress hs hm with
  | loading hp hrec' | publishing r' i hi hload hp hrec' | closing r' i hi hload hp hrec' =>
      exact nomatch hrec.symm.trans hrec'
  | done r' i hi hload hp hrec' =>
      cases hrec.symm.trans hrec'
      exact ⟨m, _, i, hm, hs, hi, hload, hrec⟩

/-- What a waiter returns with is what the group holds for its call. -/
theorem received_of_await {r : R} (h : ρ.Performs n t (.await call) (.received r)) :
    (ρ.at n).received call = some r := by
  obtain ⟨new, he⟩ := performs_effect h
  generalize ρ.at (n + 1) = g' at he
  cases he with
  | received hr => exact hr

/-- A waiter has entered with the call it waits for. -/
theorem entered_of_await {r : Awaited R} (h : ρ.Performs n t (.await call) r) :
    ∃ j key shared, j < n ∧ ρ.Performs j t (.enter key) (.call call shared) := by
  obtain ⟨k, hk⟩ := h.here
  have hstage := stages ρ n t _ hk
  generalize hq : Prog.act (S := sig R) (.await call) k = q at hstage
  cases hstage with
  | @waiting m key call shared hm henter =>
      cases hq
      exact ⟨m, key, shared, hm, henter⟩
  | entering | returned | loading | publishing | closing => exact nomatch hq

/-- The call a caller enters with is unpublished, or is registered by this caller. -/
theorem enter_spec {shared : Bool} (h : ρ.Performs n t (.enter key) (.call call shared)) :
    (Unpublished (ρ.at n) key call ∧ shared = true) ∨
      (StartedAt ρ n key call ∧ shared = false) := by
  obtain ⟨new, he⟩ := performs_effect h
  generalize ρ.at (n + 1) = g' at he
  cases he with
  | joined hj => exact Or.inl ⟨(joinable ρ n key call).mp hj, rfl⟩
  | started hnone => exact Or.inr ⟨⟨t, h⟩, rfl⟩

/-- An unpublished call was registered for the key of its record. -/
theorem startedAt_of_unpublished (h : Unpublished (ρ.at n) key call) :
    ∃ m, m < n ∧ StartedAt ρ m key call := by
  obtain ⟨closed, hrec⟩ := h
  obtain ⟨m, key', hm, hs⟩ := startedAt_of_record hrec
  have hkey : key' = key := by
    cases progress hs hm with
    | loading hp hrec' | publishing r i hi hload hp hrec' | closing r i hi hload hp hrec'
    | done r i hi hload hp hrec' =>
        injection Option.some.inj (hrec'.symm.trans hrec)
  exact ⟨m, hm, hkey ▸ hs⟩

/-- **LATER CALLS**: who enters when the result of a call is out gets another call, and for
    the same key a later one. -/
theorem enters_later {j : Nat} {call' : Nat} {shared : Bool} {r : R}
    (hr : (ρ.at n).received call = some r) (hnj : n ≤ j)
    (h : ρ.Performs j t (.enter key) (.call call' shared)) :
    call' ≠ call ∧ ∀ m, StartedAt ρ m key call → call < call' := by
  obtain ⟨m₀, key₀, i, hm₀, hs₀, -, -, hrec⟩ := received_spec hr
  have hlt : call < (ρ.at n).table.length := (List.getElem?_eq_some_iff.mp hrec).1
  have hpublished : ∀ k, ¬ Unpublished (ρ.at j) k call := by
    intro k hu
    obtain ⟨closed, hrec'⟩ := (grows hnj).unpublished hlt hu
    rw [hrec] at hrec'
    exact nomatch hrec'
  rcases enter_spec h with ⟨hu, -⟩ | ⟨hstart, -⟩
  · have hne : call' ≠ call := by
      rintro rfl
      exact hpublished key hu
    refine ⟨hne, fun m hs => ?_⟩
    obtain ⟨m', hm', hs'⟩ := startedAt_of_unpublished hu
    obtain ⟨hnone, hlen, -, -⟩ := hs.spec
    obtain ⟨-, hlen', -, -⟩ := hs'.spec
    by_contra hge
    -- an older call of the key was still registered when this one was started
    have holder : m' < m := by
      by_contra hmm
      have hgrow := (grows (ρ := ρ) (Nat.le_of_not_lt hmm)).length
      omega
    have hold : Unpublished (ρ.at m) key call' := by
      have hm : m < j := by
        obtain ⟨rfl, -⟩ := hs.unique hs₀
        omega
      exact (grows (Nat.le_of_lt hm)).unpublished (by omega) hu
    rw [(joinable ρ m key call').mpr hold] at hnone
    exact nomatch hnone
  · obtain ⟨-, hlen, -, -⟩ := hstart.spec
    have hgrow := (grows (ρ := ρ) hnj).length
    exact ⟨by omega, fun m _ => by omega⟩

/-! ### The loader runs to its end -/

/-- Running the load function. -/
def IsLoad (o : Op R) : Prop := ∃ key, o = .load key

/-- A loader loads exactly once, whatever happens around it. -/
theorem loader_loads_once (key : Bytes) (call : Nat) :
    Exactly (S := sig R) IsLoad 1 (loader key call) := by
  refine .hit ⟨key, rfl⟩ (fun r => ?_)
  refine .miss (fun ⟨_, h⟩ => (nomatch h)) (fun _ => ?_)
  refine .miss (fun ⟨_, h⟩ => (nomatch h)) (fun _ => ?_)
  exact .ret none

/-- No operation of a loader waits for anything. -/
theorem loader_not_blocked (hs : StartedAt ρ m key call) (hmn : m < n) {o : Op R}
    {k : o.Res → Program R} (hp : ρ.thread n (loaderThread ρ m) = some (.act (S := sig R) o k))
    (x : Choice R) : exec o x (ρ.at n) ≠ none := by
  cases progress hs hmn with
  | loading hp' _ | publishing r i hi hload hp' _ | closing r i hi hload hp' _ =>
      cases hp.symm.trans hp'
      exact fun h => nomatch h
  | done r i hi hload hp' _ => exact nomatch hp.symm.trans hp'

/-- **COMPLETION**: a loader that is scheduled runs its load once and closes its call with
    the result. -/
theorem completes (hs : StartedAt ρ m key call) (hfair : ρ.Fair (loaderThread ρ m)) :
    ∃ i n r, i < n ∧ ρ.Performs i (loaderThread ρ m) (.load key) r ∧
      (∀ j, ρ.Acts (loaderThread ρ m) IsLoad j → j = i) ∧
      (ρ.at n).table[call]? = some ⟨key, some r, true⟩ := by
  obtain ⟨-, -, -, hfirst⟩ := hs.spec
  obtain ⟨n, a, hmn, hret⟩ := hfair.returns hfirst
    (fun n hn o k hp x => loader_not_blocked hs hn hp x)
  cases progress hs hmn with
  | loading hp _ | publishing r i hi hload hp _ | closing r i hi hload hp _ =>
      exact nomatch hret.symm.trans hp
  | done r i hi hload hp hrec =>
      refine ⟨i, n, r, hi, hload, ?_, hrec⟩
      obtain ⟨i', -, -, -, honly⟩ := Run.once (loader_loads_once key call) hfirst hmn hret
      have hborn : ∀ {j : Nat}, ρ.Acts (loaderThread ρ m) IsLoad j → m + 1 ≤ j := by
        rintro j ⟨o, r, -, hact⟩
        obtain ⟨k, hk⟩ := hact.here
        exact ρ.lt_of_thread rfl hk
      have hacts : ρ.Acts (loaderThread ρ m) IsLoad i := ⟨.load key, r, ⟨key, rfl⟩, hload⟩
      intro j hj
      rw [honly j (hborn hj) hj, honly i (hborn hacts) hacts]

/-- A call that is closed hands its result to every waiter, for ever. -/
theorem received_of_closed {r : R} (h : (ρ.at n).received call = some r) {n' : Nat}
    (hnn : n ≤ n') : (ρ.at n').received call = some r := by
  obtain ⟨m, key, i, hm, hs, hi, hload, hrec⟩ := received_spec h
  have hstays : (ρ.at n').table[call]? = some ⟨key, some r, true⟩ := by
    induction n', hnn using Nat.le_induction with
    | base => exact hrec
    | succ n' hle ih =>
        cases progress hs (Nat.lt_of_lt_of_le hm hle) with
        | loading hp hrec' | publishing r' i hi hload hp hrec' | closing r' i hi hload hp hrec' =>
            exact nomatch ih.symm.trans hrec'
        | done r' i hi hload hp hrec' =>
            rcases ρ.thread_succ hp with ⟨-, hidle⟩ | ⟨x, hl, w, hact, -⟩
            · rw [record_stays hs (Nat.lt_of_lt_of_le hm hle) hidle, ih]
            · exact nomatch hact
  show Loads.received (ρ.at n') call = some r
  simp only [Loads.received, hstays]
  rfl

/-! ### What a caller returns -/

/-- Whoever enters joins a call that somebody has started, perhaps itself. -/
theorem startedAt_of_enter {shared : Bool}
    (h : ρ.Performs n t (.enter key) (.call call shared)) : ∃ m, m ≤ n ∧ StartedAt ρ m key call := by
  rcases enter_spec h with ⟨hu, -⟩ | ⟨hs, -⟩
  · obtain ⟨m, hm, hs⟩ := startedAt_of_unpublished hu
    exact ⟨m, Nat.le_of_lt hm, hs⟩
  · exact ⟨n, Nat.le_refl n, hs⟩

/-- After its first section a caller waits for the call it was given. -/
theorem waiting_of_enter {shared : Bool}
    (h : ρ.Performs n t (.enter key) (.call call shared)) :
    ρ.thread (n + 1) t = some (waiting call shared) := by
  obtain ⟨k, hk⟩ := h.here
  have hstage := stages ρ n t _ hk
  generalize hq : Prog.act (S := sig R) (.enter key) k = q at hstage
  cases hstage with
  | entering key =>
      cases hq
      exact h.next hk
  | waiting | returned | loading | publishing | closing => exact nomatch hq

/-- The result of a wait belongs to the call that was joined. -/
theorem received_from {r : R} (h : ρ.Performs n t (.await call) (.received r)) :
    ∃ j key shared m i, j < n ∧ ρ.Performs j t (.enter key) (.call call shared) ∧
      StartedAt ρ m key call ∧ i < n ∧ ρ.Performs i (loaderThread ρ m) (.load key) r := by
  obtain ⟨j, key, shared, hj, henter⟩ := entered_of_await h
  obtain ⟨m, -, hs⟩ := startedAt_of_enter henter
  obtain ⟨m', key', i, -, hs', hi, hload, -⟩ := received_spec (received_of_await h)
  obtain ⟨rfl, rfl⟩ := hs.unique hs'
  exact ⟨j, key, shared, m, i, hj, henter, hs, hi, hload⟩

/-- **JOINERS**: once the loader has closed the call its result can be received for ever, so a
    fair caller that waits for it returns, with that result if it is not cancelled. -/
theorem joiner_returns {shared : Bool} (h : ρ.Performs n t (.enter key) (.call call shared))
    (hloader : ∀ m, StartedAt ρ m key call → ρ.Fair (loaderThread ρ m)) (hfair : ρ.Fair t) :
    ∃ n', n < n' ∧ (ρ.thread n' t = some (.ret (some (.canceled shared))) ∨
      ∃ m i r, StartedAt ρ m key call ∧ ρ.Performs i (loaderThread ρ m) (.load key) r ∧
        ρ.thread n' t = some (.ret (some (.received r shared)))) := by
  obtain ⟨m, -, hs⟩ := startedAt_of_enter h
  obtain ⟨-, n₀, r₀, -, -, -, hrec⟩ := completes hs (hloader m hs)
  have hclosed : (ρ.at n₀).received call = some r₀ := by
    show Loads.received (ρ.at n₀) call = some r₀
    simp only [Loads.received, hrec]
    rfl
  -- from then on the wait is not blocked, cancelled or not
  have hfree : ∀ n', n₀ ≤ n' → ∀ x, exec (.await call) x (ρ.at n') ≠ none := by
    intro n' hn x
    simp only [exec, received_of_closed hclosed hn]
    split
    · exact Option.some_ne_none _
    · exact Option.some_ne_none _
  obtain ⟨i, hi, hhere, x, hl⟩ := hfair.acts (waiting_of_enter h) n₀ (fun n' hn _ => hfree n' hn)
  rcases performs_of_act hhere with ⟨-, hidle⟩ | ⟨r, hperforms, hnext, -⟩
  · exact absurd hl (hidle x)
  · refine ⟨i + 1, by omega, ?_⟩
    cases r with
    | canceled => exact Or.inl hnext
    | received r =>
        obtain ⟨m', key', j, -, hs', -, hload, -⟩ := received_spec (received_of_await hperforms)
        obtain ⟨rfl, rfl⟩ := hs.unique hs'
        exact Or.inr ⟨m, j, r, hs, hload, hnext⟩

/-- A cancelled wait changes neither the group nor any other thread. -/
theorem canceled_frame (h : ρ.Performs n t (.await call) .canceled) :
    ρ.at (n + 1) = ρ.at n ∧ ∀ t', t' ≠ t → ρ.thread (n + 1) t' = ρ.thread n t' := by
  obtain ⟨k, hk⟩ := h.here
  obtain ⟨x, new, -, he, hpool⟩ := h.pool hk
  have heffect : Effect (ρ.at n) (.await call) .canceled (ρ.at (n + 1)) new := exec_effect he
  have hnothing : ρ.at (n + 1) = ρ.at n ∧ new = [] := by
    generalize ρ.at (n + 1) = g' at heffect
    cases heffect
    exact ⟨rfl, rfl⟩
  refine ⟨hnothing.1, fun t' hne => ?_⟩
  show (ρ.cfg (n + 1)).pool[t']? = (ρ.cfg n).pool[t']?
  rw [hpool, hnothing.2, List.append_nil, List.getElem?_set_ne (Ne.symm hne)]

end

/-! ## Coalescing -/

/-- What a run of callers of `Do` keeps to. -/
structure Coalesced (ρ : Run (machine R) Loads.empty G) : Prop where
  /-- At most one load of a key is running. -/
  single : ∀ {n t t' : Nat} {key : Bytes} {call call' : Nat}, Running ρ n t key call →
    Running ρ n t' key call' → t = t' ∧ call = call'
  /-- The loader of an admitted call waits for nobody. -/
  unblocked : ∀ {m n : Nat} {key : Bytes} {call : Nat}, StartedAt ρ m key call → m < n →
    ∀ {o : Op R} {k : o.Res → Program R},
      ρ.thread n (loaderThread ρ m) = some (.act (S := sig R) o k) →
      ∀ x, exec o x (ρ.at n) ≠ none
  /-- So whatever its callers do, it runs the load exactly once and completes the call: from
      then on every waiter finds the result. -/
  completes : ∀ {m : Nat} {key : Bytes} {call : Nat}, StartedAt ρ m key call →
    ρ.Fair (loaderThread ρ m) →
    ∃ i n r, ρ.Performs i (loaderThread ρ m) (.load key) r ∧
      (∀ j, ρ.Acts (loaderThread ρ m) IsLoad j → j = i) ∧
      ∀ n', n ≤ n' → (ρ.at n').received call = some r
  /-- A cancelled caller changes nothing for the others. -/
  canceled : ∀ {n t call : Nat}, ρ.Performs n t (.await call) .canceled →
    ρ.at (n + 1) = ρ.at n ∧ ∀ t', t' ≠ t → ρ.thread (n + 1) t' = ρ.thread n t'
  /-- So a joiner that is not cancelled returns the result of the load it joined, if it is not
      left for ever where it could receive it. -/
  joined : ∀ {n t : Nat} {key : Bytes} {call : Nat} {shared : Bool},
    ρ.Performs n t (.enter key) (.call call shared) →
    (∀ m, StartedAt ρ m key call → ρ.Fair (loaderThread ρ m)) → ρ.Fair t →
    ∃ n', n < n' ∧ (ρ.thread n' t = some (.ret (some (.canceled shared))) ∨
      ∃ m i r, StartedAt ρ m key call ∧ ρ.Performs i (loaderThread ρ m) (.load key) r ∧
        ρ.thread n' t = some (.ret (some (.received r shared))))
  /-- No other result is ever received. -/
  received : ∀ {n t call : Nat} {r : R}, ρ.Performs n t (.await call) (.received r) →
    ∃ j key shared m i, j < n ∧ ρ.Performs j t (.enter key) (.call call shared) ∧
      StartedAt ρ m key call ∧ i < n ∧ ρ.Performs i (loaderThread ρ m) (.load key) r
  /-- A caller that starts after a result was received is given another call, for the same key
      a later one, and never receives that result. -/
  fresh : ∀ {n t call : Nat} {r : R}, ρ.Performs n t (.await call) (.received r) →
    ∀ {n' t' : Nat} {job : Bytes}, ρ.label n' = .spawn t' job → n ≤ n' →
      (∀ {j call' : Nat} {key : Bytes} {shared : Bool},
        ρ.Performs j t' (.enter key) (.call call' shared) →
        call' ≠ call ∧ ∀ m, StartedAt ρ m key call → call < call') ∧
      ∀ {j call' : Nat} {r' : R}, ρ.Performs j t' (.await call') (.received r') → call' ≠ call

/-- **LOADS ARE COALESCED AND NEVER REUSED**, in every run of any number of callers on any
    keys, with any answers of `admit` and of the load functions and any cancellations. -/
theorem load_coalescing (ρ : Run (machine R) Loads.empty G) : Coalesced ρ where
  single := by
    intro n t t' key call call' h h'
    obtain rfl : call = call' := Option.some.inj (h.joinable.symm.trans h'.joinable)
    obtain ⟨m, -, hs, rfl⟩ := h'.1
    exact ⟨(h.1.thread_eq hs).1, rfl⟩
  unblocked := by
    intro m n key call hs hmn o k hp x
    exact loader_not_blocked hs hmn hp x
  completes := by
    intro m key call hs hfair
    obtain ⟨i, n, r, -, hload, honly, hrec⟩ := Coalescing.completes hs hfair
    refine ⟨i, n, r, hload, honly, fun n' hn => received_of_closed ?_ hn⟩
    show Loads.received (ρ.at n) call = some r
    simp only [Loads.received, hrec]
    rfl
  canceled := canceled_frame
  joined := joiner_returns
  received := received_from
  fresh := by
    intro n t call r hreceived n' t' job hspawn hle
    -- a caller that starts after the result was received acts after it too
    have hafter : ∀ {j : Nat} {o : Op R} {a : o.Res}, ρ.Performs j t' o a → n ≤ j := by
      intro j o a h
      obtain ⟨k, hk⟩ := h.here
      have hborn := ρ.lt_of_thread (ρ.thread_spawned hspawn).1 hk
      omega
    have hresult := received_of_await hreceived
    refine ⟨fun h => enters_later hresult (hafter h) h, fun h => ?_⟩
    obtain ⟨j, key, shared, -, henter⟩ := entered_of_await h
    exact (enters_later hresult (hafter henter) henter).1

end

/-! Two callers of one key: the one that started the load is cancelled, the other is handed
    the result. -/

/-- Two callers of one key; the first is canceled while it waits, the second receives
    the result. -/
def sharedScript : List (Label (machine Nat)) :=
  let answers (canceled : Bool) : Choice Nat := ⟨true, canceled, 7⟩
  [.spawn 0 (ascii "key"), .spawn 1 (ascii "key"), .thread 0 (answers false),
    .thread 1 (answers false), .thread 0 (answers true), .thread 2 (answers false),
    .thread 2 (answers false), .thread 2 (answers false), .thread 1 (answers false)]

/-- A run of that script: the canceled caller does not take the load with it. -/
theorem load_coalescing_shared :
    ∃ ρ : Run (machine Nat) Loads.empty (Guard.any (machine Nat)), Coalesced ρ ∧
      ρ.thread 9 0 = some (.ret (some (.canceled false))) ∧
      ρ.thread 9 1 = some (.ret (some (.received 7 true))) := by
  have hsome : (after (M := machine Nat) ⟨Loads.empty, []⟩ sharedScript).isSome := by
    decide +kernel
  obtain ⟨ρ, -, hcfg⟩ := exists_run hsome (Guard.any_admitsAll _ _)
  have hend : ρ.cfg 9 = played Loads.empty sharedScript := hcfg 9 (by decide)
  refine ⟨ρ, load_coalescing ρ, ?_, ?_⟩
  · show (ρ.cfg 9).pool[0]? = _
    rw [hend]
    rfl
  · show (ρ.cfg 9).pool[1]? = _
    rw [hend]
    rfl

end Coalescing
