import Mathlib.Data.List.Basic
import Mathlib.Data.Nat.Init

/-! # Interleaved programs over a shared state

    A thread is a program over a signature of ATOMIC operations: it performs an
    operation, is handed the answer and continues.  A machine says what each
    operation does to the shared state, which moves the environment makes on its
    own, and which jobs may be started.  A run interleaves all of these in any
    order.

    Two induction rules close every safety argument over runs:

    * `Run.invariant` / `Run.related`: facts each single step preserves, whatever
      program performs it;
    * `Run.threads_wp` and `Run.returns_wp`: facts that also need to know WHICH
      program performs the step.  A program is checked once against the run
      (`Wp`), assuming the invariant at the moments it acts and promising a
      precondition for each operation. -/

namespace Interleaving

/-- Atomic operations and the type each of them answers. -/
structure Sig where
  Op : Type
  Res : Op → Type

/-- A sequential program: finished, or waiting to perform an operation. -/
inductive Prog (S : Sig) (α : Type) : Type where
  | ret (a : α) : Prog S α
  | act (o : S.Op) (k : S.Res o → Prog S α) : Prog S α

variable {S : Sig} {α β γ : Type}

/-- Run `p`, then continue with its result. -/
def Prog.bind : Prog S α → (α → Prog S β) → Prog S β
  | .ret a, f => f a
  | .act o k, f => .act o (fun r => (k r).bind f)

instance : Monad (Prog S) where
  pure := Prog.ret
  bind := Prog.bind

theorem Prog.bind_assoc (p : Prog S α) (f : α → Prog S β) (g : β → Prog S γ) :
    (p.bind f).bind g = p.bind (fun a => (f a).bind g) := by
  induction p with
  | ret a => rfl
  | act o k ih => simp only [Prog.bind, ih]

/-- The program that performs one operation and returns its answer. -/
def Prog.perform (o : S.Op) : Prog S (S.Res o) :=
  .act o .ret

/-- What operations, environment moves and jobs do.  An operation answers `none`
    while it is blocked; it may leave further programs behind as new threads. -/
structure Machine (S : Sig) (α : Type) where
  State : Type
  Choice : Type
  Env : Type
  Job : Type
  body : Job → Prog S α
  exec : (o : S.Op) → Choice → State → Option (S.Res o × State × List (Prog S α))
  move : Env → State → Option State

/-- One scheduling decision. -/
inductive Label (M : Machine S α) where
  | thread (t : Nat) (x : M.Choice)
  | env (e : M.Env)
  | spawn (t : Nat) (j : M.Job)
  | idle

/-- The shared state and what every thread still has to do; threads are numbered
    in the order they started and keep their number after they returned. -/
structure Config (M : Machine S α) where
  shared : M.State
  pool : List (Prog S α)

variable {M : Machine S α}

/-- The effect of one scheduling decision. -/
def step : Label M → Config M → Option (Config M)
  | .thread t x, c =>
      match c.pool[t]? with
      | some (.act o k) =>
          match M.exec o x c.shared with
          | some (r, s, new) => some ⟨s, c.pool.set t (k r) ++ new⟩
          | none => none
      | _ => none
  | .env e, c =>
      match M.move e c.shared with
      | some s => some ⟨s, c.pool⟩
      | none => none
  | .spawn t j, c =>
      if t = c.pool.length then some ⟨c.shared, c.pool ++ [M.body j]⟩ else none
  | .idle, c => some c

/-- What the environment is allowed to do: which choices may accompany an
    operation, and which moves may be made, in a given state. -/
structure Guard (M : Machine S α) where
  op : S.Op → M.Choice → M.State → Prop
  env : M.Env → M.State → Prop

/-- The unrestricted environment. -/
def Guard.any (M : Machine S α) : Guard M where
  op := fun _ _ _ => True
  env := fun _ _ => True

/-- A scheduling decision the guard lets through. -/
def Guard.admits (G : Guard M) : Label M → Config M → Prop
  | .thread t x, c => ∀ o k, c.pool[t]? = some (.act o k) → G.op o x c.shared
  | .env e, c => G.env e c.shared
  | .spawn _ _, _ => True
  | .idle, _ => True

/-- A run: a scheduling decision at every moment.  Finite sequences of steps are
    the runs that idle from some moment on (`exists_run`). -/
structure Run (M : Machine S α) (init : M.State) (G : Guard M) where
  label : Nat → Label M
  cfg : Nat → Config M
  start : cfg 0 = ⟨init, []⟩
  next : ∀ n, step (label n) (cfg n) = some (cfg (n + 1))
  admitted : ∀ n, G.admits (label n) (cfg n)

variable {init : M.State} {G : Guard M}

/-- The shared state at a moment. -/
def Run.at (ρ : Run M init G) (n : Nat) : M.State :=
  (ρ.cfg n).shared

/-- What thread `t` still has to do at a moment. -/
def Run.thread (ρ : Run M init G) (n t : Nat) : Option (Prog S α) :=
  (ρ.cfg n).pool[t]?

/-- Thread `t` performs `o` at moment `n` and is answered `r`. -/
def Run.Performs (ρ : Run M init G) (n t : Nat) (o : S.Op) (r : S.Res o) : Prop :=
  ∃ x k new, ρ.label n = .thread t x ∧ ρ.thread n t = some (.act o k) ∧
    M.exec o x (ρ.at n) = some (r, ρ.at (n + 1), new)

theorem Run.at_zero (ρ : Run M init G) : ρ.at 0 = init := by
  show (ρ.cfg 0).shared = init
  rw [ρ.start]

/-! ## What one step can do -/

/-- The shape of a thread's step. -/
structure ThreadStep (M : Machine S α) (G : Guard M) (t : Nat) (x : M.Choice)
    (c c' : Config M) where
  op : S.Op
  cont : S.Res op → Prog S α
  res : S.Res op
  new : List (Prog S α)
  here : c.pool[t]? = some (.act op cont)
  permitted : G.op op x c.shared
  fires : M.exec op x c.shared = some (res, c'.shared, new)
  pool_eq : c'.pool = c.pool.set t (cont res) ++ new

/-- A thread label always performs exactly one operation of that thread. -/
theorem step_thread {t : Nat} {x : M.Choice} {c c' : Config M}
    (h : step (.thread t x) c = some c') (ok : G.admits (.thread t x) c) :
    Nonempty (ThreadStep M G t x c c') := by
  simp only [step] at h
  cases hp : c.pool[t]? with
  | none =>
      rw [hp] at h
      exact nomatch h
  | some p =>
      rw [hp] at h
      cases p with
      | ret a => exact nomatch h
      | act o k =>
          cases he : M.exec o x c.shared with
          | none =>
              simp only [he] at h
              exact nomatch h
          | some out =>
              obtain ⟨r, s, new⟩ := out
              simp only [he] at h
              have hc := Option.some.inj h
              subst hc
              exact ⟨⟨o, k, r, new, hp, ok o k hp, he, rfl⟩⟩

/-- Everything a moment of a run can be. -/
theorem Run.step_cases (ρ : Run M init G) (n : Nat) :
    (∃ t x, ρ.label n = .thread t x ∧
        Nonempty (ThreadStep M G t x (ρ.cfg n) (ρ.cfg (n + 1)))) ∨
    (∃ e, ρ.label n = .env e ∧ G.env e (ρ.at n) ∧
        M.move e (ρ.at n) = some (ρ.at (n + 1)) ∧
        (ρ.cfg (n + 1)).pool = (ρ.cfg n).pool) ∨
    (∃ t j, ρ.label n = .spawn t j ∧ t = (ρ.cfg n).pool.length ∧
        ρ.at (n + 1) = ρ.at n ∧
        (ρ.cfg (n + 1)).pool = (ρ.cfg n).pool ++ [M.body j]) ∨
    (ρ.label n = .idle ∧ ρ.cfg (n + 1) = ρ.cfg n) := by
  have hn := ρ.next n
  have hok := ρ.admitted n
  -- the label says which kind of step it is; the others do not fire
  cases hl : ρ.label n with
  | thread t x =>
      rw [hl] at hn hok
      exact Or.inl ⟨t, x, rfl, step_thread hn hok⟩
  | env e =>
      rw [hl] at hn hok
      simp only [step] at hn
      cases hm : M.move e (ρ.cfg n).shared with
      | none =>
          rw [hm] at hn
          exact nomatch hn
      | some s =>
          rw [hm] at hn
          have hc := Option.some.inj hn
          refine Or.inr (Or.inl ⟨e, rfl, hok, ?_, ?_⟩)
          · show M.move e (ρ.cfg n).shared = some (ρ.cfg (n + 1)).shared
            rw [hm, ← hc]
          · rw [← hc]
  | spawn t j =>
      rw [hl] at hn
      simp only [step] at hn
      by_cases ht : t = (ρ.cfg n).pool.length
      · rw [if_pos ht] at hn
        have hc := Option.some.inj hn
        refine Or.inr (Or.inr (Or.inl ⟨t, j, rfl, ht, ?_, ?_⟩))
        · show (ρ.cfg (n + 1)).shared = (ρ.cfg n).shared
          rw [← hc]
        · rw [← hc]
      · rw [if_neg ht] at hn
        exact nomatch hn
  | idle =>
      rw [hl] at hn
      exact Or.inr (Or.inr (Or.inr ⟨rfl, (Option.some.inj hn).symm⟩))

/-! ## Rules that do not look at programs -/

/-- A relation every operation and every move respects links any two consecutive
    moments. -/
theorem Run.step_rel (ρ : Run M init G) {R : M.State → M.State → Prop} (n : Nat)
    (hrefl : ∀ s, R s s)
    (hop : ∀ o x r s' new, G.op o x (ρ.at n) →
      M.exec o x (ρ.at n) = some (r, s', new) → R (ρ.at n) s')
    (henv : ∀ e s', G.env e (ρ.at n) → M.move e (ρ.at n) = some s' →
      R (ρ.at n) s') :
    R (ρ.at n) (ρ.at (n + 1)) := by
  rcases ρ.step_cases n with ⟨t, x, -, ⟨w⟩⟩ | ⟨e, -, hg, hm, -⟩ |
    ⟨t, j, -, -, hs, -⟩ | ⟨-, hc⟩
  · exact hop w.op x w.res _ w.new w.permitted w.fires
  · exact henv e _ hg hm
  · rw [hs]; exact hrefl _
  · show R (ρ.cfg n).shared (ρ.cfg (n + 1)).shared
    rw [hc]; exact hrefl _

/-- **INVARIANT RULE**: what holds initially and survives every operation and
    every environment move holds at every moment. -/
theorem Run.invariant (ρ : Run M init G) {P : M.State → Prop} (h0 : P init)
    (hop : ∀ o x s r s' new, P s → G.op o x s →
      M.exec o x s = some (r, s', new) → P s')
    (henv : ∀ e s s', P s → G.env e s → M.move e s = some s' → P s') :
    ∀ n, P (ρ.at n) := by
  intro n
  induction n with
  | zero => rw [ρ.at_zero]; exact h0
  | succ n ih =>
      have hstep : P (ρ.at n) → P (ρ.at (n + 1)) :=
        ρ.step_rel (R := fun s s' => P s → P s') n (fun _ h => h)
          (fun o x r s' new hg he hP => hop o x _ r s' new hP hg he)
          (fun e s' hg hm hP => henv e _ s' hP hg hm)
      exact hstep ih

/-- **RELATION RULE**: a reflexive, transitive relation that every single moment
    respects links any earlier moment to any later one. -/
theorem Run.related (ρ : Run M init G) {R : M.State → M.State → Prop}
    (hrefl : ∀ s, R s s) (htrans : ∀ {a b c}, R a b → R b c → R a c)
    (hstep : ∀ n, R (ρ.at n) (ρ.at (n + 1))) :
    ∀ {i j}, i ≤ j → R (ρ.at i) (ρ.at j) := by
  intro i j hij
  induction j, hij using Nat.le_induction with
  | base => exact hrefl _
  | succ j _ ih => exact htrans ih (hstep j)

/-! ## Checking a program against a run -/

/-- From moment `n` on, program `p` keeps its promises: whenever it acts, at a
    moment where `A` holds, the operation's precondition is met, and whatever the
    answer is the rest keeps its promises too; if it returns, `post` holds. -/
def Wp (ρ : Run M init G) (A : Nat → Prop) (Pre : S.Op → Nat → Prop) :
    Prog S β → (β → Nat → Prop) → Nat → Prop
  | .ret b, post, n => post b n
  | .act o k, post, n => ∀ m, n ≤ m → A m → Pre o m ∧
      ∀ x r new, G.op o x (ρ.at m) →
        M.exec o x (ρ.at m) = some (r, ρ.at (m + 1), new) →
        Wp ρ A Pre (k r) post (m + 1)

/-- A postcondition that stays true once it is true. -/
def Stable (post : β → Nat → Prop) : Prop :=
  ∀ b n m, n ≤ m → post b n → post b m

variable {ρ : Run M init G} {A : Nat → Prop} {Pre : S.Op → Nat → Prop}

/-- Waiting does not break a promise. -/
theorem Wp.later {post : β → Nat → Prop} (hs : Stable post) {p : Prog S β} {n m : Nat}
    (h : Wp ρ A Pre p post n) (hnm : n ≤ m) : Wp ρ A Pre p post m := by
  cases p with
  | ret b => exact hs b n m hnm h
  | act o k =>
      intro m' hm'
      exact h m' (Nat.le_trans hnm hm')

/-- The postcondition may be weakened, at the moment the program returns. -/
theorem Wp.weaken {post post' : β → Nat → Prop} {p : Prog S β} {n : Nat}
    (h : Wp ρ A Pre p post n) (hpost : ∀ b m, n ≤ m → post b m → post' b m) :
    Wp ρ A Pre p post' n := by
  induction p generalizing n with
  | ret b => exact hpost b n (Nat.le_refl n) h
  | act o k ih =>
      intro m hm hA
      obtain ⟨hpre, hk⟩ := h m hm hA
      refine ⟨hpre, ?_⟩
      intro x r new hg he
      refine ih r (hk x r new hg he) ?_
      intro b m' hm' hb
      exact hpost b m' (by omega) hb

/-- **SEQUENCING RULE**: check the first program, with the check of the rest as
    its postcondition. -/
theorem Wp.bind {post : γ → Nat → Prop} {p : Prog S β} {f : β → Prog S γ} {n : Nat}
    (h : Wp ρ A Pre p (fun b m => Wp ρ A Pre (f b) post m) n) :
    Wp ρ A Pre (p >>= f) post n := by
  induction p generalizing n with
  | ret b => exact h
  | act o k ih =>
      intro m hm hA
      obtain ⟨hpre, hk⟩ := h m hm hA
      refine ⟨hpre, ?_⟩
      intro x r new hg he
      exact ih r (hk x r new hg he)

theorem Wp.perform {post : γ → Nat → Prop} {o : S.Op} {f : S.Res o → Prog S γ} {n : Nat}
    (h : ∀ m, n ≤ m → A m → Pre o m ∧
      ∀ x r new, G.op o x (ρ.at m) →
        M.exec o x (ρ.at m) = some (r, ρ.at (m + 1), new) →
        Wp ρ A Pre (f r) post (m + 1)) :
    Wp ρ A Pre (Prog.perform o >>= f) post n := h

theorem Wp.ret {post : β → Nat → Prop} {b : β} {n : Nat} (h : post b n) :
    Wp ρ A Pre (pure b : Prog S β) post n := h

/-- **THREAD RULE**: an invariant that every operation preserves under its
    precondition, together with a check of every job and every program an
    operation leaves behind, holds at every moment, and every thread keeps its
    promises. -/
theorem Run.threads_wp (ρ : Run M init G) (h0 : A 0)
    (hidle : ∀ n, A n → ρ.at (n + 1) = ρ.at n → A (n + 1))
    (henv : ∀ n e, A n → G.env e (ρ.at n) → M.move e (ρ.at n) = some (ρ.at (n + 1)) →
      A (n + 1))
    (hop : ∀ n o x r new, A n → Pre o n → G.op o x (ρ.at n) →
      M.exec o x (ρ.at n) = some (r, ρ.at (n + 1), new) →
      A (n + 1) ∧ ∀ p ∈ new, Wp ρ A Pre p (fun _ _ => True) (n + 1))
    (hjob : ∀ j n, Wp ρ A Pre (M.body j) (fun _ _ => True) n) :
    ∀ n, A n ∧ ∀ p ∈ (ρ.cfg n).pool, Wp ρ A Pre p (fun _ _ => True) n := by
  have hstable : Stable (fun (_ : α) (_ : Nat) => True) := fun _ _ _ _ _ => trivial
  intro n
  induction n with
  | zero =>
      refine ⟨h0, ?_⟩
      intro p hp
      rw [ρ.start] at hp
      exact nomatch hp
  | succ n ih =>
      obtain ⟨hA, hpool⟩ := ih
      rcases ρ.step_cases n with ⟨t, x, -, ⟨w⟩⟩ | ⟨e, -, hg, hm, hpe⟩ |
        ⟨t, j, -, -, hs, hpe⟩ | ⟨-, hc⟩
      · -- thread `t` acts: its own promise supplies the precondition
        obtain ⟨hpre, hk⟩ := hpool _ (List.mem_of_getElem? w.here) n (Nat.le_refl n) hA
        obtain ⟨hA', hnew⟩ := hop n w.op x w.res w.new hA hpre w.permitted w.fires
        refine ⟨hA', ?_⟩
        intro p hp
        rw [w.pool_eq] at hp
        rcases List.mem_append.mp hp with hset | hsp
        · rcases List.mem_or_eq_of_mem_set hset with hold | heq
          · exact (hpool p hold).later hstable (Nat.le_succ n)
          · rw [heq]
            exact hk x w.res w.new w.permitted w.fires
        · exact hnew p hsp
      · refine ⟨henv n e hA hg hm, ?_⟩
        intro p hp
        rw [hpe] at hp
        exact (hpool p hp).later hstable (Nat.le_succ n)
      · refine ⟨hidle n hA hs, ?_⟩
        intro p hp
        rw [hpe] at hp
        rcases List.mem_append.mp hp with hold | hnew
        · exact (hpool p hold).later hstable (Nat.le_succ n)
        · rw [List.mem_singleton.mp hnew]
          exact hjob j (n + 1)
      · refine ⟨hidle n hA (congrArg Config.shared hc), ?_⟩
        intro p hp
        rw [hc] at hp
        exact (hpool p hp).later hstable (Nat.le_succ n)

/-- A thread stays where it is while others act; when it acts it performs the
    operation it was at and goes on with the answer. -/
theorem Run.thread_succ (ρ : Run M init G) {n t : Nat} {p : Prog S α}
    (hp : ρ.thread n t = some p) :
    (ρ.thread (n + 1) t = some p ∧ ∀ x, ρ.label n ≠ .thread t x) ∨
    ∃ x, ρ.label n = .thread t x ∧ ∃ w : ThreadStep M G t x (ρ.cfg n) (ρ.cfg (n + 1)),
      p = .act w.op w.cont ∧ ρ.thread (n + 1) t = some (w.cont w.res) := by
  have hlt : t < (ρ.cfg n).pool.length := (List.getElem?_eq_some_iff.mp hp).1
  rcases ρ.step_cases n with ⟨t', x, hl, ⟨w⟩⟩ | ⟨e, hl, -, -, hpe⟩ |
    ⟨t', j, hl, -, -, hpe⟩ | ⟨hl, hc⟩
  · by_cases htt : t' = t
    · subst htt
      refine Or.inr ⟨x, hl, w, Option.some.inj (hp.symm.trans w.here), ?_⟩
      show (ρ.cfg (n + 1)).pool[t']? = some (w.cont w.res)
      rw [w.pool_eq, List.getElem?_append_left (by rw [List.length_set]; exact hlt),
        List.getElem?_set_self hlt]
    · refine Or.inl ⟨?_, ?_⟩
      · show (ρ.cfg (n + 1)).pool[t]? = some p
        rw [w.pool_eq, List.getElem?_append_left (by rw [List.length_set]; exact hlt),
          List.getElem?_set_ne htt]
        exact hp
      · intro y hy
        rw [hl] at hy
        injection hy with hsame _
        exact htt hsame
  · refine Or.inl ⟨?_, fun y hy => (nomatch hl.symm.trans hy)⟩
    show (ρ.cfg (n + 1)).pool[t]? = some p
    rw [hpe]
    exact hp
  · refine Or.inl ⟨?_, fun y hy => (nomatch hl.symm.trans hy)⟩
    show (ρ.cfg (n + 1)).pool[t]? = some p
    rw [hpe, List.getElem?_append_left hlt]
    exact hp
  · refine Or.inl ⟨?_, fun y hy => (nomatch hl.symm.trans hy)⟩
    show (ρ.cfg (n + 1)).pool[t]? = some p
    rw [hc]
    exact hp

/-- Threads never disappear. -/
theorem Run.pool_length_mono (ρ : Run M init G) {i j : Nat} (hij : i ≤ j) :
    (ρ.cfg i).pool.length ≤ (ρ.cfg j).pool.length := by
  induction j, hij using Nat.le_induction with
  | base => exact Nat.le_refl _
  | succ n _ ih =>
      refine Nat.le_trans ih ?_
      rcases ρ.step_cases n with ⟨t, x, -, ⟨w⟩⟩ | ⟨e, -, -, -, hpe⟩ |
        ⟨t, j, -, -, -, hpe⟩ | ⟨-, hc⟩
      · rw [w.pool_eq, List.length_append, List.length_set]
        exact Nat.le_add_right _ _
      · exact Nat.le_of_eq (congrArg List.length hpe.symm)
      · rw [hpe, List.length_append]
        exact Nat.le_add_right _ _
      · exact Nat.le_of_eq (congrArg (fun c => c.pool.length) hc.symm)

/-- A job starts with its whole program, as the last thread. -/
theorem Run.thread_spawned (ρ : Run M init G) {i t : Nat} {job : M.Job}
    (hcall : ρ.label i = .spawn t job) :
    t = (ρ.cfg i).pool.length ∧ ρ.thread (i + 1) t = some (M.body job) := by
  rcases ρ.step_cases i with ⟨t', x, hl, -⟩ | ⟨e, hl, -⟩ |
    ⟨t', j', hl, ht, -, hpe⟩ | ⟨hl, -⟩
  · rw [hl] at hcall; exact nomatch hcall
  · rw [hl] at hcall; exact nomatch hcall
  · rw [hl] at hcall
    injection hcall with h1 h2
    refine ⟨h1 ▸ ht, ?_⟩
    show (ρ.cfg (i + 1)).pool[t]? = some (M.body job)
    rw [hpe, ← h1, ht, h2, List.getElem?_concat_length]
  · rw [hl] at hcall; exact nomatch hcall

/-- The thread that comes next at `i` exists only later. -/
theorem Run.lt_of_thread (ρ : Run M init G) {i j t : Nat} {p : Prog S α}
    (ht : t = (ρ.cfg i).pool.length) (hp : ρ.thread j t = some p) : i < j := by
  by_contra hij
  have hlen := ρ.pool_length_mono (Nat.le_of_not_lt hij)
  have hlt : t < (ρ.cfg j).pool.length := (List.getElem?_eq_some_iff.mp hp).1
  omega

/-- **RETURN RULE**: a job checked from its start keeps the promise it was checked
    for; in particular its postcondition holds once it has returned. -/
theorem Run.returns_wp (ρ : Run M init G) (hA : ∀ n, A n) {post : α → Nat → Prop}
    (hs : Stable post) {i t : Nat} {job : M.Job} (hcall : ρ.label i = .spawn t job)
    (hjob : Wp ρ A Pre (M.body job) post (i + 1)) :
    ∀ {j : Nat} {p : Prog S α}, ρ.thread j t = some p → Wp ρ A Pre p post j := by
  -- induction on time, starting from the moment after the call
  have key : ∀ j, i + 1 ≤ j → ∃ q, ρ.thread j t = some q ∧ Wp ρ A Pre q post j := by
    intro j hij
    induction j, hij using Nat.le_induction with
    | base => exact ⟨M.body job, (ρ.thread_spawned hcall).2, hjob⟩
    | succ n _ ih =>
        obtain ⟨q, hq, hwp⟩ := ih
        rcases ρ.thread_succ hq with ⟨hstay, -⟩ | ⟨x, -, w, rfl, hnext⟩
        · exact ⟨q, hstay, hwp.later hs (Nat.le_succ n)⟩
        · obtain ⟨-, hk⟩ := hwp n (Nat.le_refl n) (hA n)
          exact ⟨w.cont w.res, hnext, hk x w.res w.new w.permitted w.fires⟩
  intro j p hp
  obtain ⟨q, hq, hwp⟩ := key j (ρ.lt_of_thread (ρ.thread_spawned hcall).1 hp)
  rw [Option.some.inj (hp.symm.trans hq)]
  exact hwp

/-! ## Finite schedules

    A finite list of decisions that can be carried out is the beginning of a run
    which idles afterwards, so nothing is lost by speaking about runs only. -/

/-- Carry out a list of scheduling decisions. -/
def after (c : Config M) : List (Label M) → Option (Config M)
  | [] => some c
  | l :: ls =>
      match step l c with
      | some c' => after c' ls
      | none => none

/-- The guard lets every decision of the list through. -/
def Guard.admitsAll (G : Guard M) (c : Config M) : List (Label M) → Prop
  | [] => True
  | l :: ls => G.admits l c ∧ ∀ c', step l c = some c' → G.admitsAll c' ls

theorem Guard.any_admits (l : Label M) (c : Config M) : (Guard.any M).admits l c := by
  cases l with
  | thread t x => intro o k _; trivial
  | env | spawn | idle => trivial

theorem Guard.any_admitsAll (ls : List (Label M)) (c : Config M) :
    (Guard.any M).admitsAll c ls := by
  induction ls generalizing c with
  | nil => trivial
  | cons l ls ih => exact ⟨Guard.any_admits l c, fun c' _ => ih c'⟩

/-- Run a test on every decision of a schedule, in the configuration it is made in. -/
def checkAll (test : Label M → Config M → Bool) (c : Config M) : List (Label M) → Bool
  | [] => true
  | l :: ls =>
      test l c &&
        match step l c with
        | some c' => checkAll test c' ls
        | none => true

/-- A schedule that passes a sound test is let through. -/
theorem Guard.admitsAll_of_check {G : Guard M} {test : Label M → Config M → Bool}
    (htest : ∀ l c, test l c = true → G.admits l c) {ls : List (Label M)} {c : Config M}
    (h : checkAll test c ls = true) : G.admitsAll c ls := by
  induction ls generalizing c with
  | nil => trivial
  | cons l ls ih =>
      simp only [checkAll, Bool.and_eq_true] at h
      refine ⟨htest l c h.1, ?_⟩
      intro c' hs
      have hrest := h.2
      simp only [hs] at hrest
      exact ih hrest

/-- The configuration after `k` decisions, idling once the list is used up. -/
private def play (c : Config M) : List (Label M) → Nat → Config M
  | _, 0 => c
  | [], _ + 1 => c
  | l :: ls, k + 1 =>
      match step l c with
      | some c' => play c' ls k
      | none => c

private theorem play_next (G : Guard M) :
    ∀ (ls : List (Label M)) (c : Config M), (after c ls).isSome → G.admitsAll c ls →
      ∀ k, step (ls[k]?.getD .idle) (play c ls k) = some (play c ls (k + 1)) ∧
        G.admits (ls[k]?.getD .idle) (play c ls k) := by
  intro ls
  induction ls with
  | nil =>
      intro c _ _ k
      cases k with
      | zero | succ => exact ⟨rfl, trivial⟩
  | cons l ls ih =>
      intro c hsome hok k
      simp only [after] at hsome
      cases hs : step l c with
      | none => rw [hs] at hsome; exact nomatch hsome
      | some c' =>
          rw [hs] at hsome
          -- after the first label the rest is played from the next configuration
          have hplay : ∀ k, play c (l :: ls) (k + 1) = play c' ls k := by
            intro k
            show (match step l c with | some c' => play c' ls k | none => c) = play c' ls k
            rw [hs]
          cases k with
          | zero =>
              rw [hplay]
              cases ls with
              | nil | cons => exact ⟨hs, hok.1⟩
          | succ k =>
              rw [hplay, hplay]
              exact ih c' hsome (hok.2 c' hs) k

private theorem after_take_eq_play :
    ∀ (ls : List (Label M)) (c : Config M), (after c ls).isSome →
      ∀ k, k ≤ ls.length → after c (ls.take k) = some (play c ls k) := by
  intro ls
  induction ls with
  | nil =>
      intro c _ k hk
      have hk0 : k = 0 := Nat.le_zero.mp hk
      subst hk0
      rfl
  | cons l ls ih =>
      intro c hsome k hk
      simp only [after] at hsome
      cases hs : step l c with
      | none => rw [hs] at hsome; exact nomatch hsome
      | some c' =>
          rw [hs] at hsome
          cases k with
          | zero => rfl
          | succ k =>
              show (match step l c with | some c' => after c' (ls.take k) | none => none)
                = some (match step l c with | some c' => play c' ls k | none => c)
              rw [hs]
              exact ih c' hsome k (Nat.le_of_succ_le_succ hk)

/-- The configuration a schedule leads to. -/
def played (init : M.State) (ls : List (Label M)) : Config M :=
  (after ⟨init, []⟩ ls).getD ⟨init, []⟩

/-- Every schedule that can be carried out is the beginning of a run. -/
theorem exists_run {init : M.State} {G : Guard M} {ls : List (Label M)}
    (hsome : (after ⟨init, []⟩ ls).isSome) (hok : G.admitsAll ⟨init, []⟩ ls) :
    ∃ ρ : Run M init G, (∀ k l, ls[k]? = some l → ρ.label k = l) ∧
      ∀ k, k ≤ ls.length → ρ.cfg k = played init (ls.take k) := by
  refine ⟨⟨fun k => ls[k]?.getD .idle, play ⟨init, []⟩ ls, ?_, ?_, ?_⟩, ?_, ?_⟩
  · cases ls with
    | nil | cons => rfl
  · intro n; exact (play_next G ls _ hsome hok n).1
  · intro n; exact (play_next G ls _ hsome hok n).2
  · intro k l hl
    show ls[k]?.getD .idle = l
    rw [hl]; rfl
  · intro k hk
    show play ⟨init, []⟩ ls k = (after ⟨init, []⟩ (ls.take k)).getD ⟨init, []⟩
    rw [after_take_eq_play ls _ hsome k hk]
    rfl

/-- An operation that a schedule makes a thread perform. -/
theorem Run.performs_of_played {ρ : Run M init G} {n t : Nat} {x : M.Choice} {o : S.Op}
    {k : S.Res o → Prog S α} {r : S.Res o} {new : List (Prog S α)} {c c' : Config M}
    (hl : ρ.label n = .thread t x) (hc : ρ.cfg n = c) (hc' : ρ.cfg (n + 1) = c')
    (hp : c.pool[t]? = some (.act o k)) (he : M.exec o x c.shared = some (r, c'.shared, new)) :
    ρ.Performs n t o r := by
  subst hc hc'
  exact ⟨x, k, new, hl, hp, he⟩

end Interleaving
