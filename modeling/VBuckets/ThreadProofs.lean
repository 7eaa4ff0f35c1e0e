import VBuckets.InterleavingProofs

/-! # Threads of a run

    What a run makes of one thread, and what follows from the shape of its program.

    * **`Run.threads_induction`** — facts about every thread that mention its number and
      the moment, from what a thread starts with and what one step changes.
    * **`countP_pool`** — how an operation changes the number of threads of a kind.
    * **`Exactly`** — a program performs an operation a fixed number of times, whatever it
      is answered; a thread with such a program does so too (`Run.once`).
    * **`Run.Fair`** — a thread that is not left for ever where nothing blocks it acts once
      its operation is free (`Run.Fair.acts`), and returns if all of them are, since a
      program is a tree without infinite branches (`Run.Fair.returns`). -/

namespace Interleaving

variable {S : Sig} {α : Type} {M : Machine S α} {init : M.State} {G : Guard M}

/-! ## One operation -/

section
variable {ρ : Run M init G} {n t t' : Nat} {o : S.Op} {r r' : S.Res o}

theorem Run.performs_of_step {x : M.Choice} (hl : ρ.label n = .thread t x)
    (w : ThreadStep M G t x (ρ.cfg n) (ρ.cfg (n + 1))) : ρ.Performs n t w.op w.res :=
  ⟨x, w.cont, w.new, hl, w.here, w.fires⟩

/-- A thread that is scheduled performs the operation it is at, with the answer the operation
    gives. -/
theorem Run.performs_of_answer {x : M.Choice} {k : S.Res o → Prog S α}
    (hl : ρ.label n = .thread t x) (hk : ρ.thread n t = some (.act o k))
    (hr : (M.exec o x (ρ.at n)).map Prod.fst = some r) : ρ.Performs n t o r := by
  rcases ρ.thread_succ hk with ⟨-, hno⟩ | ⟨y, hy, w, hact, -⟩
  · exact absurd hl (hno x)
  · have hperforms := Run.performs_of_step hy w
    obtain ⟨op, cont, res, new, here, permitted, fires, pool_eq⟩ := w
    injection hact with ho hcont
    subst ho
    obtain rfl : y = x := by
      rw [hl] at hy
      injection hy with _ hx
      exact hx.symm
    have hfires : M.exec o y (ρ.at n) = some (res, (ρ.cfg (n + 1)).shared, new) := fires
    rw [hfires] at hr
    obtain rfl : res = r := Option.some.inj hr
    exact hperforms

/-- Everything an operation leaves: the answer goes to the thread that performed it, and
    new threads come after all others. -/
theorem Run.Performs.pool {k : S.Res o → Prog S α} (h : ρ.Performs n t o r)
    (hk : ρ.thread n t = some (.act o k)) :
    ∃ x new, ρ.label n = .thread t x ∧
      M.exec o x (ρ.at n) = some (r, ρ.at (n + 1), new) ∧
      (ρ.cfg (n + 1)).pool = (ρ.cfg n).pool.set t (k r) ++ new := by
  obtain ⟨x, k', new, hl, hk', he⟩ := h
  obtain rfl : k' = k := by
    have hsame := Option.some.inj (hk'.symm.trans hk)
    injection hsame
  refine ⟨x, new, hl, he, ?_⟩
  have hn := ρ.next n
  rw [hl] at hn
  have hpool : (ρ.cfg n).pool[t]? = some (.act o k') := hk
  simp only [step, hpool] at hn
  have hexec : M.exec o x (ρ.cfg n).shared = some (r, ρ.at (n + 1), new) := he
  simp only [hexec] at hn
  rw [← Option.some.inj hn]

theorem Run.Performs.here (h : ρ.Performs n t o r) : ∃ k, ρ.thread n t = some (.act o k) := by
  obtain ⟨x, k, new, -, hk, -⟩ := h
  exact ⟨k, hk⟩

theorem Run.Performs.next {k : S.Res o → Prog S α} (h : ρ.Performs n t o r)
    (hk : ρ.thread n t = some (.act o k)) : ρ.thread (n + 1) t = some (k r) := by
  obtain ⟨x, new, -, -, hpool⟩ := h.pool hk
  have hlt : t < (ρ.cfg n).pool.length := (List.getElem?_eq_some_iff.mp hk).1
  show (ρ.cfg (n + 1)).pool[t]? = some (k r)
  rw [hpool, List.getElem?_append_left (by rw [List.length_set]; exact hlt),
    List.getElem?_set_self hlt]

/-- One thread acts at a time. -/
theorem Run.Performs.thread_eq {o' : S.Op} {r' : S.Res o'} (h : ρ.Performs n t o r)
    (h' : ρ.Performs n t' o' r') : t = t' := by
  obtain ⟨x, -, -, hl, -⟩ := h
  obtain ⟨x', -, -, hl', -⟩ := h'
  rw [hl] at hl'
  injection hl'

theorem Run.Performs.op_eq {o' : S.Op} {r' : S.Res o'} (h : ρ.Performs n t o r)
    (h' : ρ.Performs n t' o' r') : o = o' := by
  obtain rfl := h.thread_eq h'
  obtain ⟨k, hk⟩ := h.here
  obtain ⟨k', hk'⟩ := h'.here
  have hsame := Option.some.inj (hk.symm.trans hk')
  injection hsame

theorem Run.Performs.res_eq (h : ρ.Performs n t o r) (h' : ρ.Performs n t' o r') : r = r' := by
  obtain ⟨x, _, new, hl, -, he⟩ := h
  obtain ⟨x', _, new', hl', -, he'⟩ := h'
  rw [hl] at hl'
  injection hl' with _ hx
  rw [← hx, he] at he'
  exact congrArg (fun out => out.1) (Option.some.inj he')

end

/-- Where the environment makes no moves of its own, a moment at which no thread acts leaves
    the state and all threads alone; jobs may have started. -/
theorem Run.performs_or_idle (ρ : Run M init G) (henv : M.Env → False) (n : Nat) :
    (∃ t o r, ρ.Performs n t o r) ∨
      ((∀ t o r, ¬ ρ.Performs n t o r) ∧ ρ.at (n + 1) = ρ.at n ∧
        ∃ jobs : List M.Job, (ρ.cfg (n + 1)).pool = (ρ.cfg n).pool ++ jobs.map M.body) := by
  rcases ρ.step_cases n with ⟨t, x, hl, ⟨w⟩⟩ | ⟨e, -⟩ | ⟨t, j, hl, -, hs, hpool⟩ | ⟨hl, hc⟩
  · exact Or.inl ⟨t, w.op, w.res, Run.performs_of_step hl w⟩
  · exact (henv e).elim
  · refine Or.inr ⟨?_, hs, [j], hpool⟩
    rintro t' o r ⟨x, -, -, hl', -⟩
    exact nomatch hl.symm.trans hl'
  · refine Or.inr ⟨?_, congrArg Config.shared hc, [], ?_⟩
    · rintro t' o r ⟨x, -, -, hl', -⟩
      exact nomatch hl.symm.trans hl'
    · rw [hc, List.map_nil, List.append_nil]

/-! ## Facts about every thread -/

/-- **THREAD INDUCTION**: a fact holds of every thread at every moment if every job and
    every program an operation leaves behind starts with it, a thread that acts keeps it,
    and a thread keeps it while others act. -/
theorem Run.threads_induction (ρ : Run M init G) {I : Nat → Nat → Prog S α → Prop}
    (hjob : ∀ n t j, ρ.label n = .spawn t j → I (n + 1) t (M.body j))
    (hact : ∀ n t o k r new x, (∀ t' p, ρ.thread n t' = some p → I n t' p) →
      ρ.Performs n t o r → ρ.thread n t = some (.act o k) →
      M.exec o x (ρ.at n) = some (r, ρ.at (n + 1), new) →
      I (n + 1) t (k r) ∧
        ∀ i q, new[i]? = some q → I (n + 1) ((ρ.cfg n).pool.length + i) q)
    (hstay : ∀ n t p, (∀ t' p, ρ.thread n t' = some p → I n t' p) →
      ρ.thread n t = some p → (∀ x, ρ.label n ≠ .thread t x) → I (n + 1) t p) :
    ∀ n t p, ρ.thread n t = some p → I n t p := by
  intro n
  induction n with
  | zero =>
      intro t p hp
      have hempty : (ρ.cfg 0).pool[t]? = some p := hp
      rw [ρ.start] at hempty
      exact nomatch hempty
  | succ n ih =>
      intro t p hp
      -- the pool only grows: the thread was there before, or it is new
      by_cases hlt : t < (ρ.cfg n).pool.length
      · obtain ⟨q, hq⟩ : ∃ q, ρ.thread n t = some q := ⟨_, List.getElem?_eq_getElem hlt⟩
        rcases ρ.thread_succ hq with ⟨hsame, hl⟩ | ⟨x, hl, w, rfl, hnext⟩
        · rw [Option.some.inj (hp.symm.trans hsame)]
          exact hstay n t q ih hq hl
        · rw [Option.some.inj (hp.symm.trans hnext)]
          exact (hact n t _ _ _ _ x ih (Run.performs_of_step hl w) hq w.fires).1
      · -- a thread that is new at this moment
        have hp' : (ρ.cfg (n + 1)).pool[t]? = some p := hp
        have hge : (ρ.cfg n).pool.length ≤ t := Nat.le_of_not_lt hlt
        rcases ρ.step_cases n with ⟨t', x, hl, ⟨w⟩⟩ | ⟨e, hl, -, -, hpe⟩ |
          ⟨t', j, hl, ht, -, hpe⟩ | ⟨hl, hc⟩
        · rw [w.pool_eq, List.getElem?_append_right (by rw [List.length_set]; exact hge),
            List.length_set] at hp'
          have hnew := (hact n t' _ _ _ _ x ih (Run.performs_of_step hl w) w.here w.fires).2
            _ p hp'
          rw [Nat.add_sub_cancel' hge] at hnew
          exact hnew
        · rw [hpe] at hp'
          exact absurd (List.getElem?_eq_some_iff.mp hp').1 hlt
        · rw [hpe, List.getElem?_append_right hge] at hp'
          have hzero : t - (ρ.cfg n).pool.length = 0 := by
            have := (List.getElem?_eq_some_iff.mp hp').1
            rw [List.length_singleton] at this
            omega
          rw [hzero] at hp'
          obtain rfl : M.body j = p := Option.some.inj hp'
          have hsame : t = t' := by omega
          exact hsame ▸ hjob n t' j hl
        · rw [hc] at hp'
          exact absurd (List.getElem?_eq_some_iff.mp hp').1 hlt

/-- What an operation does to the number of threads of a kind. -/
theorem countP_pool {pool new : List (Prog S α)} {p q : Prog S α} {t : Nat}
    (f : Prog S α → Bool) (hp : pool[t]? = some p) :
    (pool.set t q ++ new).countP f + (f p).toNat =
      pool.countP f + (f q).toNat + new.countP f := by
  induction pool generalizing t with
  | nil => exact nomatch hp
  | cons a pool ih =>
      cases t with
      | zero =>
          obtain rfl : a = p := Option.some.inj hp
          rw [List.set_cons_zero, List.cons_append, List.countP_cons, List.countP_cons,
            List.countP_append]
          cases f a <;> cases f q <;> simp <;> omega
      | succ t =>
          rw [List.set_cons_succ, List.cons_append, List.countP_cons, List.countP_cons]
          have hrest := ih hp
          omega

/-! ## Operations performed exactly once -/

/-- On every path the program performs operations in `P` exactly `c` times. -/
inductive Exactly (P : S.Op → Prop) : Nat → Prog S α → Prop where
  | ret (a : α) : Exactly P 0 (.ret a)
  | hit {c : Nat} {o : S.Op} {k : S.Res o → Prog S α} (ho : P o)
      (hk : ∀ r, Exactly P c (k r)) : Exactly P (c + 1) (.act o k)
  | miss {c : Nat} {o : S.Op} {k : S.Res o → Prog S α} (ho : ¬ P o)
      (hk : ∀ r, Exactly P c (k r)) : Exactly P c (.act o k)

/-- Thread `t` performs an operation in `P` at moment `i`. -/
def Run.Acts (ρ : Run M init G) (t : Nat) (P : S.Op → Prop) (i : Nat) : Prop :=
  ∃ o r, P o ∧ ρ.Performs i t o r

section
variable {ρ : Run M init G} {t n m : Nat} {P : S.Op → Prop} {p : Prog S α}

theorem Exactly.acts_or {c : Nat} (h : Exactly P c p) (hp : ρ.thread n t = some p) :
    (¬ ρ.Acts t P n ∧ ∃ q, ρ.thread (n + 1) t = some q ∧ Exactly P c q) ∨
      (ρ.Acts t P n ∧ ∃ q c', ρ.thread (n + 1) t = some q ∧ Exactly P c' q ∧ c = c' + 1) := by
  rcases ρ.thread_succ hp with ⟨hstay, hl⟩ | ⟨x, hl, w, rfl, hnext⟩
  · refine Or.inl ⟨?_, p, hstay, h⟩
    rintro ⟨o, r, -, y, -, -, hy, -⟩
    exact hl y hy
  · have hperforms := Run.performs_of_step hl w
    cases h with
    | hit ho hk => exact Or.inr ⟨⟨w.op, w.res, ho, hperforms⟩, _, _, hnext, hk w.res, rfl⟩
    | miss ho hk =>
        refine Or.inl ⟨?_, _, hnext, hk w.res⟩
        rintro ⟨o, r, hP, hother⟩
        rw [hother.op_eq hperforms] at hP
        exact ho hP

/-- A thread that has no such operation left performs none. -/
theorem Run.never (h : Exactly P 0 p) (hp : ρ.thread n t = some p) (hnm : n ≤ m) :
    ¬ ρ.Acts t P m := by
  have hkeep : ∃ q, ρ.thread m t = some q ∧ Exactly P 0 q := by
    induction m, hnm using Nat.le_induction with
    | base => exact ⟨p, hp, h⟩
    | succ m _ ih =>
        obtain ⟨q, hq, hex⟩ := ih
        rcases hex.acts_or hq with ⟨-, hnext⟩ | ⟨-, _, _, -, -, hzero⟩
        · exact hnext
        · exact nomatch hzero
  obtain ⟨q, hq, hex⟩ := hkeep
  rcases hex.acts_or hq with ⟨hnot, -⟩ | ⟨-, _, _, -, -, hzero⟩
  · exact hnot
  · exact nomatch hzero

/-- It has happened once, or not yet. -/
theorem Run.once_or (h : Exactly P 1 p) (hp : ρ.thread n t = some p) (hnm : n ≤ m) :
    ∃ q, ρ.thread m t = some q ∧
      ((Exactly P 1 q ∧ ∀ i, n ≤ i → i < m → ¬ ρ.Acts t P i) ∨
        (Exactly P 0 q ∧ ∃ i, n ≤ i ∧ i < m ∧ ρ.Acts t P i ∧
          ∀ j, n ≤ j → ρ.Acts t P j → j = i)) := by
  induction m, hnm using Nat.le_induction with
  | base => exact ⟨p, hp, Or.inl ⟨h, fun i hi hlt => absurd hi (Nat.not_le.mpr hlt)⟩⟩
  | succ m hnm ih =>
      obtain ⟨q, hq, ⟨hone, hnone⟩ | ⟨hzero, i, hni, hlt, hacts, honly⟩⟩ := ih
      · rcases hone.acts_or hq with ⟨hnot, q', hq', hex⟩ | ⟨hacts, q', c', hq', hex, hc⟩
        · refine ⟨q', hq', Or.inl ⟨hex, ?_⟩⟩
          intro i hi hlt
          rcases Nat.lt_succ_iff_lt_or_eq.mp hlt with hlt | rfl
          · exact hnone i hi hlt
          · exact hnot
        · obtain rfl : c' = 0 := by omega
          refine ⟨q', hq', Or.inr ⟨hex, m, hnm, Nat.lt_succ_self m, hacts, ?_⟩⟩
          intro j hj hjacts
          rcases Nat.lt_trichotomy j m with hlt | heq | hgt
          · exact absurd hjacts (hnone j hj hlt)
          · exact heq
          · exact absurd hjacts (Run.never hex hq' hgt)
      · rcases hzero.acts_or hq with ⟨-, q', hq', hex⟩ | ⟨-, _, _, -, -, hbad⟩
        · exact ⟨q', hq', Or.inr ⟨hex, i, hni, Nat.lt_succ_of_lt hlt, hacts, honly⟩⟩
        · exact nomatch hbad

/-- **ONCE**: a thread whose program performs an operation exactly once has done so, at one
    moment, when it has returned. -/
theorem Run.once (h : Exactly P 1 p) (hp : ρ.thread n t = some p) (hnm : n ≤ m) {a : α}
    (hret : ρ.thread m t = some (.ret a)) :
    ∃ i, n ≤ i ∧ i < m ∧ ρ.Acts t P i ∧ ∀ j, n ≤ j → ρ.Acts t P j → j = i := by
  obtain ⟨q, hq, hcases⟩ := Run.once_or h hp hnm
  obtain rfl := Option.some.inj (hret.symm.trans hq)
  rcases hcases with ⟨hone, -⟩ | ⟨-, hdone⟩
  · exact nomatch hone
  · exact hdone

end

/-! ## Fair threads -/

/-- Weak fairness: a thread that stays at an operation for ever is blocked there time and
    again. -/
def Run.Fair (ρ : Run M init G) (t : Nat) : Prop :=
  ∀ n (o : S.Op) (k : S.Res o → Prog S α), (∀ m, n ≤ m → ρ.thread m t = some (.act o k)) →
    ∃ m x, n ≤ m ∧ M.exec o x (ρ.at m) = none

/-- Until it acts, a thread is where it was. -/
theorem Run.next_act {ρ : Run M init G} {t n m : Nat} {p : Prog S α}
    (hp : ρ.thread n t = some p) (hnm : n ≤ m) :
    ρ.thread m t = some p ∨ ∃ i, n ≤ i ∧ i < m ∧ ρ.thread i t = some p ∧
      ∃ x, ρ.label i = .thread t x := by
  induction m, hnm using Nat.le_induction with
  | base => exact Or.inl hp
  | succ m hnm ih =>
      rcases ih with hsame | ⟨i, hni, hlt, hi⟩
      · rcases ρ.thread_succ hsame with ⟨hstay, -⟩ | ⟨x, hl, -⟩
        · exact Or.inl hstay
        · exact Or.inr ⟨m, hnm, Nat.lt_succ_self m, hsame, x, hl⟩
      · exact Or.inr ⟨i, hni, Nat.lt_succ_of_lt hlt, hi⟩

/-- **FREE OPERATIONS ARE PERFORMED**: a fair thread at an operation that is not blocked from
    some moment on is scheduled. -/
theorem Run.Fair.acts {ρ : Run M init G} {t : Nat} (h : ρ.Fair t) {o : S.Op}
    {k : S.Res o → Prog S α} {n : Nat} (hp : ρ.thread n t = some (.act o k)) (n₀ : Nat)
    (hfree : ∀ m, n₀ ≤ m → ρ.thread m t = some (.act o k) → ∀ x, M.exec o x (ρ.at m) ≠ none) :
    ∃ i, n ≤ i ∧ ρ.thread i t = some (.act o k) ∧ ∃ x, ρ.label i = .thread t x := by
  by_contra hnever
  have hstays : ∀ m, n ≤ m → ρ.thread m t = some (.act o k) := by
    intro m hnm
    rcases Run.next_act hp hnm with hsame | ⟨i, hni, -, hi⟩
    · exact hsame
    · exact absurd ⟨i, hni, hi⟩ hnever
  obtain ⟨m, x, hm, hblocked⟩ := h (max n n₀) o k
    (fun m hm => hstays m (Nat.le_trans (Nat.le_max_left _ _) hm))
  exact hfree m (Nat.le_trans (Nat.le_max_right _ _) hm)
    (hstays m (Nat.le_trans (Nat.le_max_left _ _) hm)) x hblocked

/-- **FAIR THREADS RETURN** if nothing blocks them: by induction on the program, one operation
    at a time. -/
theorem Run.Fair.returns {ρ : Run M init G} {t : Nat} (h : ρ.Fair t) {p : Prog S α} {n : Nat}
    (hp : ρ.thread n t = some p)
    (hfree : ∀ m, n ≤ m → ∀ (o : S.Op) (k : S.Res o → Prog S α),
      ρ.thread m t = some (.act o k) → ∀ x, M.exec o x (ρ.at m) ≠ none) :
    ∃ m a, n ≤ m ∧ ρ.thread m t = some (.ret a) := by
  induction p generalizing n with
  | ret a => exact ⟨n, a, Nat.le_refl n, hp⟩
  | act o k ih =>
      obtain ⟨i, hni, hi, x, hl⟩ := h.acts hp n (fun m hnm hm => hfree m hnm o k hm)
      rcases ρ.thread_succ hi with ⟨-, hno⟩ | ⟨y, -, w, hact, hnext⟩
      · exact absurd hl (hno x)
      · obtain ⟨op, cont, res, new, here, permitted, fires, pool_eq⟩ := w
        injection hact with ho hk
        subst ho
        obtain rfl := eq_of_heq hk
        obtain ⟨m, a, him, hret⟩ := ih res hnext (fun m hm => hfree m (by omega))
        exact ⟨m, a, by omega, hret⟩

end Interleaving
