import Mathlib.Data.List.Basic
import Mathlib.Data.List.Nodup
import Mathlib.Order.Interval.Finset.Nat

/-! # Histories and recency

    Past-time notions over a sequence of events, and the order that uses put on keys.

    * **`Since`** — something happened and nothing has ended it since; `since_succ` is
      its recursion over the last event.
    * **`countBetween`** — how many events between two moments are of a kind.
    * **`Latest`** — the last use of a key.
    * **`Recent`** — a list of keys in which every key was used later than the keys
      behind it.  A use that moves its key to the front keeps the list recent
      (`Recent.touch`), and so does leaving keys out (`Recent.sublist`). -/

namespace Recency

/-! ## Since -/

/-- Before `n`, `began` happened, and `held` was true at every event after it. -/
def Since (began held : Nat → Prop) (n : Nat) : Prop :=
  ∃ i, i < n ∧ began i ∧ ∀ j, i < j → j < n → held j

theorem not_since_zero (began held : Nat → Prop) : ¬ Since began held 0 := by
  rintro ⟨i, hi, -⟩
  exact Nat.not_lt_zero i hi

/-- The last event began it, or kept what had begun before. -/
theorem since_succ {began held : Nat → Prop} {n : Nat} :
    Since began held (n + 1) ↔ began n ∨ (held n ∧ Since began held n) := by
  constructor
  · rintro ⟨i, hi, hbegan, hheld⟩
    rcases Nat.lt_succ_iff_lt_or_eq.mp hi with hlt | rfl
    · refine .inr ⟨hheld n hlt (Nat.lt_succ_self n), i, hlt, hbegan, ?_⟩
      intro j hij hjn
      exact hheld j hij (Nat.lt_succ_of_lt hjn)
    · exact .inl hbegan
  · rintro (hbegan | ⟨hlast, i, hi, hbegan, hheld⟩)
    · refine ⟨n, Nat.lt_succ_self n, hbegan, ?_⟩
      intro j hnj hj
      exact absurd hnj (Nat.not_lt.mpr (Nat.le_of_lt_succ hj))
    · refine ⟨i, Nat.lt_succ_of_lt hi, hbegan, ?_⟩
      intro j hij hj
      rcases Nat.lt_succ_iff_lt_or_eq.mp hj with hlt | rfl
      · exact hheld j hij hlt
      · exact hlast

/-! ## Counting -/

open Classical in
/-- The number of events from `m` on and before `n` that are in `P`. -/
noncomputable def countBetween (P : Nat → Prop) (m n : Nat) : Nat :=
  ((Finset.Ico m n).filter P).card

section
variable {P Q : Nat → Prop} {m n : Nat}

theorem countBetween_self (P : Nat → Prop) (m : Nat) : countBetween P m m = 0 := by
  rw [countBetween, Finset.Ico_self, Finset.filter_empty, Finset.card_empty]

theorem countBetween_succ_of_pos (hmn : m ≤ n) (h : P n) :
    countBetween P m (n + 1) = countBetween P m n + 1 := by
  classical
  rw [countBetween, countBetween, Nat.Ico_succ_right_eq_insert_Ico hmn, Finset.filter_insert,
    if_pos h, Finset.card_insert_of_notMem]
  intro hmem
  exact absurd (Finset.mem_Ico.mp (Finset.mem_filter.mp hmem).1).2 (Nat.lt_irrefl n)

theorem countBetween_succ_of_neg (hmn : m ≤ n) (h : ¬ P n) :
    countBetween P m (n + 1) = countBetween P m n := by
  rw [countBetween, countBetween, Nat.Ico_succ_right_eq_insert_Ico hmn, Finset.filter_insert,
    if_neg h]

/-- Counting less, moment by moment, gives less. -/
theorem countBetween_le (h : ∀ i, P i → Q i) (m n : Nat) :
    countBetween P m n ≤ countBetween Q m n := by
  classical
  refine Finset.card_le_card (fun i hi => ?_)
  rw [Finset.mem_filter] at hi ⊢
  exact ⟨hi.1, h i hi.2⟩

end

/-! ## The last use of a key -/

variable {K : Type} {uses : Nat → K → Prop} {n i : Nat} {k : K}

/-- The last use of `k` before `n` is event `i`. -/
def Latest (uses : Nat → K → Prop) (n : Nat) (k : K) (i : Nat) : Prop :=
  i < n ∧ uses i k ∧ ∀ j, i < j → j < n → ¬ uses j k

theorem latest_self (h : uses n k) : Latest uses (n + 1) k n := by
  refine ⟨Nat.lt_succ_self n, h, ?_⟩
  intro j hnj hj
  exact absurd hnj (Nat.not_lt.mpr (Nat.le_of_lt_succ hj))

theorem Latest.succ (h : Latest uses n k i) (hnot : ¬ uses n k) : Latest uses (n + 1) k i := by
  obtain ⟨hi, huse, hlast⟩ := h
  refine ⟨Nat.lt_succ_of_lt hi, huse, ?_⟩
  intro j hij hj
  rcases Nat.lt_succ_iff_lt_or_eq.mp hj with hlt | rfl
  · exact hlast j hij hlt
  · exact hnot

/-! ## Recency lists -/

/-- `a` was used after the last use of `b`. -/
def UsedLater (uses : Nat → K → Prop) (n : Nat) (a b : K) : Prop :=
  ∃ i j, Latest uses n a i ∧ Latest uses n b j ∧ j < i

/-- The keys have all been used, the earlier in the list the later. -/
structure Recent (uses : Nat → K → Prop) (n : Nat) (keys : List K) : Prop where
  used : ∀ k ∈ keys, ∃ i, Latest uses n k i
  ordered : keys.Pairwise (UsedLater uses n)

theorem recent_nil (uses : Nat → K → Prop) (n : Nat) : Recent uses n [] :=
  ⟨fun _ h => (nomatch h), List.Pairwise.nil⟩

/-- Removals, and so eviction and expiry, keep the order. -/
theorem Recent.sublist {keys keys' : List K} (h : Recent uses n keys) (hsub : keys'.Sublist keys) :
    Recent uses n keys' :=
  ⟨fun k hk => h.used k (hsub.subset hk), h.ordered.sublist hsub⟩

/-- An event that uses none of the keys leaves their order. -/
theorem Recent.succ {keys : List K} (h : Recent uses n keys) (hnot : ∀ k ∈ keys, ¬ uses n k) :
    Recent uses (n + 1) keys := by
  refine ⟨?_, ?_⟩
  · intro k hk
    obtain ⟨i, hi⟩ := h.used k hk
    exact ⟨i, hi.succ (hnot k hk)⟩
  · refine h.ordered.imp_of_mem ?_
    rintro a b ha hb ⟨i, j, hi, hj, hlt⟩
    exact ⟨i, j, hi.succ (hnot a ha), hj.succ (hnot b hb), hlt⟩

/-- A use puts its key in front of the others. -/
theorem Recent.touch {keys : List K} (h : Recent uses n keys) (huse : uses n k)
    (hnot : ∀ k' ∈ keys, ¬ uses n k') : Recent uses (n + 1) (k :: keys) := by
  have hrest := h.succ hnot
  refine ⟨?_, List.pairwise_cons.mpr ⟨?_, hrest.ordered⟩⟩
  · intro k' hk'
    rcases List.mem_cons.mp hk' with rfl | hk'
    · exact ⟨n, latest_self huse⟩
    · exact hrest.used k' hk'
  · intro b hb
    obtain ⟨j, hj⟩ := h.used b hb
    exact ⟨n, j, latest_self huse, hj.succ (hnot b hb), hj.1⟩

/-- The last key of a recency list has the oldest use. -/
theorem Recent.last {front : List K} (h : Recent uses n (front ++ [k])) :
    ∃ i, Latest uses n k i ∧ ∀ k' ∈ front, ∃ j, Latest uses n k' j ∧ i < j := by
  obtain ⟨i, hi⟩ := h.used k (by simp)
  refine ⟨i, hi, ?_⟩
  intro k' hk'
  obtain ⟨j, i', hj, hi', hlt⟩ :=
    (List.pairwise_append.mp h.ordered).2.2 k' hk' k (List.mem_singleton.mpr rfl)
  -- a key has one last use
  have hsame : i' = i := by
    rcases Nat.lt_trichotomy i i' with hlt | heq | hgt
    · exact absurd hi'.2.1 (hi.2.2 i' hlt hi'.1)
    · exact heq.symm
    · exact absurd hi.2.1 (hi'.2.2 i hgt hi.1)
  exact ⟨j, hj, hsame ▸ hlt⟩

end Recency
