import VBuckets.ByteStringProofs
import Mathlib.Data.List.AList

/-! # Coalesced loads

    `loadGroup` of `controlplane/cache.go`, cut at its critical sections.  Calls are
    numbered in the order they start; a call keeps its record after it is no longer
    joinable, since waiters still hold it. -/

namespace LoadGroup

open ByteString

/-- `loadCall`, with the key it was started for; `closed` is the state of `done`. -/
structure LoadCall (R : Type) where
  key : Bytes
  result : Option R
  closed : Bool

/-- `loadGroup`: `calls` holds the joinable call of each key. -/
structure Loads (R : Type) where
  calls : AList (fun _ : Bytes => Nat)
  table : List (LoadCall R)

variable {R : Type}

/-- No load has been started. -/
def Loads.empty : Loads R := ⟨∅, []⟩

/-- The call a caller of `Do` joins, if there is one. -/
def Loads.join (g : Loads R) (key : Bytes) : Option Nat := g.calls.lookup key

/-- A new call, once it has been admitted. -/
def Loads.start (g : Loads R) (key : Bytes) : Nat × Loads R :=
  (g.table.length,
    { calls := g.calls.insert key g.table.length
      table := g.table ++ [⟨key, none, false⟩] })

/-- The loader has its result and makes the call unjoinable. -/
def Loads.publish (g : Loads R) (call : Nat) (result : R) : Loads R :=
  match g.table[call]? with
  | none => g
  | some c =>
      { calls := if g.calls.lookup c.key = some call then g.calls.erase c.key else g.calls
        table := g.table.set call { c with result := some result } }

/-- `close(call.done)`. -/
def Loads.close (g : Loads R) (call : Nat) : Loads R :=
  match g.table[call]? with
  | none => g
  | some c => { g with table := g.table.set call { c with closed := true } }

/-- What a waiter receives once the call is closed. -/
def Loads.received (g : Loads R) (call : Nat) : Option R :=
  match g.table[call]? with
  | some c => if c.closed then c.result else none
  | none => none

/-! ## Call records

    The key of a call never changes, and its result is the one published for it. -/

/-- Call number `call` was started for `key`. -/
def Loads.StartedFor (g : Loads R) (call : Nat) (key : Bytes) : Prop :=
  ∃ c, g.table[call]? = some c ∧ c.key = key

/-- The joinable call of a key was started for that key. -/
def Loads.WF (g : Loads R) : Prop :=
  ∀ key call, g.calls.lookup key = some call → g.StartedFor call key

/-- Every result is one `P` allows for the key of its call. -/
def Loads.Satisfies (g : Loads R) (P : Bytes → R → Prop) : Prop :=
  ∀ c ∈ g.table, ∀ r, c.result = some r → P c.key r

variable {g : Loads R} {P : Bytes → R → Prop}

theorem Loads.empty_wf : (Loads.empty : Loads R).WF := by
  intro key call h
  exact nomatch h

theorem Loads.empty_satisfies : (Loads.empty : Loads R).Satisfies P := by
  intro c hc
  exact nomatch hc

/-- What a waiter receives is allowed for the key its call was started for. -/
theorem Loads.Satisfies.received (h : g.Satisfies P) {call : Nat} {key : Bytes} {r : R}
    (hs : g.StartedFor call key) (hr : g.received call = some r) : P key r := by
  obtain ⟨c, hc, hk⟩ := hs
  simp only [Loads.received, hc] at hr
  by_cases hcl : c.closed = true
  · rw [if_pos hcl] at hr
    rw [← hk]
    exact h c (List.mem_of_getElem? hc) r hr
  · rw [if_neg hcl] at hr
    exact nomatch hr

theorem Loads.StartedFor.unique {call : Nat} {k k' : Bytes} (h : g.StartedFor call k)
    (h' : g.StartedFor call k') : k = k' := by
  obtain ⟨c, hc, hk⟩ := h
  obtain ⟨c', hc', hk'⟩ := h'
  rw [← hk, ← hk', Option.some.inj (hc.symm.trans hc')]

/-! ### Starting a call -/

/-- A new call is one for the key it was started with, under the next free number. -/
theorem Loads.start_startedFor (g : Loads R) (key : Bytes) :
    (g.start key).2.StartedFor (g.start key).1 key := by
  refine ⟨⟨key, none, false⟩, ?_, rfl⟩
  show (g.table ++ [_])[g.table.length]? = some _
  rw [List.getElem?_concat_length]

theorem Loads.StartedFor.start {key k : Bytes} {call : Nat} (h : g.StartedFor call k) :
    (g.start key).2.StartedFor call k := by
  obtain ⟨c, hc, hk⟩ := h
  have hlt : call < g.table.length := (List.getElem?_eq_some_iff.mp hc).1
  refine ⟨c, ?_, hk⟩
  show (g.table ++ [_])[call]? = some c
  rw [List.getElem?_append_left hlt, hc]

/-- Starting keeps the group well formed: a key is listed with the call that loads it. -/
theorem Loads.WF.start (h : g.WF) (key : Bytes) : (g.start key).2.WF := by
  intro k call hl
  have hl' : (g.calls.insert key g.table.length).lookup k = some call := hl
  by_cases hk : k = key
  · subst hk
    rw [AList.lookup_insert] at hl'
    rw [← Option.some.inj hl']
    exact g.start_startedFor k
  · rw [AList.lookup_insert_ne hk] at hl'
    exact (h k call hl').start

/-- A call that has just been started has no result yet. -/
theorem Loads.Satisfies.start (h : g.Satisfies P) (key : Bytes) :
    (g.start key).2.Satisfies P := by
  intro c hc r hr
  rcases List.mem_append.mp hc with hold | hnew
  · exact h c hold r hr
  · rw [List.mem_singleton.mp hnew] at hr
    exact nomatch hr

/-! ### Publishing a result and closing a call -/

/-- Updating one record in a way that keeps its key. -/
private theorem startedFor_set {calls : AList (fun _ : Bytes => Nat)} {i call : Nat}
    {c c' : LoadCall R} {key : Bytes} (hi : g.table[i]? = some c) (hkey : c'.key = c.key)
    (h : g.StartedFor call key) :
    (⟨calls, g.table.set i c'⟩ : Loads R).StartedFor call key := by
  have hlt : i < g.table.length := (List.getElem?_eq_some_iff.mp hi).1
  obtain ⟨d, hd, hk⟩ := h
  by_cases hic : i = call
  · subst hic
    refine ⟨c', ?_, ?_⟩
    · show (g.table.set i c')[i]? = some c'
      rw [List.getElem?_set_self hlt]
    · rw [hkey, Option.some.inj (hi.symm.trans hd), hk]
  · refine ⟨d, ?_, hk⟩
    show (g.table.set i c')[call]? = some d
    rw [List.getElem?_set_ne hic]
    exact hd

/-- Publishing a result does not change who loads what. -/
theorem Loads.StartedFor.publish {i call : Nat} {r : R} {key : Bytes}
    (h : g.StartedFor call key) : (g.publish i r).StartedFor call key := by
  simp only [Loads.publish]
  cases hi : g.table[i]? with
  | none => exact h
  | some c => exact startedFor_set hi rfl h

/-- Nor does telling the waiters that it is there. -/
theorem Loads.StartedFor.close {i call : Nat} {key : Bytes} (h : g.StartedFor call key) :
    (g.close i).StartedFor call key := by
  simp only [Loads.close]
  cases hi : g.table[i]? with
  | none => exact h
  | some c => exact startedFor_set hi rfl h

/-- Results satisfy what is asked of them if each published one does, for the key its
    call was started with. -/
theorem Loads.Satisfies.publish (h : g.Satisfies P) {i : Nat} {r : R}
    (hr : ∀ key, g.StartedFor i key → P key r) : (g.publish i r).Satisfies P := by
  simp only [Loads.publish]
  cases hi : g.table[i]? with
  | none => exact h
  | some c =>
      intro d hd r' hr'
      rcases List.mem_or_eq_of_mem_set hd with hold | heq
      · exact h d hold r' hr'
      · subst heq
        rw [← Option.some.inj hr']
        exact hr c.key ⟨c, hi, rfl⟩

/-- Telling the waiters changes no result. -/
theorem Loads.Satisfies.close (h : g.Satisfies P) (i : Nat) : (g.close i).Satisfies P := by
  simp only [Loads.close]
  cases hi : g.table[i]? with
  | none => exact h
  | some c =>
      intro d hd r hr
      rcases List.mem_or_eq_of_mem_set hd with hold | heq
      · exact h d hold r hr
      · subst heq
        exact h c (List.mem_of_getElem? hi) r hr

/-- Publishing keeps the group well formed: the call is not joinable any more, unless
    the key has a newer one. -/
theorem Loads.WF.publish (h : g.WF) (i : Nat) (r : R) : (g.publish i r).WF := by
  intro key call hl
  refine Loads.StartedFor.publish (h key call ?_)
  simp only [Loads.publish] at hl
  cases hi : g.table[i]? with
  | none => rw [hi] at hl; exact hl
  | some c =>
      simp only [hi] at hl
      by_cases hc : g.calls.lookup c.key = some i
      · rw [if_pos hc] at hl
        by_cases hk : key = c.key
        · rw [hk, AList.lookup_erase] at hl; cases hl
        · rw [AList.lookup_erase_ne hk] at hl; exact hl
      · rw [if_neg hc] at hl; exact hl

theorem Loads.WF.close (h : g.WF) (i : Nat) : (g.close i).WF := by
  intro key call hl
  refine Loads.StartedFor.close (h key call ?_)
  simp only [Loads.close] at hl
  cases hi : g.table[i]? with
  | none => rw [hi] at hl; exact hl
  | some c => simp only [hi] at hl; exact hl

end LoadGroup
