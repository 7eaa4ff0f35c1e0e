import Mathlib.Data.List.AList

/-! # The bounded local cache

    `localCache` of `controlplane/cache.go`: a map with a time of expiry for each
    entry and a recency list.  List elements have an identity of their own, as in
    the source, where an entry owns a pointer to its element.

    The freshness argument only needs to know which entries CAN be held after each
    operation; recency and expiry decide which of them actually are.  `Holds` is
    that view, with one lemma for each operation. -/

namespace LocalCache

/-- Clock readings and durations, in nanoseconds. -/
abbrev Time := Int

/-- An element of the recency list. -/
structure Element (K : Type) where
  id : Nat
  value : K

/-- The value, the moment from which it counts as absent, and its element in the order of
    recency.  The source keeps a pointer to the element, the model its identifier. -/
structure TimedEntry (V : Type) where
  value : V
  expiresAt : Time
  order : Nat

/-- `localCache`: the front of `order` is the most recently used key, and
    `evictions` counts the calls of `onEvict`. -/
structure Cache (K V : Type) where
  entries : AList (fun _ : K => TimedEntry V)
  order : List (Element K)
  maximum : Nat
  nextElement : Nat
  evictions : Nat

variable {K V : Type}

/-- The cache starts empty.  It holds at least one entry, whatever bound it is given, so `Set`
    always has room for the key it stores. -/
def newLocalCache (maximum : Int) : Cache K V where
  entries := ∅
  order := []
  maximum := if maximum < 1 then 1 else maximum.toNat
  nextElement := 0
  evictions := 0

/-- `list.Remove`. -/
def removeElement (order : List (Element K)) (id : Nat) : List (Element K) :=
  order.eraseP (·.id == id)

/-- `list.MoveToFront`. -/
def moveToFront (order : List (Element K)) (id : Nat) : List (Element K) :=
  match order.find? (·.id == id) with
  | some e => e :: removeElement order id
  | none => order

variable [DecidableEq K]

/-- A live entry is returned and moved to the front.  An expired one is removed from the map
    and from the order, and reported as absent. -/
def Cache.getIfPresent (c : Cache K V) (key : K) (now : Time) : Option V × Cache K V :=
  match c.entries.lookup key with
  | none => (none, c)
  | some entry =>
      if now < entry.expiresAt then
        (some entry.value, { c with order := moveToFront c.order entry.order })
      else
        (none, { c with
          order := removeElement c.order entry.order
          entries := c.entries.erase key })

/-- A write replaces or inserts, at the front, and evicts the entry at the back if the
    bound is passed.  A lifetime that is not positive stores nothing, and leaves an
    older entry where it is. -/
def Cache.set (c : Cache K V) (key : K) (value : V) (ttl now : Time) : Cache K V :=
  if ttl ≤ 0 then c
  else
    match c.entries.lookup key with
    | some existing =>
        { c with
          entries := c.entries.insert key
            { existing with value := value, expiresAt := now + ttl }
          order := moveToFront c.order existing.order }
    | none =>
        let c' : Cache K V :=
          { c with
            entries := c.entries.insert key ⟨value, now + ttl, c.nextElement⟩
            order := ⟨c.nextElement, key⟩ :: c.order
            nextElement := c.nextElement + 1 }
        if c'.entries.keys.length ≤ c'.maximum then c'
        else
          match c'.order.getLast? with
          | some oldest =>
              { c' with
                order := removeElement c'.order oldest.id
                entries := c'.entries.erase oldest.value
                evictions := c'.evictions + 1 }
          | none => c'

/-- Removes one key. -/
def Cache.invalidate (c : Cache K V) (key : K) : Cache K V :=
  match c.entries.lookup key with
  | some entry =>
      { c with order := removeElement c.order entry.order, entries := c.entries.erase key }
  | none => { c with entries := c.entries.erase key }

omit [DecidableEq K] in
/-- Removes all.  The counter of elements goes on, so no element is used twice. -/
def Cache.invalidateAll (c : Cache K V) : Cache K V :=
  { c with entries := ∅, order := [] }

/-! ## Which entries can be held -/

/-- The cache has an entry for `key` whose value is `value`, expired or not. -/
def Cache.Holds (c : Cache K V) (key : K) (value : V) : Prop :=
  ∃ e, c.entries.lookup key = some e ∧ e.value = value

theorem newLocalCache_holds {maximum : Int} {k : K} {v : V}
    (h : (newLocalCache maximum : Cache K V).Holds k v) : False := by
  obtain ⟨e, he, -⟩ := h
  exact nomatch he

/-- What a read returns is held. -/
theorem holds_of_getIfPresent {c : Cache K V} {key : K} {now : Time} {v : V}
    (h : (c.getIfPresent key now).1 = some v) : c.Holds key v := by
  unfold Cache.getIfPresent at h
  cases hl : c.entries.lookup key with
  | none => rw [hl] at h; exact nomatch h
  | some e =>
      simp only [hl] at h
      by_cases hlt : now < e.expiresAt
      · rw [if_pos hlt] at h
        exact ⟨e, hl, Option.some.inj h⟩
      · rw [if_neg hlt] at h
        exact nomatch h

/-- A read adds nothing. -/
theorem holds_getIfPresent {c : Cache K V} {key k : K} {now : Time} {v : V}
    (h : (c.getIfPresent key now).2.Holds k v) : c.Holds k v := by
  unfold Cache.getIfPresent at h
  cases hl : c.entries.lookup key with
  | none => simp only [hl] at h; exact h
  | some e =>
      simp only [hl] at h
      by_cases hlt : now < e.expiresAt
      · rw [if_pos hlt] at h; exact h
      · rw [if_neg hlt] at h
        obtain ⟨e', he', hv⟩ := h
        have he'' : (c.entries.erase key).lookup k = some e' := he'
        by_cases hk : k = key
        · rw [hk, AList.lookup_erase] at he''
          exact nomatch he''
        · rw [AList.lookup_erase_ne hk] at he''
          exact ⟨e', he'', hv⟩

/-- A read that finds nothing leaves nothing behind for its key: an expired entry is
    dropped. -/
theorem not_holds_of_getIfPresent_none {c : Cache K V} {key : K} {now : Time} {v : V}
    (h : (c.getIfPresent key now).1 = none) : ¬ (c.getIfPresent key now).2.Holds key v := by
  unfold Cache.getIfPresent at h ⊢
  cases hl : c.entries.lookup key with
  | none =>
      rintro ⟨e, he, -⟩
      simp only [hl] at he
      exact nomatch he
  | some e =>
      simp only [hl] at h ⊢
      by_cases hlt : now < e.expiresAt
      · rw [if_pos hlt] at h; exact nomatch h
      · rw [if_neg hlt]
        rintro ⟨e', he', -⟩
        have he'' : (c.entries.erase key).lookup key = some e' := he'
        rw [AList.lookup_erase] at he''
        exact nomatch he''

/-- What is left after a removal was there before. -/
private theorem lookup_erase_some {s : AList (fun _ : K => TimedEntry V)} {k key : K}
    {e : TimedEntry V} (h : (s.erase key).lookup k = some e) : s.lookup k = some e := by
  by_cases hk : k = key
  · rw [hk, AList.lookup_erase] at h; exact nomatch h
  · rw [AList.lookup_erase_ne hk] at h; exact h

private theorem holds_insert {s : AList (fun _ : K => TimedEntry V)} {k key : K}
    {e e' : TimedEntry V} (h : (s.insert key e').lookup k = some e) :
    (k = key ∧ e = e') ∨ (k ≠ key ∧ s.lookup k = some e) := by
  by_cases hk : k = key
  · subst hk
    rw [AList.lookup_insert] at h
    exact Or.inl ⟨rfl, (Option.some.inj h).symm⟩
  · rw [AList.lookup_insert_ne hk] at h
    exact Or.inr ⟨hk, h⟩

/-- A write adds its own entry and nothing else. -/
theorem holds_set {c : Cache K V} {key k : K} {value v : V} {ttl now : Time}
    (h : (c.set key value ttl now).Holds k v) :
    (k = key ∧ v = value) ∨ c.Holds k v := by
  obtain ⟨e, he, hv⟩ := h
  unfold Cache.set at he
  by_cases httl : ttl ≤ 0
  · rw [if_pos httl] at he
    exact Or.inr ⟨e, he, hv⟩
  · rw [if_neg httl] at he
    cases hl : c.entries.lookup key with
    | some existing =>
        simp only [hl] at he
        rcases holds_insert he with ⟨hk, heq⟩ | ⟨-, hold⟩
        · refine Or.inl ⟨hk, ?_⟩
          rw [← hv, heq]
        · exact Or.inr ⟨e, hold, hv⟩
    | none =>
        simp only [hl] at he
        -- whether or not the oldest entry was evicted, the rest is the insertion
        have hins : (c.entries.insert key ⟨value, now + ttl, c.nextElement⟩).lookup k
            = some e := by
          split at he
          · exact he
          · split at he
            · exact lookup_erase_some he
            · exact he
        rcases holds_insert hins with ⟨hk, heq⟩ | ⟨-, hold⟩
        · refine Or.inl ⟨hk, ?_⟩
          rw [← hv, heq]
        · exact Or.inr ⟨e, hold, hv⟩

/-- A write replaces what its key held before. -/
theorem holds_set_self {c : Cache K V} {key : K} {value v : V} {ttl now : Time}
    (httl : 0 < ttl) (h : (c.set key value ttl now).Holds key v) : v = value := by
  obtain ⟨e, he, hv⟩ := h
  unfold Cache.set at he
  rw [if_neg (Int.not_le.mpr httl)] at he
  cases hl : c.entries.lookup key with
  | some existing =>
      simp only [hl, AList.lookup_insert] at he
      rw [← hv, ← Option.some.inj he]
  | none =>
      simp only [hl] at he
      have hins : (c.entries.insert key ⟨value, now + ttl, c.nextElement⟩).lookup key
          = some e := by
        split at he
        · exact he
        · split at he
          · exact lookup_erase_some he
          · exact he
      rw [AList.lookup_insert] at hins
      rw [← hv, ← Option.some.inj hins]

/-- An invalidation removes its key and adds nothing. -/
theorem holds_invalidate {c : Cache K V} {key k : K} {v : V}
    (h : (c.invalidate key).Holds k v) : k ≠ key ∧ c.Holds k v := by
  obtain ⟨e, he, hv⟩ := h
  have he' : (c.entries.erase key).lookup k = some e := by
    unfold Cache.invalidate at he
    cases hl : c.entries.lookup key with
    | none | some => simp only [hl] at he; exact he
  refine ⟨?_, e, lookup_erase_some he', hv⟩
  intro hk
  rw [hk, AList.lookup_erase] at he'
  exact nomatch he'

theorem holds_invalidateAll {c : Cache K V} {k : K} {v : V}
    (h : c.invalidateAll.Holds k v) : False := by
  obtain ⟨e, he, -⟩ := h
  exact nomatch he

end LocalCache
