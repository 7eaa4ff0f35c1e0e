import VBuckets.LocalCacheProofs
import VBuckets.RecencyProofs
import Mathlib.Data.List.Perm.Basic

/-! # The local cache keeps the most recently used keys

    `LocalCacheProofs` says what a cache can hold.  Here is what it DOES hold, over any
    sequence of operations with any clock readings.

    * **`Linked`** — the map and the recency list agree: every entry points at its own
      element, every element belongs to an entry.  Each of the three ways in which the
      operations change the list keeps this (`Linked.front`, `Linked.drop`,
      `Linked.push`).
    * **`Chronicle`** — what a cache has to do with its history: the entries are those
      that were set and not ended or evicted since, and the list is in the order of the
      last uses.  Every operation keeps it, so every run has it (`chronicle`). -/

namespace LocalCache

open Recency

variable {K V : Type}

/-! ## The map and the list -/

/-- The keys, the most recently used first. -/
def Cache.keysByUse (c : Cache K V) : List K := c.order.map Element.value

/-- `Len`. -/
def Cache.len (c : Cache K V) : Nat := c.entries.keys.length

variable [DecidableEq K]

/-- The map and the list agree: each entry has its element, each element its entry, and
    no identifier is used twice.  This is what the pointers of the source keep true
    without saying so. -/
structure Cache.Linked (c : Cache K V) : Prop where
  ids : (c.order.map Element.id).Nodup
  fresh : ∀ el ∈ c.order, el.id < c.nextElement
  owner : ∀ el ∈ c.order, ∃ e, c.entries.lookup el.value = some e ∧ e.order = el.id
  element : ∀ k e, c.entries.lookup k = some e → ⟨e.order, k⟩ ∈ c.order

section
variable {c : Cache K V} {k : K} {e : TimedEntry V}

theorem newLocalCache_linked (maximum : Int) : (newLocalCache maximum : Cache K V).Linked where
  ids := List.nodup_nil
  fresh := fun _ h => nomatch h
  owner := fun _ h => nomatch h
  element := fun _ _ h => nomatch h

theorem mem_entries_iff : k ∈ c.entries ↔ ∃ e, c.entries.lookup k = some e := by
  rw [← AList.lookup_isSome, Option.isSome_iff_exists]

/-- Map and list hold the same keys, so either may be asked. -/
theorem Cache.Linked.mem_keysByUse (h : c.Linked) : k ∈ c.keysByUse ↔ k ∈ c.entries := by
  rw [mem_entries_iff, Cache.keysByUse, List.mem_map]
  constructor
  · rintro ⟨el, hel, rfl⟩
    obtain ⟨e, he, -⟩ := h.owner el hel
    exact ⟨e, he⟩
  · rintro ⟨e, he⟩
    exact ⟨⟨e.order, k⟩, h.element k e he, rfl⟩

/-- An element is known by its key as well as by its identity. -/
theorem Cache.Linked.value_inj (h : c.Linked) {a b : Element K} (ha : a ∈ c.order)
    (hb : b ∈ c.order) (hab : a.value = b.value) : a = b := by
  obtain ⟨e, he, hea⟩ := h.owner a ha
  obtain ⟨e', he', heb⟩ := h.owner b hb
  rw [hab, he'] at he
  cases he
  exact List.inj_on_of_nodup_map h.ids ha hb (hea.symm.trans heb)

theorem Cache.Linked.keysByUse_nodup (h : c.Linked) : c.keysByUse.Nodup :=
  (List.nodup_map_iff_inj_on (List.Nodup.of_map _ h.ids)).mpr
    fun _ ha _ hb hab => h.value_inj ha hb hab

theorem Cache.Linked.len_eq (h : c.Linked) : c.len = c.keysByUse.length := by
  refine List.Perm.length_eq ?_
  rw [List.perm_ext_iff_of_nodup (AList.keys_nodup _) h.keysByUse_nodup]
  intro k
  rw [h.mem_keysByUse, AList.mem_keys]

/-! ### Removing an element and moving it to the front -/

/-- What `list.Remove` and `list.MoveToFront` do to the element of an entry. -/
theorem Cache.Linked.split (h : c.Linked) (hl : c.entries.lookup k = some e) :
    ∃ before after, c.order = before ++ ⟨e.order, k⟩ :: after ∧
      removeElement c.order e.order = before ++ after ∧
      moveToFront c.order e.order = ⟨e.order, k⟩ :: (before ++ after) ∧
      ∀ el ∈ before ++ after, el.value ≠ k := by
  obtain ⟨before, after, horder⟩ := List.append_of_mem (h.element k e hl)
  have hids := h.ids
  rw [horder, List.map_append, List.map_cons, List.nodup_middle, List.nodup_cons,
    ← List.map_append] at hids
  -- identifiers are unique, so the search stops at this element
  have hother : ∀ el ∈ before ++ after, ¬ (el.id == e.order) = true := by
    intro el hel heq
    exact hids.1 (List.mem_map.mpr ⟨el, hel, beq_iff_eq.mp heq⟩)
  have hbefore : ∀ el ∈ before, ¬ (el.id == e.order) = true :=
    fun el hel => hother el (List.mem_append_left _ hel)
  have hremove : removeElement c.order e.order = before ++ after := by
    rw [removeElement, horder, List.eraseP_append_right _ hbefore,
      List.eraseP_cons, beq_self_eq_true, cond_true]
  have hfind : c.order.find? (·.id == e.order) = some ⟨e.order, k⟩ := by
    rw [horder, List.find?_append, List.find?_eq_none.mpr hbefore, Option.none_or,
      List.find?_cons, beq_self_eq_true]
  refine ⟨before, after, horder, hremove, ?_, ?_⟩
  · rw [moveToFront, hfind]
    simp only [hremove]
  · intro el hel hvalue
    have hmem : el ∈ c.order := by
      rw [horder]
      exact List.perm_middle.symm.subset (List.mem_cons_of_mem _ hel)
    refine hother el hel ?_
    rw [h.value_inj hmem (h.element k e hl) hvalue]
    exact beq_self_eq_true _

/-- A use moves its key to the front of the others. -/
theorem Cache.Linked.front (h : c.Linked) (hl : c.entries.lookup k = some e)
    {entry : TimedEntry V} (hentry : entry.order = e.order) :
    Cache.Linked { c with
      entries := c.entries.insert k entry, order := moveToFront c.order e.order } ∧
    ∃ others, (moveToFront c.order e.order).map Element.value = k :: others ∧
      others.Sublist c.keysByUse ∧ k ∉ others := by
  obtain ⟨before, after, horder, -, hmove, hother⟩ := h.split hl
  -- the same elements in another order; only the entry of the key is replaced
  have hperm : (moveToFront c.order e.order).Perm c.order := by
    rw [hmove, horder]
    exact List.perm_middle.symm
  refine ⟨⟨?_, ?_, ?_, ?_⟩, (before ++ after).map Element.value, ?_, ?_, ?_⟩
  · exact (hperm.map Element.id).nodup_iff.mpr h.ids
  · intro el hel
    exact h.fresh el (hperm.subset hel)
  · intro el hel
    obtain ⟨e', he', horder'⟩ := h.owner el (hperm.subset hel)
    by_cases hk : el.value = k
    · refine ⟨entry, ?_, ?_⟩
      · show (c.entries.insert k entry).lookup el.value = _
        rw [hk, AList.lookup_insert]
      · rw [hk, hl] at he'
        cases he'
        rw [hentry, horder']
    · refine ⟨e', ?_, horder'⟩
      show (c.entries.insert k entry).lookup el.value = _
      rw [AList.lookup_insert_ne hk, he']
  · intro k' e' he'
    refine hperm.symm.subset ?_
    by_cases hk : k' = k
    · subst hk
      rw [show (c.entries.insert k' entry).lookup k' = some entry from AList.lookup_insert _] at he'
      cases he'
      rw [hentry]
      exact h.element _ e hl
    · rw [show (c.entries.insert k entry).lookup k' = c.entries.lookup k' from
        AList.lookup_insert_ne hk] at he'
      exact h.element k' e' he'
  · rw [hmove, List.map_cons]
  · rw [Cache.keysByUse, horder]
    exact ((List.Sublist.refl before).append (List.sublist_cons_self _ after)).map _
  · intro hmem
    obtain ⟨el, hel, hvalue⟩ := List.mem_map.mp hmem
    exact hother el hel hvalue

/-- Only what the map answers matters. -/
theorem Cache.Linked.congr {c' : Cache K V} (h : c.Linked) (horder : c'.order = c.order)
    (hnext : c'.nextElement = c.nextElement)
    (hlookup : ∀ k, c'.entries.lookup k = c.entries.lookup k) : c'.Linked := by
  refine ⟨?_, ?_, ?_, ?_⟩
  · rw [horder]
    exact h.ids
  · rw [horder, hnext]
    exact h.fresh
  · intro el hel
    rw [horder] at hel
    rw [hlookup]
    exact h.owner el hel
  · intro k e he
    rw [horder]
    exact h.element k e ((hlookup k).symm.trans he)

/-- A key that is removed leaves the others as they are. -/
theorem Cache.Linked.drop (h : c.Linked) (hl : c.entries.lookup k = some e) :
    Cache.Linked { c with
      order := removeElement c.order e.order, entries := c.entries.erase k } ∧
    ((removeElement c.order e.order).map Element.value).Sublist c.keysByUse := by
  obtain ⟨before, after, horder, hremove, -, hother⟩ := h.split hl
  have hsub : (removeElement c.order e.order).Sublist c.order := by
    rw [hremove, horder]
    exact (List.Sublist.refl before).append (List.sublist_cons_self _ after)
  refine ⟨⟨?_, ?_, ?_, ?_⟩, hsub.map _⟩
  · exact h.ids.sublist (hsub.map _)
  · intro el hel
    exact h.fresh el (hsub.subset hel)
  · intro el hel
    obtain ⟨e', he', horder'⟩ := h.owner el (hsub.subset hel)
    refine ⟨e', ?_, horder'⟩
    show (c.entries.erase k).lookup el.value = _
    rw [AList.lookup_erase_ne (hother el (hremove ▸ hel)), he']
  · intro k' e' he'
    have hk : k' ≠ k := by
      rintro rfl
      rw [show (c.entries.erase k').lookup k' = none from AList.lookup_erase _ _] at he'
      exact nomatch he'
    rw [show (c.entries.erase k).lookup k' = c.entries.lookup k' from
      AList.lookup_erase_ne hk] at he'
    have hmem := h.element k' e' he'
    rw [horder] at hmem
    rcases List.mem_cons.mp (List.perm_middle.subset hmem) with heq | hmem
    · exact absurd (congrArg Element.value heq) hk
    · show _ ∈ removeElement c.order e.order
      rw [hremove]
      exact hmem

/-- A new key goes to the front. -/
theorem Cache.Linked.push (h : c.Linked) (hl : c.entries.lookup k = none) (value : V)
    (expiresAt : Time) :
    Cache.Linked { c with
      entries := c.entries.insert k ⟨value, expiresAt, c.nextElement⟩
      order := ⟨c.nextElement, k⟩ :: c.order
      nextElement := c.nextElement + 1 } := by
  -- the new identifier is above all others, and the key has no entry yet
  have hother : ∀ k' e', c.entries.lookup k' = some e' → k' ≠ k := by
    rintro k' e' he' rfl
    exact nomatch hl.symm.trans he'
  refine ⟨?_, ?_, ?_, ?_⟩
  · refine List.nodup_cons.mpr ⟨fun hmem => ?_, h.ids⟩
    obtain ⟨el, hel, hid⟩ := List.mem_map.mp hmem
    exact absurd (h.fresh el hel) (hid ▸ Nat.lt_irrefl _)
  · intro el hel
    rcases List.mem_cons.mp hel with rfl | hel
    · exact Nat.lt_succ_self _
    · exact Nat.lt_succ_of_lt (h.fresh el hel)
  · intro el hel
    rcases List.mem_cons.mp hel with rfl | hel
    · exact ⟨_, AList.lookup_insert _, rfl⟩
    · obtain ⟨e', he', horder'⟩ := h.owner el hel
      exact ⟨e', (AList.lookup_insert_ne (hother _ _ he')).trans he', horder'⟩
  · intro k' e' he'
    by_cases hk : k' = k
    · subst hk
      cases (AList.lookup_insert _).symm.trans he'
      exact List.mem_cons_self
    · exact List.mem_cons_of_mem _
        (h.element k' e' ((AList.lookup_insert_ne hk).symm.trans he'))

/-! ### Writing -/

/-- `c` has an entry with this value and time of expiry. -/
def Cache.Stored (c : Cache K V) (k : K) (v : V) (expiresAt : Time) : Prop :=
  ∃ e, c.entries.lookup k = some e ∧ e.value = v ∧ e.expiresAt = expiresAt

theorem stored_of_lookup (hl : c.entries.lookup k = some e) {v : V} {expiresAt : Time} :
    c.Stored k v expiresAt ↔ e.value = v ∧ e.expiresAt = expiresAt := by
  constructor
  · rintro ⟨e', he', h⟩
    rw [hl] at he'
    cases he'
    exact h
  · intro h
    exact ⟨e, hl, h⟩

theorem stored_congr {c c' : Cache K V} (h : c'.entries.lookup k = c.entries.lookup k) {v : V}
    {expiresAt : Time} : c'.Stored k v expiresAt ↔ c.Stored k v expiresAt := by
  rw [Cache.Stored, Cache.Stored, h]

theorem not_stored {c : Cache K V} (h : c.entries.lookup k = none) {v : V} {expiresAt : Time} :
    ¬ c.Stored k v expiresAt := by
  rintro ⟨e, he, -⟩
  exact nomatch h.symm.trans he

/-- What a write leaves: its own entry in front, and of the others all but `gone`. -/
structure Cache.Written (c : Cache K V) (key : K) (value : V) (expiresAt : Time)
    (gone : Option K) (c' : Cache K V) : Prop where
  linked : c'.Linked
  maximum : c'.maximum = c.maximum
  bounded : c'.len ≤ c.maximum
  keys : ∃ others, c'.keysByUse = key :: others ∧ others.Sublist c.keysByUse ∧ key ∉ others
  own : ∃ e, c'.entries.lookup key = some e ∧ e.value = value ∧ e.expiresAt = expiresAt
  other : ∀ k, k ≠ key →
    c'.entries.lookup k = if gone = some k then none else c.entries.lookup k
  evictions : c'.evictions = c.evictions + gone.toList.length

theorem len_insert {entries : AList (fun _ : K => TimedEntry V)} {key : K}
    {entry : TimedEntry V} :
    (entries.insert key entry).keys.length =
      if key ∈ entries then entries.keys.length else entries.keys.length + 1 := by
  rw [AList.keys_insert, List.length_cons]
  by_cases hmem : key ∈ entries
  · have hkey := AList.mem_keys.mp hmem
    rw [if_pos hmem, List.length_erase_of_mem hkey]
    exact Nat.succ_pred_eq_of_pos (List.length_pos_of_mem hkey)
  · rw [if_neg hmem, List.erase_of_not_mem (fun h => hmem (AList.mem_keys.mpr h))]

section
variable {key : K} {value : V} {ttl now : Time}

/-- A key that is there is updated in its place. -/
theorem set_written_existing (h : c.Linked) (hlen : c.len ≤ c.maximum) (httl : 0 < ttl)
    (hkey : key ∈ c.entries) :
    c.Written key value (now + ttl) none (c.set key value ttl now) := by
  obtain ⟨e, he⟩ := mem_entries_iff.mp hkey
  have hset : c.set key value ttl now = { c with
      entries := c.entries.insert key { e with value := value, expiresAt := now + ttl }
      order := moveToFront c.order e.order } := by
    rw [Cache.set, if_neg (Int.not_le.mpr httl), he]
  obtain ⟨hlinked, hfront⟩ := h.front he
    (show ({ e with value := value, expiresAt := now + ttl } : TimedEntry V).order = e.order from
      rfl)
  rw [hset]
  refine ⟨hlinked, rfl, ?_, hfront, ⟨_, AList.lookup_insert _, rfl, rfl⟩, ?_, rfl⟩
  · show (c.entries.insert key _).keys.length ≤ c.maximum
    rw [len_insert, if_pos hkey]
    exact hlen
  · intro k hk
    rw [if_neg (nomatch ·)]
    exact AList.lookup_insert_ne hk

/-- A key that is not there is pushed, and the last key goes when there is no room. -/
theorem set_written_new (h : c.Linked) (hmax : 1 ≤ c.maximum) (hlen : c.len ≤ c.maximum)
    (httl : 0 < ttl) (hkey : key ∉ c.entries) :
    (c.len < c.maximum ∧ c.Written key value (now + ttl) none (c.set key value ttl now)) ∨
    ∃ front oldest, c.len = c.maximum ∧ c.keysByUse = front ++ [oldest] ∧
      c.Written key value (now + ttl) (some oldest) (c.set key value ttl now) := by
  have hnone : c.entries.lookup key = none := AList.lookup_eq_none.mpr hkey
  have hpushed := h.push hnone value (now + ttl)
  have hcount : (c.entries.insert key ⟨value, now + ttl, c.nextElement⟩).keys.length =
      c.len + 1 := by
    rw [len_insert, if_neg hkey]
    rfl
  have hkeys : key ∉ c.keysByUse := fun hmem => hkey (h.mem_keysByUse.mp hmem)
  rw [Cache.set, if_neg (Int.not_le.mpr httl), hnone]
  by_cases hroom : c.len + 1 ≤ c.maximum
  · refine .inl ⟨hroom, ?_⟩
    simp only [hcount]
    rw [if_pos hroom]
    refine ⟨hpushed, rfl, ?_, ⟨c.keysByUse, rfl, List.Sublist.refl _, hkeys⟩,
      ⟨_, AList.lookup_insert _, rfl, rfl⟩, ?_, rfl⟩
    · show (c.entries.insert key _).keys.length ≤ c.maximum
      rw [hcount]
      exact hroom
    · intro k hk
      rw [if_neg (nomatch ·)]
      exact AList.lookup_insert_ne hk
  · right
    have hfull : c.len = c.maximum := by omega
    -- the list is not empty, so its last element is an old one
    obtain ⟨before, last, horder⟩ : ∃ before last, c.order = before ++ [last] := by
      rcases List.eq_nil_or_concat c.order with hnil | ⟨before, last, hlast⟩
      · have hzero : c.len = 0 := by
          rw [h.len_eq, Cache.keysByUse, hnil]
          rfl
        omega
      · exact ⟨before, last, hlast.trans List.concat_eq_append⟩
    have hlast : last ∈ c.order := by
      rw [horder]
      exact List.mem_append_right _ (List.mem_singleton.mpr rfl)
    obtain ⟨e, he, hid⟩ := h.owner last hlast
    have hne : last.value ≠ key := fun heq => hkey (mem_entries_iff.mpr ⟨e, heq ▸ he⟩)
    have hlookup : (c.entries.insert key ⟨value, now + ttl, c.nextElement⟩).lookup last.value =
        some e := (AList.lookup_insert_ne hne).trans he
    obtain ⟨hlinked, -⟩ := hpushed.drop hlookup
    have hids := hpushed.ids
    rw [horder, ← List.cons_append, List.map_append, List.nodup_append] at hids
    have hremove : removeElement (⟨c.nextElement, key⟩ :: c.order) e.order =
        ⟨c.nextElement, key⟩ :: before := by
      have hfront : ∀ el ∈ (⟨c.nextElement, key⟩ :: before : List (Element K)),
          ¬ (el.id == e.order) = true := by
        intro el hel heq
        exact hids.2.2 el.id (List.mem_map_of_mem hel) last.id (List.mem_singleton.mpr rfl)
          ((beq_iff_eq.mp heq).trans hid)
      rw [removeElement, horder, ← List.cons_append, List.eraseP_append_right _ hfront,
        List.eraseP_cons, hid, beq_self_eq_true, cond_true, List.append_nil]
    have hgetLast : (⟨c.nextElement, key⟩ :: c.order).getLast? = some last := by
      rw [horder, ← List.cons_append, List.getLast?_append_of_ne_nil _ (List.cons_ne_nil _ _)]
      rfl
    refine ⟨before.map Element.value, last.value, hfull, ?_, ?_⟩
    · rw [Cache.keysByUse, horder, List.map_append]
      rfl
    · simp only [hcount]
      rw [if_neg hroom]
      simp only [hgetLast, ← hid]
      refine ⟨⟨hlinked.ids, hlinked.fresh, hlinked.owner, hlinked.element⟩, rfl, ?_,
        ⟨before.map Element.value, ?_, ?_, ?_⟩, ?_, ?_, rfl⟩
      · show ((c.entries.insert key _).erase last.value).keys.length ≤ c.maximum
        have hmem : last.value ∈ c.entries.insert key ⟨value, now + ttl, c.nextElement⟩ :=
          AList.lookup_isSome.mp (by rw [hlookup]; rfl)
        rw [AList.keys_erase, List.length_erase_of_mem (AList.mem_keys.mp hmem), hcount]
        exact hlen
      · rw [Cache.keysByUse, hremove]
        rfl
      · rw [Cache.keysByUse, horder, List.map_append]
        exact List.sublist_append_left _ _
      · intro hmem
        refine hkeys ?_
        rw [Cache.keysByUse, horder, List.map_append]
        exact List.mem_append_left _ hmem
      · exact ⟨_, (AList.lookup_erase_ne hne.symm).trans (AList.lookup_insert _), rfl, rfl⟩
      · intro k hk
        by_cases hgone : k = last.value
        · subst hgone
          rw [if_pos rfl]
          exact AList.lookup_erase _ _
        · rw [if_neg (fun h => hgone (Option.some.inj h).symm)]
          exact (AList.lookup_erase_ne hgone).trans (AList.lookup_insert_ne hk)

end

end

/-! ## Runs -/

/-- The operations a client calls; writes have a positive time to live. -/
inductive Operation (K V : Type) where
  | set (key : K) (value : V) (ttl : Time) (positive : 0 < ttl)
  | getIfPresent (key : K)
  | invalidate (key : K)
  | invalidateAll

/-- The cache after an operation, with the reading of the clock. -/
def Cache.apply (c : Cache K V) (now : Time) : Operation K V → Cache K V
  | .set key value ttl _ => c.set key value ttl now
  | .getIfPresent key => (c.getIfPresent key now).2
  | .invalidate key => c.invalidate key
  | .invalidateAll => c.invalidateAll

/-- The cache after the first `n` operations of a sequence with its clock readings. -/
def cacheAt (maximum : Int) (ops : Nat → Operation K V × Time) : Nat → Cache K V
  | 0 => newLocalCache maximum
  | n + 1 => (cacheAt maximum ops n).apply (ops n).2 (ops n).1

section
variable (maximum : Int) (ops : Nat → Operation K V × Time) (n : Nat) (k : K)

/-- Operation `n` sets `k` to a value with a time of expiry. -/
def Stores (v : V) (expiresAt : Time) : Prop :=
  ∃ ttl positive, (ops n).1 = .set k v ttl positive ∧ expiresAt = (ops n).2 + ttl

/-- A key is written at a step. -/
def Sets : Prop := ∃ v ttl positive, (ops n).1 = .set k v ttl positive

/-- A key is removed at a step, alone or with all others. -/
def Invalidates : Prop := (ops n).1 = .invalidate k ∨ (ops n).1 = .invalidateAll

/-- Operation `n` reads `k` at or after a time of expiry. -/
def FindsExpired (expiresAt : Time) : Prop :=
  (ops n).1 = .getIfPresent k ∧ expiresAt ≤ (ops n).2

/-- Operation `n` is a write after which `k` is gone. -/
def Evicts : Prop :=
  (∃ key v ttl positive, (ops n).1 = .set key v ttl positive ∧
    (k = key ∨ k ∈ (cacheAt maximum ops n).entries)) ∧
  k ∉ (cacheAt maximum ops (n + 1)).entries

/-- Operation `n` sets `k` or reads it with success. -/
def Uses : Prop :=
  Sets ops n k ∨ ((ops n).1 = .getIfPresent k ∧
    (((cacheAt maximum ops n).getIfPresent k (ops n).2).1).isSome = true)

/-- Operation `n` leaves an entry of `k` with this time of expiry where it is. -/
structure Keeps (expiresAt : Time) : Prop where
  set : ¬ Sets ops n k
  invalidated : ¬ Invalidates ops n k
  expired : ¬ FindsExpired ops n k expiresAt
  evicted : ¬ Evicts maximum ops n k

end

/-- What a cache has to do with its history: it is linked and within its capacity, its
    list is in the order of last uses, and it stores exactly what was set and kept
    since. -/
structure Chronicle (maximum : Int) (ops : Nat → Operation K V × Time) (n : Nat) : Prop where
  linked : (cacheAt maximum ops n).Linked
  capacity : (cacheAt maximum ops n).maximum = (max 1 maximum).toNat
  bounded : (cacheAt maximum ops n).len ≤ (cacheAt maximum ops n).maximum
  recent : Recent (Uses maximum ops) n (cacheAt maximum ops n).keysByUse
  stored : ∀ k v expiresAt, (cacheAt maximum ops n).Stored k v expiresAt ↔
    Since (Stores ops · k v expiresAt) (Keeps maximum ops · k expiresAt) n

section
variable {maximum : Int} {ops : Nat → Operation K V × Time} {n : Nat}

theorem cacheAt_succ {op : Operation K V} (hop : (ops n).1 = op) :
    cacheAt maximum ops (n + 1) = (cacheAt maximum ops n).apply (ops n).2 op := by
  rw [cacheAt, hop]

/-- Nothing has happened before the first step. -/
theorem chronicle_zero (maximum : Int) (ops : Nat → Operation K V × Time) :
    Chronicle maximum ops 0 where
  linked := newLocalCache_linked maximum
  capacity := by
    show (if maximum < 1 then 1 else maximum.toNat) = _
    split <;> omega
  bounded := Nat.zero_le _
  recent := recent_nil _ _
  stored := by
    intro k v expiresAt
    constructor
    · rintro ⟨e, he, -⟩
      exact nomatch he
    · intro h
      exact absurd h (not_since_zero _ _)

/-- What an operation has to show. -/
theorem Chronicle.next (h : Chronicle maximum ops n)
    (hlinked : (cacheAt maximum ops (n + 1)).Linked)
    (hmaximum : (cacheAt maximum ops (n + 1)).maximum = (cacheAt maximum ops n).maximum)
    (hbounded : (cacheAt maximum ops (n + 1)).len ≤ (cacheAt maximum ops n).maximum)
    (hrecent : Recent (Uses maximum ops) (n + 1) (cacheAt maximum ops (n + 1)).keysByUse)
    (hstored : ∀ k v expiresAt, (cacheAt maximum ops (n + 1)).Stored k v expiresAt ↔
      Stores ops n k v expiresAt ∨
        (Keeps maximum ops n k expiresAt ∧ (cacheAt maximum ops n).Stored k v expiresAt)) :
    Chronicle maximum ops (n + 1) where
  linked := hlinked
  capacity := hmaximum.trans h.capacity
  bounded := hmaximum ▸ hbounded
  recent := hrecent
  stored := by
    intro k v expiresAt
    rw [hstored, since_succ, h.stored]

/-! ### Writes -/

/-- A write, with or without an eviction.  The key that goes is the one whose latest
    use lies furthest back, and it is never the one written. -/
theorem Chronicle.next_set (h : Chronicle maximum ops n) {key : K} {value : V} {ttl : Time}
    {positive : 0 < ttl} (hop : (ops n).1 = .set key value ttl positive) {gone : Option K}
    (hgone : ∀ k, gone = some k → k ≠ key ∧ k ∈ (cacheAt maximum ops n).entries)
    (hw : (cacheAt maximum ops n).Written key value ((ops n).2 + ttl) gone
      (cacheAt maximum ops (n + 1))) :
    Chronicle maximum ops (n + 1) ∧ ∀ k, Evicts maximum ops n k ↔ gone = some k := by
  have hsets : ∀ k, Sets ops n k ↔ k = key := by
    intro k
    constructor
    · rintro ⟨v, t, ht, hset⟩
      rw [hop] at hset
      cases hset
      rfl
    · rintro rfl
      exact ⟨value, ttl, positive, hop⟩
  have huses : ∀ k, Uses maximum ops n k ↔ k = key := by
    intro k
    rw [Uses, hsets, hop]
    simp
  -- the evicted key is `gone` and no other, whatever the history says
  have hevicts : ∀ k, Evicts maximum ops n k ↔ gone = some k := by
    intro k
    constructor
    · rintro ⟨⟨key', v, t, ht, hset, hk⟩, hnot⟩
      rw [hop] at hset
      cases hset
      by_cases hkey : k = key
      · obtain ⟨e, he, -⟩ := hw.own
        exact absurd (mem_entries_iff.mpr ⟨e, hkey ▸ he⟩) hnot
      · obtain ⟨e, he⟩ := mem_entries_iff.mp (hk.resolve_left hkey)
        by_contra hne
        refine hnot (mem_entries_iff.mpr ⟨e, ?_⟩)
        rw [hw.other k hkey, if_neg hne, he]
    · intro hk
      obtain ⟨hne, hmem⟩ := hgone k hk
      refine ⟨⟨key, value, ttl, positive, hop, .inr hmem⟩, ?_⟩
      rw [← AList.lookup_eq_none, hw.other k hne, if_pos hk]
  refine ⟨h.next hw.linked hw.maximum hw.bounded ?_ ?_, hevicts⟩
  · obtain ⟨others, hkeys, hsub, hnot⟩ := hw.keys
    rw [hkeys]
    refine (h.recent.sublist hsub).touch ((huses key).mpr rfl) ?_
    intro k hk huse
    exact hnot ((huses k).mp huse ▸ hk)
  · intro k v expiresAt
    have hstores : Stores ops n k v expiresAt ↔
        k = key ∧ v = value ∧ expiresAt = (ops n).2 + ttl := by
      constructor
      · rintro ⟨t, ht, hset, hx⟩
        rw [hop] at hset
        cases hset
        exact ⟨rfl, rfl, hx⟩
      · rintro ⟨rfl, rfl, hx⟩
        exact ⟨ttl, positive, hop, hx⟩
    by_cases hkey : k = key
    · subst hkey
      obtain ⟨e, he, hv, hx⟩ := hw.own
      rw [stored_of_lookup he, hstores, hv, hx]
      constructor
      · rintro ⟨rfl, rfl⟩
        exact .inl ⟨rfl, rfl, rfl⟩
      · rintro (⟨-, rfl, rfl⟩ | ⟨hkeeps, -⟩)
        · exact ⟨rfl, rfl⟩
        · exact absurd ((hsets k).mpr rfl) hkeeps.set
    · have hkeeps : Keeps maximum ops n k expiresAt ↔ ¬ gone = some k := by
        constructor
        · intro hk hg
          exact hk.evicted ((hevicts k).mpr hg)
        · intro hg
          refine ⟨fun hs => hkey ((hsets k).mp hs), ?_, ?_, fun he => hg ((hevicts k).mp he)⟩
          · rw [Invalidates, hop]
            simp
          · rw [FindsExpired, hop]
            simp
      rw [hstores, hkeeps]
      by_cases hg : gone = some k
      · refine iff_of_false (not_stored ?_) ?_
        · rw [hw.other k hkey, if_pos hg]
        · rintro (⟨hk, -⟩ | ⟨hne, -⟩)
          · exact hkey hk
          · exact hne hg
      · have hsame := hw.other k hkey
        rw [if_neg hg] at hsame
        rw [stored_congr hsame]
        constructor
        · intro hs
          exact .inr ⟨hg, hs⟩
        · rintro (⟨hk, -⟩ | ⟨-, hs⟩)
          · exact absurd hk hkey
          · exact hs

/-! ### Other operations -/

section
variable (hquiet : ∀ k v ttl positive, (ops n).1 ≠ .set k v ttl positive)
include hquiet

omit [DecidableEq K] in
theorem not_stores {k : K} {v : V} {expiresAt : Time} : ¬ Stores ops n k v expiresAt := by
  rintro ⟨ttl, positive, hset, -⟩
  exact hquiet k v ttl positive hset

omit [DecidableEq K] in
theorem not_sets {k : K} : ¬ Sets ops n k := by
  rintro ⟨v, ttl, positive, hset⟩
  exact hquiet k v ttl positive hset

/-- A step that writes nothing keeps an entry unless it removes it or finds it
    expired. -/
theorem keeps_iff {k : K} {expiresAt : Time} : Keeps maximum ops n k expiresAt ↔
    ¬ Invalidates ops n k ∧ ¬ FindsExpired ops n k expiresAt := by
  constructor
  · intro h
    exact ⟨h.invalidated, h.expired⟩
  · rintro ⟨hinvalidated, hexpired⟩
    refine ⟨not_sets hquiet, hinvalidated, hexpired, ?_⟩
    rintro ⟨⟨key, v, ttl, positive, hset, -⟩, -⟩
    exact hquiet key v ttl positive hset

/-- An operation that changes no entry. -/
theorem Chronicle.next_same (h : Chronicle maximum ops n)
    (hentries : (cacheAt maximum ops (n + 1)).entries = (cacheAt maximum ops n).entries)
    (hlinked : (cacheAt maximum ops (n + 1)).Linked)
    (hmaximum : (cacheAt maximum ops (n + 1)).maximum = (cacheAt maximum ops n).maximum)
    (hrecent : Recent (Uses maximum ops) (n + 1) (cacheAt maximum ops (n + 1)).keysByUse)
    (hkeeps : ∀ k v expiresAt, (cacheAt maximum ops n).Stored k v expiresAt →
      ¬ Invalidates ops n k ∧ ¬ FindsExpired ops n k expiresAt) :
    Chronicle maximum ops (n + 1) := by
  refine h.next hlinked hmaximum ?_ hrecent ?_
  · rw [Cache.len, hentries]
    exact h.bounded
  · intro k v expiresAt
    have hsame : (cacheAt maximum ops (n + 1)).entries.lookup k =
        (cacheAt maximum ops n).entries.lookup k := by
      rw [hentries]
    rw [stored_congr hsame, keeps_iff hquiet]
    constructor
    · intro hs
      exact .inr ⟨hkeeps k v expiresAt hs, hs⟩
    · rintro (hs | ⟨-, hs⟩)
      · exact absurd hs (not_stores hquiet)
      · exact hs

/-- An operation that removes one entry. -/
theorem Chronicle.next_drop (h : Chronicle maximum ops n) {key : K} {e : TimedEntry V}
    (hl : (cacheAt maximum ops n).entries.lookup key = some e)
    (hnext : cacheAt maximum ops (n + 1) = { cacheAt maximum ops n with
      order := removeElement (cacheAt maximum ops n).order e.order
      entries := (cacheAt maximum ops n).entries.erase key })
    (huses : ∀ k, ¬ Uses maximum ops n k)
    (hkeeps : ∀ k v expiresAt, (cacheAt maximum ops n).Stored k v expiresAt →
      (¬ Invalidates ops n k ∧ ¬ FindsExpired ops n k expiresAt ↔ k ≠ key)) :
    Chronicle maximum ops (n + 1) := by
  obtain ⟨hlinked, hsub⟩ := h.linked.drop hl
  have hlookup : ∀ k, (cacheAt maximum ops (n + 1)).entries.lookup k =
      ((cacheAt maximum ops n).entries.erase key).lookup k := by
    intro k
    rw [hnext]
  refine h.next (hnext ▸ hlinked) (by rw [hnext]) ?_ ?_ ?_
  · rw [hnext]
    show ((cacheAt maximum ops n).entries.erase key).keys.length ≤ _
    rw [AList.keys_erase]
    exact Nat.le_trans List.erase_sublist.length_le h.bounded
  · rw [hnext]
    exact (h.recent.sublist hsub).succ (fun k _ => huses k)
  · intro k v expiresAt
    rw [keeps_iff hquiet]
    by_cases hk : k = key
    · refine iff_of_false (not_stored ?_) ?_
      · rw [hlookup, hk, AList.lookup_erase]
      · rintro (hs | ⟨hkept, hs⟩)
        · exact not_stores hquiet hs
        · exact (hkeeps k v expiresAt hs).mp hkept hk
    · rw [stored_congr ((hlookup k).trans (AList.lookup_erase_ne hk))]
      constructor
      · intro hs
        exact .inr ⟨(hkeeps k v expiresAt hs).mpr hk, hs⟩
      · rintro (hs | ⟨-, hs⟩)
        · exact absurd hs (not_stores hquiet)
        · exact hs

end

/-- A read: a hit is a use, a miss removes at most an expired entry. -/
theorem Chronicle.next_get (h : Chronicle maximum ops n) {key : K}
    (hop : (ops n).1 = .getIfPresent key) : Chronicle maximum ops (n + 1) := by
  have hquiet : ∀ k v ttl positive, (ops n).1 ≠ .set k v ttl positive := by
    intro k v ttl positive hset
    exact nomatch hop.symm.trans hset
  have hinvalidates : ∀ k, ¬ Invalidates ops n k := by
    intro k
    rw [Invalidates, hop]
    simp
  have hexpired : ∀ k expiresAt, FindsExpired ops n k expiresAt ↔
      k = key ∧ expiresAt ≤ (ops n).2 := by
    intro k expiresAt
    rw [FindsExpired, hop, Operation.getIfPresent.injEq, eq_comm]
  have hstep : cacheAt maximum ops (n + 1) =
      ((cacheAt maximum ops n).getIfPresent key (ops n).2).2 := cacheAt_succ hop
  -- a read uses its key only if it hits
  have huses : ∀ k, Uses maximum ops n k ↔ k = key ∧
      ((cacheAt maximum ops n).getIfPresent key (ops n).2).1.isSome = true := by
    intro k
    rw [Uses, or_iff_right (not_sets hquiet), hop, Operation.getIfPresent.injEq]
    constructor
    · rintro ⟨rfl, hsome⟩
      exact ⟨rfl, hsome⟩
    · rintro ⟨rfl, hsome⟩
      exact ⟨rfl, hsome⟩
  rw [Cache.getIfPresent] at hstep huses
  cases hl : (cacheAt maximum ops n).entries.lookup key with
  | none =>
      rw [hl] at hstep huses
      refine h.next_same hquiet (by rw [hstep]) (hstep ▸ h.linked) (by rw [hstep]) ?_ ?_
      · rw [hstep]
        refine h.recent.succ ?_
        intro k _ huse
        exact nomatch ((huses k).mp huse).2
      · intro k v expiresAt hs
        refine ⟨hinvalidates k, fun hfind => ?_⟩
        obtain ⟨e, he, -⟩ := hs
        rw [((hexpired k expiresAt).mp hfind).1, hl] at he
        exact nomatch he
  | some e =>
      rw [hl] at hstep huses
      by_cases hlive : (ops n).2 < e.expiresAt
      · -- the entry is there and goes to the front
        simp only [if_pos hlive] at hstep huses
        obtain ⟨hfront, others, hkeys, hsub, hnot⟩ := h.linked.front hl rfl
        refine h.next_same hquiet (by rw [hstep]) ?_ (by rw [hstep]) ?_ ?_
        · rw [hstep]
          refine hfront.congr rfl rfl ?_
          intro k
          by_cases hk : k = key
          · subst hk
            show _ = ((cacheAt maximum ops n).entries.insert k e).lookup k
            rw [AList.lookup_insert]
            exact hl
          · exact (AList.lookup_insert_ne hk).symm
        · rw [hstep, Cache.keysByUse, hkeys]
          refine (h.recent.sublist hsub).touch ((huses key).mpr ⟨rfl, rfl⟩) ?_
          intro k hk huse
          exact hnot (((huses k).mp huse).1 ▸ hk)
        · intro k v expiresAt hs
          refine ⟨hinvalidates k, fun hfind => ?_⟩
          obtain ⟨rfl, hle⟩ := (hexpired k expiresAt).mp hfind
          rw [((stored_of_lookup hl).mp hs).2] at hlive
          exact absurd hlive (Int.not_lt.mpr hle)
      · -- the entry has expired
        simp only [if_neg hlive] at hstep huses
        refine h.next_drop hquiet hl hstep ?_ ?_
        · intro k huse
          exact nomatch ((huses k).mp huse).2
        · intro k v expiresAt hs
          rw [and_iff_right (hinvalidates k), hexpired]
          constructor
          · rintro hnot rfl
            rw [((stored_of_lookup hl).mp hs).2] at hlive
            exact hnot ⟨rfl, Int.not_lt.mp hlive⟩
          · rintro hk ⟨hkey, -⟩
            exact hk hkey

/-- A removal of one key. -/
theorem Chronicle.next_invalidate (h : Chronicle maximum ops n) {key : K}
    (hop : (ops n).1 = .invalidate key) : Chronicle maximum ops (n + 1) := by
  have hquiet : ∀ k v ttl positive, (ops n).1 ≠ .set k v ttl positive := by
    intro k v ttl positive hset
    exact nomatch hop.symm.trans hset
  have huses : ∀ k, ¬ Uses maximum ops n k := by
    intro k
    rw [Uses, or_iff_right (not_sets hquiet), hop]
    simp
  have hkept : ∀ k expiresAt, ¬ Invalidates ops n k ∧ ¬ FindsExpired ops n k expiresAt ↔
      k ≠ key := by
    intro k expiresAt
    rw [Invalidates, FindsExpired, hop]
    simp [eq_comm]
  have hstep : cacheAt maximum ops (n + 1) = (cacheAt maximum ops n).invalidate key :=
    cacheAt_succ hop
  rw [Cache.invalidate] at hstep
  cases hl : (cacheAt maximum ops n).entries.lookup key with
  | some e =>
      rw [hl] at hstep
      exact h.next_drop hquiet hl hstep huses (fun k v expiresAt _ => hkept k expiresAt)
  | none =>
      rw [hl] at hstep
      have hsame : cacheAt maximum ops (n + 1) = cacheAt maximum ops n := by
        have herase : (cacheAt maximum ops n).entries.erase key =
            (cacheAt maximum ops n).entries :=
          AList.ext (List.kerase_of_notMem_keys (AList.lookup_eq_none.mp hl))
        rw [hstep, herase]
      refine h.next_same hquiet (by rw [hsame]) (hsame ▸ h.linked) (by rw [hsame]) ?_ ?_
      · rw [hsame]
        exact h.recent.succ (fun k _ => huses k)
      · rintro k v expiresAt ⟨e, he, -⟩
        rw [hkept]
        rintro rfl
        exact nomatch hl.symm.trans he

/-- A removal of all keys. -/
theorem Chronicle.next_invalidateAll (h : Chronicle maximum ops n)
    (hop : (ops n).1 = .invalidateAll) : Chronicle maximum ops (n + 1) := by
  have hquiet : ∀ k v ttl positive, (ops n).1 ≠ .set k v ttl positive := by
    intro k v ttl positive hset
    exact nomatch hop.symm.trans hset
  have hstep : cacheAt maximum ops (n + 1) = (cacheAt maximum ops n).invalidateAll :=
    cacheAt_succ hop
  refine h.next ?_ (by rw [hstep]; rfl) ?_ ?_ ?_
  · rw [hstep]
    exact ⟨List.nodup_nil, fun _ hm => (nomatch hm), fun _ hm => (nomatch hm),
      fun _ _ hl => (nomatch hl)⟩
  · rw [hstep]
    exact Nat.zero_le _
  · rw [hstep]
    exact recent_nil _ _
  · intro k v expiresAt
    rw [hstep]
    refine iff_of_false (not_stored rfl) ?_
    rintro (hs | ⟨hkeeps, -⟩)
    · exact not_stores hquiet hs
    · exact hkeeps.invalidated (.inr hop)

/-- What a write of a run does: it drops the last key of the list, and only when the key is
    new and there is no room. -/
theorem Chronicle.written (h : Chronicle maximum ops n) {key : K} {value : V} {ttl : Time}
    {positive : 0 < ttl} (hop : (ops n).1 = .set key value ttl positive) :
    ∃ gone, (cacheAt maximum ops n).Written key value ((ops n).2 + ttl) gone
        (cacheAt maximum ops (n + 1)) ∧
      (∀ k, gone = some k → k ≠ key ∧ k ∈ (cacheAt maximum ops n).entries) ∧
      ((gone = none ∧ (key ∈ (cacheAt maximum ops n).entries ∨
          (cacheAt maximum ops n).len < (cacheAt maximum ops n).maximum)) ∨
        ∃ front oldest, gone = some oldest ∧ key ∉ (cacheAt maximum ops n).entries ∧
          (cacheAt maximum ops n).len = (cacheAt maximum ops n).maximum ∧
          (cacheAt maximum ops n).keysByUse = front ++ [oldest]) := by
  have hstep : cacheAt maximum ops (n + 1) =
      (cacheAt maximum ops n).set key value ttl (ops n).2 := cacheAt_succ hop
  rw [hstep]
  by_cases hkey : key ∈ (cacheAt maximum ops n).entries
  · exact ⟨none, set_written_existing h.linked h.bounded positive hkey, fun _ hk => (nomatch hk),
      .inl ⟨rfl, .inl hkey⟩⟩
  · have hmax : 1 ≤ (cacheAt maximum ops n).maximum := by
      rw [h.capacity]
      omega
    rcases set_written_new h.linked hmax h.bounded positive hkey with
      ⟨hroom, hw⟩ | ⟨front, oldest, hfull, hlast, hw⟩
    · exact ⟨none, hw, fun _ hk => (nomatch hk), .inl ⟨rfl, .inr hroom⟩⟩
    -- the last key of the list is stored, and the written one is not
    · have hmem : oldest ∈ (cacheAt maximum ops n).entries := by
        rw [← h.linked.mem_keysByUse, hlast]
        exact List.mem_append_right _ (List.mem_singleton.mpr rfl)
      refine ⟨some oldest, hw, ?_, .inr ⟨front, oldest, rfl, hkey, hfull, hlast⟩⟩
      rintro k hk
      obtain rfl := Option.some.inj hk
      exact ⟨fun heq => hkey (heq ▸ hmem), hmem⟩

/-- Every run has its chronicle, by induction over the operations. -/
theorem chronicle (maximum : Int) (ops : Nat → Operation K V × Time) (n : Nat) :
    Chronicle maximum ops n := by
  induction n with
  | zero => exact chronicle_zero maximum ops
  | succ n ih =>
      cases hop : (ops n).1 with
      | set key value ttl positive =>
          obtain ⟨gone, hw, hgone, -⟩ := ih.written hop
          exact (ih.next_set hop hgone hw).1
      | getIfPresent key => exact ih.next_get hop
      | invalidate key => exact ih.next_invalidate hop
      | invalidateAll => exact ih.next_invalidateAll hop

/-- A read returns exactly what is stored and has not expired. -/
theorem getIfPresent_iff {c : Cache K V} {k : K} {v : V} {now : Time} :
    (c.getIfPresent k now).1 = some v ↔ ∃ expiresAt, c.Stored k v expiresAt ∧ now < expiresAt := by
  rw [Cache.getIfPresent]
  cases hl : c.entries.lookup k with
  | none =>
      refine iff_of_false (nomatch ·) ?_
      rintro ⟨expiresAt, hs, -⟩
      exact not_stored hl hs
  | some e =>
      simp only [stored_of_lookup hl]
      by_cases hlive : now < e.expiresAt
      · rw [if_pos hlive, Option.some.injEq]
        constructor
        · rintro rfl
          exact ⟨e.expiresAt, ⟨rfl, rfl⟩, hlive⟩
        · rintro ⟨expiresAt, ⟨hv, -⟩, -⟩
          exact hv
      · rw [if_neg hlive]
        refine iff_of_false (nomatch ·) ?_
        rintro ⟨expiresAt, ⟨-, rfl⟩, hlt⟩
        exact hlive hlt

end

/-- Operation `n` inserts a new key into a cache that is full, so one key has to go. -/
def Overflows (maximum : Int) (ops : Nat → Operation K V × Time) (n : Nat) : Prop :=
  ∃ key value ttl positive, (ops n).1 = .set key value ttl positive ∧
    key ∉ (cacheAt maximum ops n).entries ∧ max 1 maximum < ((cacheAt maximum ops n).len : Int) + 1

/-- Operation `n` drops exactly the key with the oldest last use, and calls `onEvict`
    once. -/
def EvictsOldest (maximum : Int) (ops : Nat → Operation K V × Time) (n : Nat) : Prop :=
  (∃ oldest ∈ (cacheAt maximum ops n).entries, (∀ k, Evicts maximum ops n k ↔ k = oldest) ∧
    ∃ i, Latest (Uses maximum ops) n oldest i ∧
      ∀ k ∈ (cacheAt maximum ops n).entries, k ≠ oldest →
        ∃ j, Latest (Uses maximum ops) n k j ∧ i < j) ∧
  (cacheAt maximum ops (n + 1)).evictions = (cacheAt maximum ops n).evictions + 1

section
variable {maximum : Int} {ops : Nat → Operation K V × Time} {n : Nat}

/-- **EVICTION**: a write that passes the bound evicts the key that was least recently
    used, and no other. -/
theorem Chronicle.evictsOldest (h : Chronicle maximum ops n) (hover : Overflows maximum ops n) :
    EvictsOldest maximum ops n := by
  obtain ⟨key, value, ttl, positive, hop, hnew, hfull⟩ := hover
  obtain ⟨gone, hw, hgone, ⟨-, hkey | hroom⟩ | ⟨front, oldest, rfl, -, -, hlast⟩⟩ := h.written hop
  · exact absurd hkey hnew
  · have hcapacity := h.capacity
    omega
  · obtain ⟨-, hevicts⟩ := h.next_set hop hgone hw
    have hrecent := h.recent
    rw [hlast] at hrecent
    obtain ⟨i, hi, hothers⟩ := hrecent.last
    refine ⟨⟨oldest, (hgone oldest rfl).2, ?_, i, hi, ?_⟩, hw.evictions⟩
    · intro k
      rw [hevicts k, Option.some.injEq, eq_comm]
    · intro k hk hne
      rw [← h.linked.mem_keysByUse, hlast] at hk
      rcases List.mem_append.mp hk with hk | hk
      · exact hothers k hk
      · exact absurd (List.mem_singleton.mp hk) hne

theorem evictions_getIfPresent (c : Cache K V) (key : K) (now : Time) :
    (c.getIfPresent key now).2.evictions = c.evictions := by
  rw [Cache.getIfPresent]
  cases c.entries.lookup key with
  | none => rfl
  | some e =>
      by_cases hlive : now < e.expiresAt
      · simp only [if_pos hlive]
      · simp only [if_neg hlive]

theorem evictions_invalidate (c : Cache K V) (key : K) :
    (c.invalidate key).evictions = c.evictions := by
  rw [Cache.invalidate]
  cases c.entries.lookup key with
  | none | some => rfl

/-- A step that does not pass the bound evicts nothing, and the counter stays where it
    is. -/
theorem Chronicle.evictsNothing (h : Chronicle maximum ops n) (hroom : ¬ Overflows maximum ops n) :
    (∀ k, ¬ Evicts maximum ops n k) ∧
      (cacheAt maximum ops (n + 1)).evictions = (cacheAt maximum ops n).evictions := by
  have hquiet : (∀ k v ttl positive, (ops n).1 ≠ .set k v ttl positive) →
      ∀ k, ¬ Evicts maximum ops n k := by
    rintro hset k ⟨⟨key, v, ttl, positive, hop, -⟩, -⟩
    exact hset key v ttl positive hop
  have hstep : (cacheAt maximum ops (n + 1)).evictions =
      ((cacheAt maximum ops n).apply (ops n).2 (ops n).1).evictions := rfl
  cases hop : (ops n).1 with
  | set key value ttl positive =>
      obtain ⟨gone, hw, hgone, ⟨rfl, -⟩ | ⟨front, oldest, -, hnew, hfull, -⟩⟩ := h.written hop
      · obtain ⟨-, hevicts⟩ := h.next_set hop hgone hw
        exact ⟨fun k hk => (nomatch (hevicts k).mp hk), hw.evictions⟩
      · refine absurd ⟨key, value, ttl, positive, hop, hnew, ?_⟩ hroom
        have hcapacity := h.capacity
        omega
  | getIfPresent key =>
      rw [hop] at hstep hquiet
      exact ⟨hquiet (fun _ _ _ _ hset => (nomatch hset)),
        hstep.trans (evictions_getIfPresent _ _ _)⟩
  | invalidate key =>
      rw [hop] at hstep hquiet
      exact ⟨hquiet (fun _ _ _ _ hset => (nomatch hset)),
        hstep.trans (evictions_invalidate _ _)⟩
  | invalidateAll =>
      rw [hop] at hstep hquiet
      exact ⟨hquiet (fun _ _ _ _ hset => (nomatch hset)), hstep⟩

end

/-- **A BOUNDED LRU MAP WITH EXPIRY**: over every sequence of operations and clock readings
    the list has the keys of the map once each, entries point at their own elements, and the
    number of entries is bounded; a read returns what the last write stored unless an
    operation since then, or the clock, has ended it; and an insertion beyond the capacity
    evicts the key with the oldest last use, which are the only evictions. -/
theorem bounded_lru (maximum : Int) (ops : Nat → Operation K V × Time) (n : Nat) :
    ((cacheAt maximum ops n).keysByUse.Nodup ∧
      (∀ k, k ∈ (cacheAt maximum ops n).keysByUse ↔ k ∈ (cacheAt maximum ops n).entries) ∧
      ((cacheAt maximum ops n).order.map Element.id).Nodup ∧
      (∀ k e, (cacheAt maximum ops n).entries.lookup k = some e →
        ⟨e.order, k⟩ ∈ (cacheAt maximum ops n).order) ∧
      ((cacheAt maximum ops n).len : Int) ≤ max 1 maximum) ∧
    (∀ k v now, ((cacheAt maximum ops n).getIfPresent k now).1 = some v ↔
      ∃ expiresAt, Since (Stores ops · k v expiresAt) (Keeps maximum ops · k expiresAt) n ∧
        now < expiresAt) ∧
    (Overflows maximum ops n → EvictsOldest maximum ops n) ∧
    (¬ Overflows maximum ops n → (∀ k, ¬ Evicts maximum ops n k) ∧
      (cacheAt maximum ops (n + 1)).evictions = (cacheAt maximum ops n).evictions) := by
  have h := chronicle maximum ops n
  refine ⟨⟨h.linked.keysByUse_nodup, fun k => h.linked.mem_keysByUse, h.linked.ids,
    h.linked.element, ?_⟩, ?_, h.evictsOldest, h.evictsNothing⟩
  · have hcapacity := h.capacity
    have hbounded := h.bounded
    omega
  · intro k v now
    rw [getIfPresent_iff]
    simp only [h.stored]

/-- With room for two, reading the first key makes the second one go. -/
example :
    let ops : Nat → Operation Nat Nat × Time := fun n =>
      match n with
      | 0 => (.set 1 10 60 (by decide), 0)
      | 1 => (.set 2 20 60 (by decide), 1)
      | 2 => (.getIfPresent 1, 2)
      | _ => (.set 3 30 60 (by decide), 3)
    (cacheAt 2 ops 4).keysByUse = [3, 1] ∧ (cacheAt 2 ops 4).evictions = 1 := by
  decide

end LocalCache
