import VBuckets.ReorderProofs
import VBuckets.ByteStringProofs
import Mathlib.Data.List.AList

/-! # JSON values

    The values `encoding/json` decodes and what `json.Unmarshal` makes of them at the Go
    types the policy compiler asks for.  A `null` leaves the target at its zero value, and
    of two fields of one name the later one stays, so that an object is a finite map.

    `Value.Reordered` relates two values that differ only in the order of array items and of
    fields, at any depth. -/

namespace Json

open ByteString Reorder

/-- A JSON document.  Numbers keep their spelling, and the fields of an object their
    order, also where names repeat. -/
inductive Value where
  | null
  | bool (b : Bool)
  | number (literal : Bytes)
  | string (s : Bytes)
  | array (items : List Value)
  | object (fields : List (Bytes × Value))

/-- `map[string]json.RawMessage`. -/
abbrev RawMap := AList (fun _ : Bytes => Value)

/-- The entry of a map, as a pair of key and value. -/
abbrev RawEntry := Sigma (fun _ : Bytes => Value)

/-- The map of an object: of fields with one name the last counts, as in
    `encoding/json`. -/
def rawMap (fields : List (Bytes × Value)) : RawMap :=
  fields.foldl (fun m field => m.insert field.1 field.2) ∅

/-- The error of decoding into another type.  Its text goes into no message here. -/
structure UnmarshalTypeError where
  deriving DecidableEq

/-! ## Targets -/

/-- `json.Unmarshal` into a string, which accepts `null` as the empty one. -/
def unmarshalString : Value → Except UnmarshalTypeError Bytes
  | .string s => .ok s
  | .null => .ok []
  | _ => .error {}

/-- `[]string`. -/
def unmarshalStrings : Value → Except UnmarshalTypeError (List Bytes)
  | .array items => items.mapM unmarshalString
  | .null => .ok []
  | _ => .error {}

/-- `map[string]json.RawMessage`; the map of `null` is nil. -/
def unmarshalMap : Value → Except UnmarshalTypeError (Option RawMap)
  | .object fields => .ok (some (rawMap fields))
  | .null => .ok none
  | _ => .error {}

/-- `[]map[string]json.RawMessage`. -/
def unmarshalMaps : Value → Except UnmarshalTypeError (List (Option RawMap))
  | .array items => items.mapM unmarshalMap
  | .null => .ok []
  | _ => .error {}

/-- What a loop over a map visits; a nil map has no entries. -/
def range (m : Option RawMap) : List RawEntry := (m.map AList.entries).getD []

/-- `map[string]map[string]json.RawMessage`, as the entries of the outer map. -/
def unmarshalMapOfMaps (v : Value) :
    Except UnmarshalTypeError (List (Bytes × List RawEntry)) := do
  let outer ← unmarshalMap v
  (range outer).mapM (fun e => do
    let inner ← unmarshalMap e.2
    .ok (e.1, range inner))

/-! ## Values up to order -/

/-- The same value with its array items and its fields in another order, at any depth.
    Fields of one name would overwrite one another, so there are none. -/
inductive Value.Reordered : Value → Value → Prop
  | refl (v : Value) : Reordered v v
  | array {items mid items' : List Value} (hperm : items.Perm mid)
      (hmid : List.Forall₂ Reordered mid items') : Reordered (.array items) (.array items')
  | object {fields mid fields' : List (Bytes × Value)} (hkeys : (fields.map Prod.fst).Nodup)
      (hperm : fields.Perm mid) (hnames : mid.map Prod.fst = fields'.map Prod.fst)
      (hvalues : List.Forall₂ Reordered (mid.map Prod.snd) (fields'.map Prod.snd)) :
      Reordered (.object fields) (.object fields')

/-- The same entry up to order. -/
def EntryReordered (e e' : RawEntry) : Prop := e.1 = e'.1 ∧ e.2.Reordered e'.2

theorem EntryReordered.refl (e : RawEntry) : EntryReordered e e := ⟨rfl, .refl e.2⟩

/-- Two loops over maps, nil or not, that visit the same entries up to order. -/
def MapReordered (m m' : Option RawMap) : Prop :=
  (m = none ↔ m' = none) ∧ PermUpTo EntryReordered (range m) (range m')

theorem MapReordered.refl (m : Option RawMap) : MapReordered m m :=
  ⟨Iff.rfl, PermUpTo.refl_of EntryReordered.refl _⟩

/-- Where no field is repeated the map has the fields as its entries. -/
theorem entries_rawMap {fields : List (Bytes × Value)} (h : (fields.map Prod.fst).Nodup) :
    (rawMap fields).entries.Perm (fields.map (fun e => ⟨e.1, e.2⟩)) := by
  have hfold : ∀ (fields : List (Bytes × Value)) (m : RawMap), (fields.map Prod.fst).Nodup →
      (∀ e ∈ fields, e.1 ∉ m) →
      (fields.foldl (fun m field => m.insert field.1 field.2) m).entries.Perm
        (m.entries ++ fields.map (fun e => ⟨e.1, e.2⟩)) := by
    intro fields
    induction fields with
    | nil => intro m _ _; simp
    | cons e fields ih =>
        intro m hn hm
        obtain ⟨he, hn'⟩ := List.nodup_cons.mp hn
        obtain ⟨hem, hm'⟩ := List.forall_mem_cons.mp hm
        -- the new entry comes first, before the old ones
        have hentries : (m.insert e.1 e.2).entries = ⟨e.1, e.2⟩ :: m.entries :=
          AList.entries_insert_of_notMem hem
        have hrest := ih (m.insert e.1 e.2) hn' (by
          intro f hf hmem
          rcases (AList.mem_insert _).mp hmem with heq | hmem
          · exact he (heq ▸ List.mem_map_of_mem hf)
          · exact hm' f hf hmem)
        rw [hentries] at hrest
        exact hrest.trans List.perm_middle.symm
  exact hfold fields ∅ h (fun e _ => AList.notMem_empty e.1)

/-- Fields with equal names and reordered values, as pairs. -/
theorem forall₂_fields {fields fields' : List (Bytes × Value)}
    (hnames : fields.map Prod.fst = fields'.map Prod.fst)
    (hvalues : List.Forall₂ Value.Reordered (fields.map Prod.snd) (fields'.map Prod.snd)) :
    List.Forall₂ (fun e e' => e.1 = e'.1 ∧ e.2.Reordered e'.2) fields fields' := by
  induction fields generalizing fields' with
  | nil =>
      cases fields' with
      | nil => exact List.Forall₂.nil
      | cons e' fields' => exact nomatch hnames
  | cons e fields ih =>
      cases fields' with
      | nil => exact nomatch hnames
      | cons e' fields' =>
          obtain ⟨hname, hrest⟩ := List.cons.inj hnames
          cases hvalues with
          | cons hvalue hvalues => exact List.Forall₂.cons ⟨hname, hvalue⟩ (ih hrest hvalues)

section
variable {v v' : Value}

/-- A string has no parts to reorder. -/
theorem unmarshalString_reordered (h : v.Reordered v') {s : Bytes}
    (hs : unmarshalString v = .ok s) : unmarshalString v' = .ok s := by
  cases h with
  | refl => exact hs
  | array | object => exact nomatch hs

/-- The strings of a permuted array are permuted. -/
theorem unmarshalStrings_reordered (h : v.Reordered v') {l : List Bytes}
    (hl : unmarshalStrings v = .ok l) : ∃ l', unmarshalStrings v' = .ok l' ∧ l.Perm l' := by
  cases h with
  | refl => exact ⟨l, hl, List.Perm.refl l⟩
  | array hperm hmid =>
      obtain ⟨l', hl', hll⟩ := PermUpTo.mapM ⟨_, hperm, hmid⟩ hl
        (fun a a' b haa hb => ⟨b, unmarshalString_reordered haa hb, rfl⟩)
      exact ⟨l', hl', hll.perm⟩
  | object => exact nomatch hl

/-- An object in another order is decoded to the same map, up to order inside its
    values. -/
theorem unmarshalMap_reordered (h : v.Reordered v') {m : Option RawMap}
    (hm : unmarshalMap v = .ok m) : ∃ m', unmarshalMap v' = .ok m' ∧ MapReordered m m' := by
  cases h with
  | refl => exact ⟨m, hm, MapReordered.refl m⟩
  | array => exact nomatch hm
  | @object fields mid fields' hkeys hperm hnames hvalues =>
      cases hm
      have hkeys' : (fields'.map Prod.fst).Nodup := by
        rw [← hnames]
        exact (hperm.map Prod.fst).nodup_iff.mp hkeys
      refine ⟨_, rfl, ⟨(fun h => nomatch h), (fun h => nomatch h)⟩, ?_⟩
      -- both maps have their fields as entries
      have hfields : PermUpTo EntryReordered (fields.map (fun e => (⟨e.1, e.2⟩ : RawEntry)))
          (fields'.map (fun e => (⟨e.1, e.2⟩ : RawEntry))) :=
        PermUpTo.map (fun a b hab => hab) ⟨mid, hperm, forall₂_fields hnames hvalues⟩
      exact (hfields.perm_left (entries_rawMap hkeys)).perm_right (entries_rawMap hkeys').symm

/-- The objects of a permuted array are permuted. -/
theorem unmarshalMaps_reordered (h : v.Reordered v') {l : List (Option RawMap)}
    (hl : unmarshalMaps v = .ok l) :
    ∃ l', unmarshalMaps v' = .ok l' ∧ PermUpTo MapReordered l l' := by
  cases h with
  | refl => exact ⟨l, hl, PermUpTo.refl_of MapReordered.refl l⟩
  | array hperm hmid =>
      exact PermUpTo.mapM ⟨_, hperm, hmid⟩ hl (fun a a' b haa hb => unmarshalMap_reordered haa hb)
  | object => exact nomatch hl

theorem bind_ok_iff {ε α β : Type} {a : Except ε α} {f : α → Except ε β} {b : β} :
    a >>= f = .ok b ↔ ∃ x, a = .ok x ∧ f x = .ok b := by
  cases a with
  | error e => exact ⟨(fun h => nomatch h), fun ⟨_, h, _⟩ => nomatch h⟩
  | ok x => exact ⟨fun h => ⟨x, rfl, h⟩, fun ⟨y, hy, h⟩ => Except.ok.inj hy ▸ h⟩

/-- One operator of a map of maps: the same name, and the same entries up to order. -/
def GroupReordered (g g' : Bytes × List RawEntry) : Prop :=
  g.1 = g'.1 ∧ PermUpTo EntryReordered g.2 g'.2

/-- Two levels of objects, either of them in another order. -/
theorem unmarshalMapOfMaps_reordered (h : v.Reordered v') {l : List (Bytes × List RawEntry)}
    (hl : unmarshalMapOfMaps v = .ok l) :
    ∃ l', unmarshalMapOfMaps v' = .ok l' ∧ PermUpTo GroupReordered l l' := by
  obtain ⟨outer, houter, hl⟩ := bind_ok_iff.mp hl
  obtain ⟨outer', houter', hmaps⟩ := unmarshalMap_reordered h houter
  have hstep : ∀ (e e' : RawEntry) (g : Bytes × List RawEntry), EntryReordered e e' →
      (do let inner ← unmarshalMap e.2; Except.ok (e.1, range inner)) = Except.ok g →
      ∃ g', (do let inner ← unmarshalMap e'.2; Except.ok (e'.1, range inner)) = Except.ok g' ∧
        GroupReordered g g' := by
    intro e e' g hee hg
    obtain ⟨inner, hinner, hg⟩ := bind_ok_iff.mp hg
    obtain ⟨inner', hinner', hsame⟩ := unmarshalMap_reordered hee.2 hinner
    cases hg
    exact ⟨_, bind_ok_iff.mpr ⟨inner', hinner', rfl⟩, hee.1, hsame.2⟩
  obtain ⟨l', hl', hll⟩ := hmaps.2.mapM hl hstep
  exact ⟨l', bind_ok_iff.mpr ⟨outer', houter', hl'⟩, hll⟩

end

/-! ## Lookups in reordered maps -/

/-- A field is there on both sides or on neither, with the same value up to order. -/
def FieldReordered (v v' : Option Value) : Prop :=
  (v = none ∧ v' = none) ∨ ∃ a a', v = some a ∧ v' = some a' ∧ a.Reordered a'

/-- What is under a name does not depend on where the name stands.  Names are distinct
    here: decoding keeps the last of equal ones. -/
theorem lookup_reordered {m m' : RawMap} (h : PermUpTo EntryReordered m.entries m'.entries)
    (key : Bytes) : FieldReordered (m.lookup key) (m'.lookup key) := by
  cases hl : m.lookup key with
  | some a =>
      obtain ⟨⟨key', a'⟩, he', rfl, haa⟩ := h.exists_right (AList.mem_lookup_iff.mp hl)
      exact Or.inr ⟨a, a', rfl, AList.mem_lookup_iff.mpr he', haa⟩
  | none =>
      left
      refine ⟨rfl, ?_⟩
      cases hl' : m'.lookup key with
      | none => rfl
      | some a' =>
          obtain ⟨⟨key', a⟩, he, rfl, haa⟩ := h.exists_left (AList.mem_lookup_iff.mp hl')
          exact nomatch hl.symm.trans (AList.mem_lookup_iff.mpr he)

end Json
