import Mathlib.Data.List.Perm.Basic

/-! # Lists up to order

    `PermUpTo R` relates two lists that agree up to order and up to `R` on their
    members: the relation that holds between two runs of a loop over a container with no
    fixed order.  A loop that succeeds on one list succeeds on the other
    (`PermUpTo.forall₂`), and quantifiers over members do not see the order. -/

namespace Reorder

variable {α β γ δ : Type}

/-- The second list is the first one in some order, member by member up to `R`. -/
def PermUpTo (R : α → β → Prop) (l : List α) (l' : List β) : Prop :=
  ∃ mid, l.Perm mid ∧ List.Forall₂ R mid l'

namespace PermUpTo
variable {R : α → β → Prop} {l : List α} {l' : List β}

/-- Permutations are the case of equality: the lists have the same members, whatever
    the order. -/
theorem of_perm {l l' : List α} (h : l.Perm l') : PermUpTo (· = ·) l l' :=
  ⟨l', h, List.forall₂_eq_eq_eq ▸ rfl⟩

/-- Lists related element by element, in order, are related up to order. -/
theorem of_forall₂ (h : List.Forall₂ R l l') : PermUpTo R l l' := ⟨l, List.Perm.refl l, h⟩

/-- A reflexive relation relates every list to itself, so that parts which stay as
    they are need no case of their own. -/
theorem refl_of {R : α → α → Prop} (hR : ∀ a, R a a) (l : List α) : PermUpTo R l l :=
  of_forall₂ (List.forall₂_same.mpr (fun a _ => hR a))

/-- A weaker relation of the members relates the same lists. -/
theorem mono {S : α → β → Prop} (hRS : ∀ a b, R a b → S a b) (h : PermUpTo R l l') :
    PermUpTo S l l' := by
  obtain ⟨mid, hperm, hmid⟩ := h
  exact ⟨mid, hperm, hmid.imp hRS⟩

/-- And only permutations are: with equality nothing but the order is lost. -/
theorem perm {l l' : List α} (h : PermUpTo (· = ·) l l') : l.Perm l' := by
  obtain ⟨mid, hperm, hmid⟩ := h
  rw [List.forall₂_eq_eq_eq] at hmid
  exact hmid ▸ hperm

/-- The list on the left may be permuted first. -/
theorem perm_left {k : List α} (hk : k.Perm l) (h : PermUpTo R l l') : PermUpTo R k l' := by
  obtain ⟨mid, hperm, hmid⟩ := h
  exact ⟨mid, hk.trans hperm, hmid⟩

/-- So may the list on the right; the pairing of the elements is carried along. -/
theorem perm_right {k' : List β} (h : PermUpTo R l l') (hk : l'.Perm k') : PermUpTo R l k' := by
  obtain ⟨mid, hperm, hmid⟩ := h
  have hcomp : Relation.Comp (List.Forall₂ R) List.Perm mid k' := ⟨l', hmid, hk⟩
  rw [List.forall₂_comp_perm_eq_perm_comp_forall₂] at hcomp
  obtain ⟨mid', hmid', hk'⟩ := hcomp
  exact ⟨mid', hperm.trans hmid', hk'⟩

/-- Every member has one partner, so the lengths agree. -/
theorem length_eq (h : PermUpTo R l l') : l.length = l'.length := by
  obtain ⟨mid, hperm, hmid⟩ := h
  exact hperm.length_eq.trans hmid.length_eq

/-- Neither list is empty without the other. -/
theorem eq_nil_iff (h : PermUpTo R l l') : l = [] ↔ l' = [] := by
  rw [← List.length_eq_zero_iff, ← List.length_eq_zero_iff, h.length_eq]

/-- Every member has a partner on the other side. -/
theorem exists_right (h : PermUpTo R l l') {a : α} (ha : a ∈ l) : ∃ b ∈ l', R a b := by
  obtain ⟨mid, hperm, hmid⟩ := h
  have hmem := hperm.mem_iff.mp ha
  clear hperm ha
  induction hmid with
  | nil => exact nomatch hmem
  | @cons x y xs ys hxy _ ih =>
      rcases List.mem_cons.mp hmem with rfl | hmem
      · exact ⟨y, List.mem_cons_self, hxy⟩
      · obtain ⟨b, hb, hab⟩ := ih hmem
        exact ⟨b, List.mem_cons_of_mem _ hb, hab⟩

/-- Every member of the second list is the partner of one of the first. -/
theorem exists_left (h : PermUpTo R l l') {b : β} (hb : b ∈ l') : ∃ a ∈ l, R a b := by
  obtain ⟨mid, hperm, hmid⟩ := h
  have hfound : ∃ a ∈ mid, R a b := by
    clear hperm
    induction hmid with
    | nil => exact nomatch hb
    | @cons x y xs ys hxy _ ih =>
        rcases List.mem_cons.mp hb with rfl | hb
        · exact ⟨x, List.mem_cons_self, hxy⟩
        · obtain ⟨a, ha, hab⟩ := ih hb
          exact ⟨a, List.mem_cons_of_mem _ ha, hab⟩
  obtain ⟨a, ha, hab⟩ := hfound
  exact ⟨a, hperm.mem_iff.mpr ha, hab⟩

/-- Whether some member has a property, where the relation takes one property to the
    other. -/
theorem exists_iff {P : α → Prop} {Q : β → Prop} (hPQ : ∀ a b, R a b → (P a ↔ Q b))
    (h : PermUpTo R l l') : (∃ a ∈ l, P a) ↔ ∃ b ∈ l', Q b := by
  constructor
  · rintro ⟨a, ha, hP⟩
    obtain ⟨b, hb, hab⟩ := h.exists_right ha
    exact ⟨b, hb, (hPQ a b hab).mp hP⟩
  · rintro ⟨b, hb, hQ⟩
    obtain ⟨a, ha, hab⟩ := h.exists_left hb
    exact ⟨a, ha, (hPQ a b hab).mpr hQ⟩

/-- Whether all members have it. -/
theorem forall_iff {P : α → Prop} {Q : β → Prop} (hPQ : ∀ a b, R a b → (P a ↔ Q b))
    (h : PermUpTo R l l') : (∀ a ∈ l, P a) ↔ ∀ b ∈ l', Q b := by
  constructor
  · intro hP b hb
    obtain ⟨a, ha, hab⟩ := h.exists_left hb
    exact (hPQ a b hab).mp (hP a ha)
  · intro hQ a ha
    obtain ⟨b, hb, hab⟩ := h.exists_right ha
    exact (hPQ a b hab).mpr (hQ b hb)

/-- The Boolean form of `exists_iff`, for loops that stop at the first hit. -/
theorem any_eq {p : α → Bool} {q : β → Bool} (hpq : ∀ a b, R a b → p a = q b)
    (h : PermUpTo R l l') : l.any p = l'.any q := by
  rw [Bool.eq_iff_iff, List.any_eq_true, List.any_eq_true]
  exact h.exists_iff (fun a b hab => by rw [hpq a b hab])

/-- The Boolean form of `forall_iff`, for loops that stop at the first miss. -/
theorem all_eq {p : α → Bool} {q : β → Bool} (hpq : ∀ a b, R a b → p a = q b)
    (h : PermUpTo R l l') : l.all p = l'.all q := by
  rw [Bool.eq_iff_iff, List.all_eq_true, List.all_eq_true]
  exact h.forall_iff (fun a b hab => by rw [hpq a b hab])

/-- Mapping both lists by functions that keep the relation. -/
theorem map {S : γ → δ → Prop} {f : α → γ} {g : β → δ} (hfg : ∀ a b, R a b → S (f a) (g b))
    (h : PermUpTo R l l') : PermUpTo S (l.map f) (l'.map g) := by
  obtain ⟨mid, hperm, hmid⟩ := h
  refine ⟨mid.map f, hperm.map f, ?_⟩
  rw [List.forall₂_map_left_iff, List.forall₂_map_right_iff]
  exact hmid.imp hfg

/-- Concatenations are related part by part. -/
theorem append {k : List α} {k' : List β} (h : PermUpTo R l l') (hk : PermUpTo R k k') :
    PermUpTo R (l ++ k) (l' ++ k') := by
  obtain ⟨mid, hperm, hmid⟩ := h
  obtain ⟨midk, hpermk, hmidk⟩ := hk
  exact ⟨mid ++ midk, hperm.append hpermk, List.rel_append hmid hmidk⟩

/-- The groups of two outer loops, laid end to end. -/
theorem flatten {ls : List (List α)} {ls' : List (List β)}
    (h : PermUpTo (PermUpTo R) ls ls') : PermUpTo R ls.flatten ls'.flatten := by
  obtain ⟨mid, hperm, hmid⟩ := h
  have hflat : PermUpTo R mid.flatten ls'.flatten := by
    clear hperm
    induction hmid with
    | nil => exact ⟨[], List.Perm.refl [], List.Forall₂.nil⟩
    | cons hxy _ ih => exact hxy.append ih
  obtain ⟨midFlat, hpermFlat, hmidFlat⟩ := hflat
  exact ⟨midFlat, hperm.flatten.trans hpermFlat, hmidFlat⟩

/-- **LOOPS DO NOT SEE THE ORDER**: where each step that succeeds on a member succeeds on its
    partner, a loop that gets through the first list gets through the second, and the results
    agree up to order. -/
theorem forall₂ {R : α → α → Prop} {S : β → β → Prop} {F : α → β → Prop} {l l' : List α}
    {r : List β} (h : PermUpTo R l l') (hr : List.Forall₂ F l r)
    (hF : ∀ a a' b, R a a' → F a b → ∃ b', F a' b' ∧ S b b') :
    ∃ r', List.Forall₂ F l' r' ∧ PermUpTo S r r' := by
  obtain ⟨mid, hperm, hmid⟩ := h
  obtain ⟨r₂, hr₂, hpermr⟩ := List.perm_comp_forall₂ hperm.symm hr
  have hstep : ∃ r', List.Forall₂ F l' r' ∧ List.Forall₂ S r₂ r' := by
    clear hperm hpermr
    induction hmid generalizing r₂ with
    | nil =>
        cases hr₂
        exact ⟨[], List.Forall₂.nil, List.Forall₂.nil⟩
    | cons hxy _ ih =>
        cases hr₂ with
        | cons hb hrest =>
            obtain ⟨b', hb', hS⟩ := hF _ _ _ hxy hb
            obtain ⟨r', hr', hSr⟩ := ih _ hrest
            exact ⟨b' :: r', List.Forall₂.cons hb' hr', List.Forall₂.cons hS hSr⟩
  obtain ⟨r', hr', hS⟩ := hstep
  exact ⟨r', hr', r₂, hpermr.symm, hS⟩

end PermUpTo

/-- A loop that collects results gets through exactly when every step does. -/
theorem mapM_ok_iff {ε : Type} {f : α → Except ε β} {l : List α} {r : List β} :
    l.mapM f = .ok r ↔ List.Forall₂ (fun a b => f a = .ok b) l r := by
  induction l generalizing r with
  | nil =>
      rw [List.mapM_nil]
      constructor
      · intro h
        cases h
        exact List.Forall₂.nil
      · intro h
        cases h
        rfl
  | cons a l ih =>
      rw [List.mapM_cons]
      constructor
      · intro h
        cases hfa : f a with
        | error e =>
            rw [hfa] at h
            exact nomatch h
        | ok b =>
            cases hrest : l.mapM f with
            | error e =>
                rw [hfa, hrest] at h
                exact nomatch h
            | ok bs =>
                rw [hfa, hrest] at h
                cases h
                exact List.Forall₂.cons hfa (ih.mp hrest)
      · intro h
        cases h with
        | cons hb hbs =>
            rw [hb, ih.mpr hbs]
            rfl

/-- A fallible function that takes partners to partners succeeds on both lists or on
    neither, and its results are related up to order. -/
theorem PermUpTo.mapM {ε : Type} {R : α → α → Prop} {S : β → β → Prop} {f : α → Except ε β}
    {l l' : List α} {r : List β} (h : PermUpTo R l l') (hr : l.mapM f = .ok r)
    (hf : ∀ a a' b, R a a' → f a = .ok b → ∃ b', f a' = .ok b' ∧ S b b') :
    ∃ r', l'.mapM f = .ok r' ∧ PermUpTo S r r' := by
  obtain ⟨r', hr', hsame⟩ := h.forall₂ (mapM_ok_iff.mp hr) hf
  exact ⟨r', mapM_ok_iff.mpr hr', hsame⟩

/-- A list of answers, one per element, is what filtering by the answers gives. -/
theorem filterMap_of_forall₂ {g : α → Option β} {l : List α} {r : List β}
    (h : List.Forall₂ (fun a b => g a = some b) l r) : l.filterMap g = r := by
  induction h with
  | nil => rfl
  | cons hab _ ih => rw [List.filterMap_cons_some hab, ih]

/-- A list of values, one per element, is what mapping gives. -/
theorem map_of_forall₂ {g : α → β} {l : List α} {r : List β}
    (h : List.Forall₂ (fun a b => g a = b) l r) : l.map g = r := by
  induction h with
  | nil => rfl
  | cons hab _ ih => rw [List.map_cons, hab, ih]

/-- Two element-wise relations one after the other, as between a list, what it is
    parsed to and what that is turned into. -/
theorem forall₂_comp {R : α → β → Prop} {S : β → γ → Prop} {T : α → γ → Prop}
    (hT : ∀ a b c, R a b → S b c → T a c) {l : List α} {r : List β} {t : List γ}
    (hR : List.Forall₂ R l r) (hS : List.Forall₂ S r t) : List.Forall₂ T l t := by
  induction hR generalizing t with
  | nil =>
      cases hS
      exact List.Forall₂.nil
  | cons hab _ ih =>
      cases hS with
      | cons hbc hrest => exact List.Forall₂.cons (hT _ _ _ hab hbc) (ih hrest)

end Reorder
