import VBuckets.ByteStringProofs

/-! # Path segments

    What a receiver may do to a slash-separated path: remove its dot segments, collapse
    its repeated slashes.  A path without dot segments is not changed by the first, and
    neither takes a path out from under a prefix that ends in a slash and has no empty
    segment. -/

namespace Path

open ByteString

/-! ## Dot segments -/

/-- The segments that a server may resolve. -/
def isDotSegment (segment : Bytes) : Bool := segment == ascii "." || segment == ascii ".."

/-- No segment is `.` or `..`. -/
def NoDots (path : Bytes) : Prop := ∀ segment ∈ split 47 path, isDotSegment segment = false

/-- Drop `.` and let `..` take away the segment before it. -/
def dropDots : List Bytes → List Bytes → List Bytes
  | kept, [] => kept.reverse
  | kept, segment :: rest =>
      if segment = ascii "." then dropDots kept rest
      else if segment = ascii ".." then dropDots kept.tail rest
      else dropDots (segment :: kept) rest

/-- A path with its dot segments resolved, as a server between proxy and origin might
    do it. -/
def removeDotSegments (path : Bytes) : Bytes := join 47 (dropDots [] (split 47 path))

/-- Without dot segments nothing is dropped. -/
theorem dropDots_of_noDots {segments : List Bytes}
    (h : ∀ segment ∈ segments, isDotSegment segment = false) (kept : List Bytes) :
    dropDots kept segments = kept.reverse ++ segments := by
  induction segments generalizing kept with
  | nil => simp [dropDots]
  | cons segment rest ih =>
      have hseg := h segment List.mem_cons_self
      rw [isDotSegment, Bool.or_eq_false_iff, beq_eq_false_iff_ne, beq_eq_false_iff_ne] at hseg
      rw [dropDots, if_neg hseg.1, if_neg hseg.2,
        ih (fun s hs => h s (List.mem_cons_of_mem _ hs))]
      simp

/-- So such a path stays as it is. -/
theorem removeDotSegments_eq {path : Bytes} (h : NoDots path) : removeDotSegments path = path := by
  rw [removeDotSegments, dropDots_of_noDots h]
  exact join_split path

theorem noDots_append {a b : Bytes} (ha : NoDots a) (hb : NoDots b) : NoDots (a ++ 47 :: b) := by
  intro segment hseg
  rw [split_append] at hseg
  rcases List.mem_append.mp hseg with hseg | hseg
  · exact ha segment hseg
  · exact hb segment hseg

theorem noDots_nil : NoDots [] :=
  fun segment hseg => by
    rw [List.mem_singleton.mp hseg]
    rfl

/-! ## Repeated slashes -/

/-- A path with repeated slashes collapsed, which some servers do as well. -/
def collapseSlashes : Bytes → Bytes
  | [] => []
  | b :: s => if b = 47 ∧ s.head? = some 47 then collapseSlashes s else b :: collapseSlashes s

/-- No two slashes stand next to each other. -/
def noDoubleSlash : Bytes → Bool
  | [] => true
  | b :: s => !(b == 47 && s.head? == some 47) && noDoubleSlash s

theorem head_collapseSlashes (s : Bytes) : (collapseSlashes s).head? = s.head? := by
  induction s with
  | nil => rfl
  | cons b s ih =>
      rw [collapseSlashes]
      split
      · next h => rw [ih, h.2, List.head?_cons, h.1]
      · rfl

/-- A prefix without doubled slashes survives collapsing. -/
theorem prefix_collapseSlashes {p : Bytes} (h : noDoubleSlash p = true) (k : Bytes) :
    p <+: collapseSlashes (p ++ k) := by
  induction p with
  | nil => exact List.nil_prefix
  | cons b s ih =>
      rw [noDoubleSlash, Bool.and_eq_true] at h
      obtain ⟨hb, hs⟩ := h
      rw [List.cons_append, collapseSlashes]
      split
      · -- only the last slash of the prefix can be followed by another
        next hdouble =>
          cases s with
          | nil =>
              rw [hdouble.1]
              have hhead := head_collapseSlashes ([] ++ k)
              rw [hdouble.2] at hhead
              obtain ⟨t, ht⟩ := List.head?_eq_some_iff.mp hhead
              rw [ht]
              exact ⟨t, rfl⟩
          | cons c s =>
              have hc : c = 47 := Option.some.inj hdouble.2
              simp [hdouble.1, hc] at hb
      · exact List.cons_prefix_cons.mpr ⟨rfl, ih hs⟩

/-- Collapsing drops empty segments only. -/
theorem noDots_collapseSlashes {path : Bytes} (h : NoDots path) :
    NoDots (collapseSlashes path) := by
  have hsub : ∀ s : Bytes, ∃ w ws v vs, split 47 s = w :: ws ∧
      split 47 (collapseSlashes s) = v :: vs ∧ v = w ∧ ∀ x ∈ vs, x ∈ ws := by
    intro s
    induction s with
    | nil => exact ⟨[], [], [], [], rfl, rfl, rfl, fun x hx => nomatch hx⟩
    | cons b s ih =>
        obtain ⟨w, ws, v, vs, hw, hv, rfl, hsub⟩ := ih
        rw [collapseSlashes]
        split
        · next hdouble =>
            -- the text goes on with a slash, so its first segment is empty
            cases s with
            | nil => exact nomatch hdouble.2
            | cons c s =>
                have hc : c = 47 := Option.some.inj hdouble.2
                have hempty : v = [] := by
                  rw [split, if_pos hc] at hw
                  exact (List.cons.inj hw).1.symm
                refine ⟨[], v :: ws, v, vs, ?_, hv, hempty, ?_⟩
                · rw [split, if_pos hdouble.1, hw]
                · exact fun x hx => List.mem_cons_of_mem _ (hsub x hx)
        · by_cases hb : b = 47
          · refine ⟨[], v :: ws, [], v :: vs, ?_, ?_, rfl, ?_⟩
            · rw [split, if_pos hb, hw]
            · rw [split, if_pos hb, hv]
            · intro x hx
              rcases List.mem_cons.mp hx with rfl | hx
              · exact List.mem_cons_self
              · exact List.mem_cons_of_mem _ (hsub x hx)
          · refine ⟨b :: v, ws, b :: v, vs, ?_, ?_, rfl, hsub⟩
            · rw [split, if_neg hb, hw]
            · rw [split, if_neg hb, hv]
  obtain ⟨w, ws, v, vs, hw, hv, rfl, hmem⟩ := hsub path
  intro segment hseg
  rw [hv] at hseg
  refine h segment ?_
  rw [hw]
  rcases List.mem_cons.mp hseg with rfl | hseg
  · exact List.mem_cons_self
  · exact List.mem_cons_of_mem _ (hmem segment hseg)

/-! ## Prefixes -/

/-- Doubled slashes are empty segments inside a path. -/
theorem noDoubleSlash_of_inner {s : Bytes}
    (h : ∀ segment ∈ (split 47 s).tail.dropLast, segment ≠ []) : noDoubleSlash s = true := by
  induction s with
  | nil => rfl
  | cons b s ih =>
      obtain ⟨w, ws, hw⟩ := List.exists_cons_of_ne_nil (split_ne_nil 47 s)
      rw [noDoubleSlash, Bool.and_eq_true]
      by_cases hb : b = 47
      · rw [split, if_pos hb, hw, List.tail_cons] at h
        refine ⟨?_, ih ?_⟩
        · -- a second slash would make the segment between them empty
          rw [Bool.not_eq_true', Bool.and_eq_false_iff]
          right
          rw [beq_eq_false_iff_ne]
          intro hhead
          obtain ⟨t, rfl⟩ := List.head?_eq_some_iff.mp hhead
          rw [split, if_pos rfl] at hw
          obtain ⟨rfl, rfl⟩ := List.cons.inj hw
          refine h [] ?_ rfl
          rw [List.dropLast_cons_of_ne_nil (split_ne_nil _ t)]
          exact List.mem_cons_self
        · rw [hw, List.tail_cons]
          intro segment hseg
          refine h segment ?_
          cases ws with
          | nil => cases hseg
          | cons v vs => exact List.mem_cons_of_mem _ hseg
      · rw [split, if_neg hb, hw, List.tail_cons] at h
        rw [hw, List.tail_cons] at ih
        exact ⟨by simp [hb], ih h⟩

/-- A prefix of non-empty segments, closed by a slash. -/
theorem noDoubleSlash_of_segments {p : Bytes}
    (h : ∀ segment ∈ split 47 p, segment ≠ []) : noDoubleSlash (p ++ [47]) = true := by
  obtain ⟨w, ws, hw⟩ := List.exists_cons_of_ne_nil (split_ne_nil 47 p)
  refine noDoubleSlash_of_inner ?_
  intro segment hseg
  refine h segment ?_
  have hsplit : split 47 (p ++ [47]) = w :: (ws ++ [[]]) := by
    rw [split_append, hw]
    rfl
  rw [hsplit, List.tail_cons, List.dropLast_concat] at hseg
  rw [hw]
  exact List.mem_cons_of_mem _ hseg

end Path
