import VBuckets.TargetProofs

/-! # Hosts and base domains

    A request names its bucket in the host, in front of a registered base domain, or in
    the path.  The host is normalised twice: `resolveBucket` drops the port, brackets and
    one dot and lowers what is left; `LookupBaseHost` trims spaces and a second dot.  The
    cut is made in the first normal form with a domain found in the second.

    * **`longestSuffix_iff`** — the probe of the labels, longest first, finds the longest
      registered domain that is the host or ends it after a dot.
    * **`canonicalHost_labels`** — a host of valid labels is in both normal forms, so
      wherever the cut yields a valid bucket name the two agree.
    * **`requestHost_spelled`** — the first normal form of the usual spellings. -/

namespace Domain

open ByteString

/-! ## Dot-delimited suffixes -/

/-- The domain is the host, or ends it after a dot. -/
def DotSuffix (d host : Bytes) : Prop := d = host ∨ 46 :: d <:+ host

theorem DotSuffix.length_le {d host : Bytes} (h : DotSuffix d host) : d.length ≤ host.length := by
  rcases h with rfl | h
  · exact Nat.le_refl _
  · have hlength := h.length_le
    rw [List.length_cons] at hlength
    omega

theorem DotSuffix.eq_of_length {d host : Bytes} (h : DotSuffix d host)
    (hlength : host.length ≤ d.length) : d = host := by
  rcases h with rfl | h
  · rfl
  · have hshort := h.length_le
    rw [List.length_cons] at hshort
    omega

/-- Below a label, suffixes are suffixes of what follows the label. -/
theorem dot_suffix_append_iff {label d s : Bytes} (h : (46 : UInt8) ∉ label) :
    46 :: d <:+ label ++ 46 :: s ↔ DotSuffix d s := by
  induction label with
  | nil =>
      rw [List.nil_append, List.suffix_cons_iff]
      exact or_congr_left ⟨fun he => (List.cons.inj he).2, fun he => by rw [he]⟩
  | cons b label ih =>
      rw [List.mem_cons, not_or] at h
      rw [List.cons_append, List.suffix_cons_iff, ih h.2]
      exact or_iff_right (fun he => h.1 (List.cons.inj he).1)

theorem dotSuffix_cons_iff {label d : Bytes} {labels : List Bytes} (h : (46 : UInt8) ∉ label)
    (hne : labels ≠ []) :
    DotSuffix d (join 46 (label :: labels)) ↔
      d = join 46 (label :: labels) ∨ DotSuffix d (join 46 labels) := by
  obtain ⟨next, rest, rfl⟩ := List.exists_cons_of_ne_nil hne
  exact or_congr_right (dot_suffix_append_iff h)

theorem dotSuffix_label_iff {label d : Bytes} (h : (46 : UInt8) ∉ label) :
    DotSuffix d label ↔ d = label :=
  or_iff_left (fun hs => h (hs.subset List.mem_cons_self))

/-! ## The probe -/

/-- A registered suffix that no other one exceeds. -/
structure Longest (registered : Bytes → Bool) (host d : Bytes) : Prop where
  known : registered d = true
  suffix_ : DotSuffix d host
  longest : ∀ d', registered d' = true → DotSuffix d' host → d'.length ≤ d.length

/-- **LONGEST MATCH**: the loop finds exactly the longest registered suffix. -/
theorem longestSuffix_iff {registered : Bytes → Bool} {labels : List Bytes} {d : Bytes}
    (hdots : ∀ label ∈ labels, (46 : UInt8) ∉ label) (hne : labels ≠ []) :
    longestSuffix registered labels = some d ↔ Longest registered (join 46 labels) d := by
  induction labels with
  | nil => exact absurd rfl hne
  | cons label labels ih =>
      have hlabel := hdots label List.mem_cons_self
      rw [longestSuffix]
      by_cases hknown : registered (join 46 (label :: labels)) = true
      · rw [if_pos hknown]
        constructor
        · intro h
          cases h
          exact ⟨hknown, Or.inl rfl, fun d' _ hs => hs.length_le⟩
        · intro h
          exact congrArg some (h.suffix_.eq_of_length (h.longest _ hknown (Or.inl rfl))).symm
      · rw [if_neg hknown]
        -- the whole host is not registered, so only what follows the label counts
        have hother : ∀ d', registered d' = true → d' ≠ join 46 (label :: labels) := by
          rintro d' hd' rfl
          exact hknown hd'
        by_cases hlast : labels = []
        · subst hlast
          refine iff_of_false (fun h => (nomatch h)) (fun h => ?_)
          exact hother d h.known ((dotSuffix_label_iff hlabel).mp h.suffix_)
        · rw [ih (fun l hl => hdots l (List.mem_cons_of_mem _ hl)) hlast]
          constructor
          · intro h
            refine ⟨h.known, (dotSuffix_cons_iff hlabel hlast).mpr (Or.inr h.suffix_), ?_⟩
            intro d' hd' hs
            rcases (dotSuffix_cons_iff hlabel hlast).mp hs with hwhole | hs
            · exact absurd hwhole (hother d' hd')
            · exact h.longest d' hd' hs
          · intro h
            refine ⟨h.known, ?_, fun d' hd' hs => h.longest d' hd' (Or.inr ?_)⟩
            · exact ((dotSuffix_cons_iff hlabel hlast).mp h.suffix_).resolve_left
                (hother d h.known)
            · obtain hwhole | hs := (dotSuffix_cons_iff hlabel hlast).mpr (Or.inr hs)
              · exact absurd hwhole (hother d' hd')
              · exact hs

/-- If some registered domain ends the host, the loop finds one. -/
theorem exists_longestSuffix {registered : Bytes → Bool} {labels : List Bytes}
    (hdots : ∀ label ∈ labels, (46 : UInt8) ∉ label) (hne : labels ≠ []) {d : Bytes}
    (hknown : registered d = true) (hs : DotSuffix d (join 46 labels)) :
    ∃ d', longestSuffix registered labels = some d' := by
  induction labels with
  | nil => exact absurd rfl hne
  | cons label labels ih =>
      have hlabel := hdots label List.mem_cons_self
      rw [longestSuffix]
      by_cases hwhole : registered (join 46 (label :: labels)) = true
      · rw [if_pos hwhole]
        exact ⟨_, rfl⟩
      · rw [if_neg hwhole]
        have hother : d ≠ join 46 (label :: labels) := by
          rintro rfl
          exact hwhole hknown
        by_cases hlast : labels = []
        · subst hlast
          exact absurd ((dotSuffix_label_iff hlabel).mp hs) hother
        · exact ih (fun l hl => hdots l (List.mem_cons_of_mem _ hl)) hlast
            (((dotSuffix_cons_iff hlabel hlast).mp hs).resolve_left hother)

/-! ## Hosts of valid labels -/

/-- The labels of a host are valid. -/
def ValidHost (host : Bytes) : Prop := ∀ label ∈ split 46 host, validLabel label = true

section
variable {label host : Bytes}

/-- Labels consist of letters, digits and hyphens. -/
theorem validLabel_bytes (h : validLabel label = true) : ∀ b ∈ label, isLabelByte b = true := by
  simp only [validLabel, Bool.and_eq_true] at h
  exact List.all_eq_true.mp h.2

/-- They contain no dot, so a host has one way of being split into labels. -/
theorem dot_notMem_of_validLabel (h : validLabel label = true) : (46 : UInt8) ∉ label :=
  fun hmem => absurd (validLabel_bytes h 46 hmem) (by decide)

theorem validLabel_ne_nil (h : validLabel label = true) : label ≠ [] := by
  rintro rfl
  exact absurd h (by decide)

/-- A host consists of the bytes of labels and of dots. -/
theorem ValidHost.bytes (h : ValidHost host) : ∀ b ∈ host, isLabelByte b = true ∨ b = 46 := by
  intro b hb
  by_cases hdot : b = 46
  · exact Or.inr hdot
  · left
    by_contra hbad
    have hnone : b ∉ join 46 (split 46 host) :=
      mem_join_notMem hdot (fun label hl hmem => hbad (validLabel_bytes (h label hl) b hmem))
    rw [join_split] at hnone
    exact hnone hb

theorem ValidHost.ne_nil (h : ValidHost host) : host ≠ [] := by
  rintro rfl
  exact validLabel_ne_nil (h [] (List.mem_singleton.mpr rfl)) rfl

theorem ValidHost.dots (h : ValidHost host) : ∀ label ∈ split 46 host, (46 : UInt8) ∉ label :=
  fun label hl => dot_notMem_of_validLabel (h label hl)

theorem ValidHost.cons (h : ValidHost host) (hlabel : validLabel label = true) :
    ValidHost (label ++ 46 :: host) := by
  intro l hl
  rw [split_append, split_of_notMem (dot_notMem_of_validLabel hlabel)] at hl
  rcases List.mem_cons.mp hl with rfl | hl
  · exact hlabel
  · exact h l hl

/-- All these bytes are ASCII, no blanks and in lower case already, so normalising
    changes none of them. -/
theorem isLabelByte_ascii {b : UInt8} (h : isLabelByte b = true ∨ b = 46) :
    (b < 0x80 ∧ isASCIISpace b = false) ∧ lowerASCII b = b :=
  forall_byte (P := fun b => isLabelByte b = true ∨ b = 46 →
    (b < 0x80 ∧ isASCIISpace b = false) ∧ lowerASCII b = b) (by decide +kernel) b h

theorem toLower_of_lower {s : Bytes} (h : ∀ b ∈ s, b < 0x80 ∧ lowerASCII b = b) :
    toLower s = s := by
  induction s with
  | nil => rfl
  | cons b s ih =>
      obtain ⟨hlt, hlower⟩ := h b List.mem_cons_self
      rw [toLower_cons hlt, hlower, ih (fun c hc => h c (List.mem_cons_of_mem _ hc))]

/-- A host does not end in a dot: behind it would stand an empty label. -/
theorem ValidHost.last (h : ValidHost host) : host.getLast? ≠ some 46 := by
  intro hlast
  obtain ⟨t, ht⟩ := List.getLast?_eq_some_iff.mp hlast
  have hmem : ([] : Bytes) ∈ split 46 host := by
    rw [ht, split_append]
    exact List.mem_append_right _ (List.mem_singleton.mpr rfl)
  exact validLabel_ne_nil (h [] hmem) rfl

/-- **BOTH NORMAL FORMS**: a host of the bytes of labels that does not end in a dot is looked
    up as it is. -/
theorem canonicalHost_of_bytes (hbytes : ∀ b ∈ host, isLabelByte b = true ∨ b = 46)
    (hlast : host.getLast? ≠ some 46) : canonicalHost host = host := by
  have hascii := fun b hb => isLabelByte_ascii (hbytes b hb)
  have hspace : trimSpace host = host :=
    (S3.NoSpace.of_ascii (fun b hb => (hascii b hb).1)).trimSpace_eq
  have hdot : hasSuffix host (ascii ".") = false := by
    rw [Bool.eq_false_iff]
    intro hsuffix
    obtain ⟨t, ht⟩ := hasSuffix_iff.mp hsuffix
    refine hlast ?_
    rw [← ht]
    exact List.getLast?_concat
  rw [canonicalHost, hspace, trimSuffix, hdot, if_neg Bool.false_ne_true]
  exact toLower_of_lower (fun b hb => ⟨(hascii b hb).1.1, (hascii b hb).2⟩)

/-- A valid host is its own canonical form. -/
theorem canonicalHost_labels (h : ValidHost host) : canonicalHost host = host :=
  canonicalHost_of_bytes h.bytes h.last

end

/-! ## The lookup -/

section
variable {registered : Bytes → Bool} {hostname : Bytes} {result : Option Bytes}

/-- What the lookup checked on its way to an answer. -/
theorem lookupBaseHost_ok_iff (hip : parseIP (canonicalHost hostname) = false) :
    lookupBaseHost registered hostname = .ok result ↔
      (ValidHost (canonicalHost hostname) ∧ (canonicalHost hostname).length ≤ 253) ∧
        result = longestSuffix registered (split 46 (canonicalHost hostname)) := by
  rw [lookupBaseHost, hip, if_neg Bool.false_ne_true]
  -- the checks in the order of the source: length, labels, then the loop
  by_cases hlength : (decide ((canonicalHost hostname).length = 0) ||
      decide (253 < (canonicalHost hostname).length)) = true
  · rw [if_pos hlength]
    refine iff_of_false (fun h => (by cases h)) ?_
    rintro ⟨⟨hvalid, hle⟩, -⟩
    rw [Bool.or_eq_true, decide_eq_true_eq, decide_eq_true_eq] at hlength
    rcases hlength with hzero | hlong
    · exact hvalid.ne_nil (List.length_eq_zero_iff.mp hzero)
    · omega
  · rw [if_neg hlength]
    rw [Bool.or_eq_true, decide_eq_true_eq, decide_eq_true_eq, not_or, not_lt] at hlength
    by_cases hvalid : (split 46 (canonicalHost hostname)).all validLabel = true
    · rw [hvalid, Bool.not_true, if_neg Bool.false_ne_true]
      constructor
      · intro h
        exact ⟨⟨List.all_eq_true.mp hvalid, hlength.2⟩, (Except.ok.inj h).symm⟩
      · rintro ⟨-, rfl⟩
        rfl
    · rw [Bool.eq_false_iff.mpr hvalid, Bool.not_false, if_pos rfl]
      refine iff_of_false (fun h => (by cases h)) ?_
      rintro ⟨⟨hall, -⟩, -⟩
      exact hvalid (List.all_eq_true.mpr hall)

/-- **LONGEST SUFFIX**: what an answered lookup of a name says. -/
theorem lookupBaseHost_longest (hip : parseIP (canonicalHost hostname) = false)
    (h : lookupBaseHost registered hostname = .ok result) :
    (∀ d, result = some d ↔ Longest registered (canonicalHost hostname) d) ∧
      (result.isSome = true ↔
        ∃ d, registered d = true ∧ DotSuffix d (canonicalHost hostname)) := by
  obtain ⟨⟨hvalid, -⟩, rfl⟩ := (lookupBaseHost_ok_iff hip).mp h
  have hfound : ∀ d, longestSuffix registered (split 46 (canonicalHost hostname)) = some d ↔
      Longest registered (canonicalHost hostname) d := by
    intro d
    have hiff : longestSuffix registered (split 46 (canonicalHost hostname)) = some d ↔
        Longest registered (join 46 (split 46 (canonicalHost hostname))) d :=
      longestSuffix_iff hvalid.dots (split_ne_nil 46 _)
    rw [join_split] at hiff
    exact hiff
  refine ⟨hfound, ?_⟩
  constructor
  · intro hsome
    obtain ⟨d, hd⟩ := Option.isSome_iff_exists.mp hsome
    exact ⟨d, ((hfound d).mp hd).known, ((hfound d).mp hd).suffix_⟩
  · rintro ⟨d, hknown, hs⟩
    have hjoined : DotSuffix d (join 46 (split 46 (canonicalHost hostname))) := by
      rw [join_split]
      exact hs
    obtain ⟨d', hd'⟩ := exists_longestSuffix hvalid.dots (split_ne_nil 46 _) hknown hjoined
    rw [hd']
    rfl

end

/-! ## Accepted domains -/

section
variable {hasETLDPlusOne : Bytes → Bool} {registered : Bytes → Bool} {d : Bytes}

/-- A domain `normalizeBaseDomain` returned. -/
def Accepted (hasETLDPlusOne : Bytes → Bool) (d : Bytes) : Prop :=
  ∃ value, normalizeBaseDomain hasETLDPlusOne value = .ok d

/-- What the registry accepts is a valid host of limited length that is no address. -/
theorem Accepted.spec (h : Accepted hasETLDPlusOne d) :
    ValidHost d ∧ d.length ≤ 253 ∧ parseIP d = false := by
  obtain ⟨value, h⟩ := h
  simp only [normalizeBaseDomain] at h
  split at h
  · exact nomatch h
  next hchecks =>
  split at h
  · exact nomatch h
  next hlabels =>
  split at h
  · exact nomatch h
  cases h
  simp only [Bool.or_eq_true, decide_eq_true_eq, not_or, Bool.not_eq_true] at hchecks
  rw [Bool.not_eq_true', Bool.not_eq_false] at hlabels
  obtain ⟨⟨⟨⟨⟨⟨⟨-, hlength⟩, -⟩, -⟩, -⟩, -⟩, -⟩, hip⟩ := hchecks
  exact ⟨List.all_eq_true.mp hlabels, not_lt.mp hlength, hip⟩

/-- Labels in front of a domain. -/
def under (labels : List Bytes) (d : Bytes) : Bytes := join 46 (labels ++ [d])

theorem under_cons (label : Bytes) (labels : List Bytes) (d : Bytes) :
    under (label :: labels) d = label ++ 46 :: under labels d := by
  obtain ⟨next, rest, heq⟩ := List.exists_cons_of_ne_nil
    (List.append_ne_nil_of_right_ne_nil labels (List.cons_ne_nil d []))
  rw [under, under, List.cons_append, heq]
  rfl

/-- Valid labels in front of a valid host make a valid host. -/
theorem validHost_under (h : ValidHost d) {labels : List Bytes}
    (hlabels : ∀ label ∈ labels, validLabel label = true) : ValidHost (under labels d) := by
  induction labels with
  | nil => exact h
  | cons label labels ih =>
      rw [under_cons]
      exact (ih (fun l hl => hlabels l (List.mem_cons_of_mem _ hl))).cons
        (hlabels label List.mem_cons_self)

/-- Which then has the host as a suffix. -/
theorem dotSuffix_under {labels : List Bytes}
    (hlabels : ∀ label ∈ labels, validLabel label = true) : DotSuffix d (under labels d) := by
  induction labels with
  | nil => exact Or.inl rfl
  | cons label labels ih =>
      rw [under_cons]
      right
      exact (dot_suffix_append_iff (dot_notMem_of_validLabel (hlabels label List.mem_cons_self))).mpr
        (ih (fun l hl => hlabels l (List.mem_cons_of_mem _ hl)))

/-- **DOMAINS ARE FOUND** under any labels. -/
theorem lookup_under (h : ValidHost d) (hknown : registered d = true) {labels : List Bytes}
    (hlabels : ∀ label ∈ labels, validLabel label = true) (hlength : (under labels d).length ≤ 253)
    (hip : parseIP (under labels d) = false) :
    ∃ d', lookupBaseHost registered (under labels d) = .ok (some d') ∧
      Longest registered (under labels d) d' := by
  have hvalid := validHost_under h hlabels
  have hcanonical := canonicalHost_labels hvalid
  have hip' : parseIP (canonicalHost (under labels d)) = false := by
    rw [hcanonical]
    exact hip
  have hanswer : lookupBaseHost registered (under labels d) =
      .ok (longestSuffix registered (split 46 (canonicalHost (under labels d)))) := by
    refine (lookupBaseHost_ok_iff hip').mpr ⟨?_, rfl⟩
    rw [hcanonical]
    exact ⟨hvalid, hlength⟩
  obtain ⟨hlongest, hfound⟩ := lookupBaseHost_longest hip' hanswer
  rw [hcanonical] at hlongest hfound hanswer
  obtain ⟨d', hd'⟩ := Option.isSome_iff_exists.mp (hfound.mpr ⟨d, hknown, dotSuffix_under hlabels⟩)
  refine ⟨d', ?_, (hlongest d').mp hd'⟩
  rw [hanswer, hd']

/-- The longest suffix of a registered domain is the domain. -/
theorem Longest.eq_self {d' : Bytes} (h : Longest registered d d') (hknown : registered d = true) :
    d' = d :=
  h.suffix_.eq_of_length (h.longest d hknown (Or.inl rfl))

end

end Domain

namespace S3

open ByteString Url Http Mapping Domain ControlPlane

/-! ## The host of a request -/

/-- A text without brackets. -/
def Unbracketed (s : Bytes) : Prop := (91 : UInt8) ∉ s ∧ (93 : UInt8) ∉ s

/-- A host as a request may write it: with or without a port, with or without brackets.
    The brackets allow colons, the plain forms do not. -/
inductive HostSpelling : Bytes → Bytes → Prop
  | plain {host : Bytes} (hcolon : (58 : UInt8) ∉ host) (hhost : Unbracketed host) :
      HostSpelling host host
  | port {host port : Bytes} (hcolon : (58 : UInt8) ∉ host) (hhost : Unbracketed host)
      (hport : (58 : UInt8) ∉ port) (hbare : Unbracketed port) :
      HostSpelling (host ++ 58 :: port) host
  | brackets {host : Bytes} (hhost : Unbracketed host) : HostSpelling (91 :: (host ++ [93])) host
  | bracketsPort {host port : Bytes} (hhost : Unbracketed host) (hport : (58 : UInt8) ∉ port)
      (hbare : Unbracketed port) : HostSpelling (91 :: (host ++ 93 :: 58 :: port)) host

theorem cutLast_append {sep : UInt8} {s t : Bytes} (h : sep ∉ t) :
    cutLast sep (s ++ sep :: t) = some (s, t) := by
  have hrev : (s ++ sep :: t).reverse = t.reverse ++ sep :: s.reverse := by
    rw [List.reverse_append, List.reverse_cons, List.append_assoc]
    rfl
  rw [cutLast, hrev, cut_append (fun hm => h (List.mem_reverse.mp hm))]
  simp only [List.reverse_reverse]

theorem cutLast_of_notMem {sep : UInt8} {s : Bytes} (h : sep ∉ s) : cutLast sep s = none := by
  rw [cutLast, cut_of_notMem (fun hm => h (List.mem_reverse.mp hm))]

/-- What stands before the last separator is shorter. -/
theorem cutLast_length {sep : UInt8} {s before after : Bytes}
    (h : cutLast sep s = some (before, after)) : before.length < s.length := by
  by_cases hmem : sep ∈ s
  · obtain ⟨t, u, hrev, ht⟩ := List.eq_append_cons_of_mem (List.mem_reverse.mpr hmem)
    have hs : s = u.reverse ++ sep :: t.reverse := by
      rw [← List.reverse_reverse s, hrev, List.reverse_append, List.reverse_cons,
        List.append_assoc]
      rfl
    rw [hs, cutLast_append (fun hm => ht (List.mem_reverse.mp hm))] at h
    cases h
    rw [hs, List.length_append, List.length_cons]
    omega
  · rw [cutLast_of_notMem hmem] at h
    exact nomatch h

/-- An address in brackets ends at the first closing one. -/
theorem takeWhile_bracket {host t : Bytes} (h : (93 : UInt8) ∉ host) :
    (91 :: (host ++ 93 :: t)).takeWhile (· != 93) = 91 :: host := by
  have hhost : ∀ b ∈ 91 :: host, (b != 93) = true := by
    intro b hb
    rw [bne_iff_ne]
    rintro rfl
    rcases List.mem_cons.mp hb with hb | hb
    · exact absurd hb (by decide)
    · exact h hb
  rw [← List.cons_append, List.takeWhile_append_of_pos hhost]
  simp

/-- Dropping brackets leaves a text without them alone. -/
theorem dropWhile_unbracketed {s t : Bytes} (h : Unbracketed s) (hs : s ≠ []) :
    (s ++ t).dropWhile (fun c : UInt8 => c == 91 || c == 93) = s ++ t := by
  cases s with
  | nil => exact absurd rfl hs
  | cons c s =>
      refine List.dropWhile_cons_of_neg ?_
      rw [Bool.or_eq_true, beq_iff_eq, beq_iff_eq]
      rintro (rfl | rfl)
      · exact h.1 List.mem_cons_self
      · exact h.2 List.mem_cons_self

/-- Removing the brackets gives the address back. -/
theorem trimBrackets_brackets {host : Bytes} (h : Unbracketed host) :
    trimBrackets (91 :: (host ++ [93])) = host := by
  by_cases hnil : host = []
  · subst hnil
    rfl
  · have hrev : Unbracketed host.reverse :=
      ⟨fun hm => h.1 (List.mem_reverse.mp hm), fun hm => h.2 (List.mem_reverse.mp hm)⟩
    have hback : host.reverse.dropWhile (fun c : UInt8 => c == 91 || c == 93) = host.reverse := by
      have hdrop := dropWhile_unbracketed (t := []) hrev (fun he => hnil (List.reverse_eq_nil_iff.mp he))
      rw [List.append_nil] at hdrop
      exact hdrop
    rw [trimBrackets, List.dropWhile_cons_of_pos (by rfl), dropWhile_unbracketed h hnil, List.reverse_append,
      List.reverse_singleton, List.singleton_append, List.dropWhile_cons_of_pos (by rfl), hback,
      List.reverse_reverse]

theorem contains_eq_false {b : UInt8} {s : Bytes} (h : b ∉ s) : s.contains b = false := by
  rw [Bool.eq_false_iff]
  exact fun hc => h (List.contains_iff_mem.mp hc)

theorem hasPrefix_bracket {s : Bytes} (h : (91 : UInt8) ∉ s) : hasPrefix s (ascii "[") = false := by
  rw [Bool.eq_false_iff]
  intro hp
  exact h ((hasPrefix_iff.mp hp).subset (List.mem_singleton.mpr rfl))

section
variable {host port : Bytes}

/-- A host with a port is split at the colon. -/
theorem netSplitHostPort_port (hcolon : (58 : UInt8) ∉ host) (hhost : Unbracketed host)
    (hport : (58 : UInt8) ∉ port) (hbare : Unbracketed port) :
    netSplitHostPort (host ++ 58 :: port) = some (host, port) := by
  have hopen : (91 : UInt8) ∉ host ++ 58 :: port := by
    rw [List.mem_append, List.mem_cons, not_or, not_or]
    exact ⟨hhost.1, by decide, hbare.1⟩
  have hclose : (93 : UInt8) ∉ host ++ 58 :: port := by
    rw [List.mem_append, List.mem_cons, not_or, not_or]
    exact ⟨hhost.2, by decide, hbare.2⟩
  simp only [netSplitHostPort, cutLast_append hport, hasPrefix_bracket hopen,
    contains_eq_false hcolon, contains_eq_false hopen, contains_eq_false hclose, Bool.or_self,
    Bool.false_eq_true, if_false]

/-- An address in brackets with a port is split behind the brackets. -/
theorem netSplitHostPort_bracketsPort (hhost : Unbracketed host) (hport : (58 : UInt8) ∉ port)
    (hbare : Unbracketed port) :
    netSplitHostPort (91 :: (host ++ 93 :: 58 :: port)) = some (host, port) := by
  have hcut : cutLast 58 (91 :: (host ++ 93 :: 58 :: port)) = some (91 :: (host ++ [93]), port) := by
    have heq : 91 :: (host ++ 93 :: 58 :: port) = 91 :: (host ++ [93]) ++ 58 :: port := by simp
    rw [heq]
    exact cutLast_append hport
  have hopen : (91 : UInt8) ∉ (91 :: (host ++ 93 :: 58 :: port)).drop 1 := by
    rw [List.drop_one, List.tail_cons, List.mem_append, List.mem_cons, List.mem_cons, not_or,
      not_or, not_or]
    exact ⟨hhost.1, by decide, by decide, hbare.1⟩
  have hhead : hasPrefix (91 :: (host ++ 93 :: 58 :: port)) (ascii "[") = true := rfl
  simp only [netSplitHostPort, hcut, hhead, takeWhile_bracket hhost.2, contains_eq_false hopen,
    contains_eq_false hbare.2]
  simp

/-- Without a port there is nothing to split, and the brackets are removed by the
    caller. -/
theorem netSplitHostPort_brackets (hhost : Unbracketed host) :
    netSplitHostPort (91 :: (host ++ [93])) = none := by
  have hhead : hasPrefix (91 :: (host ++ [93])) (ascii "[") = true := rfl
  rw [netSplitHostPort]
  cases hcut : cutLast 58 (91 :: (host ++ [93])) with
  | none => rfl
  | some parts =>
      obtain ⟨before, after⟩ := parts
      -- the last colon stands inside the brackets
      have hshort := cutLast_length hcut
      have hne : before ≠ 91 :: host ++ [93] := by
        rintro rfl
        exact absurd hshort (Nat.lt_irrefl _)
      simp only [hhead, if_true, takeWhile_bracket hhost.2, if_pos hne]

end

/-- **THE HOST OF A REQUEST**: a port, brackets around the host and one dot behind it are
    dropped, and what is left is lowered. -/
theorem requestHost_spelled {r : Request} {host : Bytes} (h : HostSpelling r.host host) :
    requestHost r = toLower (trimSuffix host (ascii ".")) := by
  rw [requestHost]
  generalize r.host = text at h
  cases h with
  | plain hcolon hhost =>
      simp only [netSplitHostPort, cutLast_of_notMem hcolon, hasPrefix_bracket hhost.1,
        Bool.false_and, Bool.false_eq_true, if_false]
  | port hcolon hhost hport hbare => rw [netSplitHostPort_port hcolon hhost hport hbare]
  | brackets hhost =>
      have hhead : hasPrefix (91 :: (host ++ [93])) (ascii "[") = true := rfl
      have htail : hasSuffix (91 :: (host ++ [93])) (ascii "]") = true :=
        hasSuffix_iff.mpr ⟨91 :: host, rfl⟩
      rw [netSplitHostPort_brackets hhost, hhead, htail]
      exact congrArg (fun text => toLower (trimSuffix text (ascii "."))) (trimBrackets_brackets hhost)
  | bracketsPort hhost hport hbare => rw [netSplitHostPort_bracketsPort hhost hport hbare]

/-! ## The target -/

/-- `resolveBucket` of a client: the base host it answers with, and the target cut with
    it. -/
def resolveBucket (c : Client) (r : Request) : Except HostError Target :=
  (c.lookupBaseHost (requestHost r)).map (requestTarget r)

/-- A bucket name has the bytes of a host and does not end in a dot. -/
theorem bucket_bytes {bucket : Bytes} (h : isValidBucketName bucket = true) :
    (∀ b ∈ bucket, isLabelByte b = true ∨ b = 46) ∧ bucket.getLast? ≠ some 46 := by
  simp only [isValidBucketName, Bool.and_eq_true] at h
  obtain ⟨⟨⟨⟨⟨⟨⟨-, -⟩, hbytes⟩, -⟩, hlast⟩, -⟩, -⟩, -⟩ := h
  constructor
  · intro b hb
    exact forall_byte (P := fun b => isBucketByte b = true → isLabelByte b = true ∨ b = 46)
      (by decide +kernel) b (List.all_eq_true.mp hbytes b hb)
  · intro hdot
    rw [hdot] at hlast
    exact absurd hlast (by decide)

section
variable {registered : Bytes → Bool} {r : Request} {base : Bytes}

/-- **THE CUT**: a valid bucket name in front of the base host that was found is all there is
    in front of it.  The two normal forms of the host agree there. -/
theorem vhost_cut (haccepted : ∀ d, registered d = true → ValidHost d)
    (h : Domain.lookupBaseHost registered (requestHost r) = .ok (some base))
    (hne : requestHost r ≠ base)
    (hbucket : isValidBucketName (trimSuffix (requestHost r) (ascii "." ++ base)) = true) :
    requestHost r = trimSuffix (requestHost r) (ascii "." ++ base) ++ ascii "." ++ base ∧
      Longest registered (requestHost r) base := by
  have hip : parseIP (canonicalHost (requestHost r)) = false := by
    rw [Bool.eq_false_iff]
    intro hip
    rw [Domain.lookupBaseHost, if_pos hip] at h
    cases h
  have hlongest : Longest registered (canonicalHost (requestHost r)) base :=
    ((lookupBaseHost_longest hip h).1 base).mp rfl
  have hbase := haccepted base hlongest.known
  obtain ⟨hbytes, hlast⟩ := bucket_bytes hbucket
  -- `requestHost` and `canonicalHost` differ by spaces and a dot, which no bucket name has
  by_cases hsuffix : hasSuffix (requestHost r) (ascii "." ++ base) = true
  · obtain ⟨bucket, hhost⟩ := hasSuffix_iff.mp hsuffix
    have hcut : trimSuffix (requestHost r) (ascii "." ++ base) = bucket := by
      rw [trimSuffix, if_pos hsuffix, ← hhost, List.length_append, Nat.add_sub_cancel,
        List.take_left]
    rw [hcut] at hbytes ⊢
    have hcanonical : canonicalHost (requestHost r) = requestHost r := by
      refine canonicalHost_of_bytes ?_ ?_
      · intro b hb
        rw [← hhost, List.mem_append, List.mem_append] at hb
        rcases hb with hb | hb | hb
        · exact hbytes b hb
        · exact Or.inr (List.mem_singleton.mp hb)
        · exact hbase.bytes b hb
      · rw [← hhost, ← List.append_assoc, List.getLast?_append_of_ne_nil _ hbase.ne_nil]
        exact hbase.last
    rw [hcanonical] at hlongest
    refine ⟨?_, hlongest⟩
    rw [List.append_assoc]
    exact hhost.symm
  · -- the bucket would be the whole host, which then ends in the base host
    have hwhole : trimSuffix (requestHost r) (ascii "." ++ base) = requestHost r := by
      rw [trimSuffix, if_neg hsuffix]
    rw [hwhole] at hbytes hlast
    rw [canonicalHost_of_bytes hbytes hlast] at hlongest
    rcases hlongest.suffix_ with heq | hdot
    · exact absurd heq.symm hne
    · exact absurd (hasSuffix_iff.mpr hdot) hsuffix

end

/-- A target is cut from the host, or else from the path. -/
theorem requestTarget_cases (r : Request) (baseHost : Option Bytes) :
    (∃ base, baseHost = some base ∧ requestHost r ≠ base ∧
      requestTarget r baseHost =
        { bucket := trimSuffix (requestHost r) (ascii "." ++ base)
          objectKey := trimPrefix r.url.path (ascii "/")
          isVHost := true }) ∨
    requestTarget r baseHost =
      { bucket := (cut 47 (trimPrefix r.url.path (ascii "/"))).1
        objectKey := (cut 47 (trimPrefix r.url.path (ascii "/"))).2.1
        isVHost := false } := by
  cases baseHost with
  | none => exact Or.inr rfl
  | some base =>
      by_cases hne : requestHost r ≠ base
      · exact Or.inl ⟨base, rfl, hne, if_pos hne⟩
      · exact Or.inr (if_neg hne)

/-- The first segment of a path and the rest. -/
theorem pathStyle_cut (rest : Bytes) :
    (47 : UInt8) ∉ (cut 47 rest).1 ∧
      ((rest = (cut 47 rest).1 ∧ (cut 47 rest).2.1 = []) ∨
        rest = (cut 47 rest).1 ++ ascii "/" ++ (cut 47 rest).2.1) := by
  by_cases hmem : (47 : UInt8) ∈ rest
  · obtain ⟨bucket, key, rfl, hbucket⟩ := List.eq_append_cons_of_mem hmem
    rw [cut_append hbucket]
    refine ⟨hbucket, Or.inr ?_⟩
    rw [List.append_assoc]
    rfl
  · rw [cut_of_notMem hmem]
    exact ⟨hmem, Or.inl ⟨rfl, rfl⟩⟩

/-- **HOST RESOLUTION IS LONGEST-SUFFIX AND LOSSLESS**, over every registry of accepted
    domains and a client that is ready.

    An answered lookup of a name finds the longest registered domain that is the name or
    ends it after a dot; an accepted domain is found, itself or under valid labels.  A
    virtual-hosted request with a valid bucket has the host it says, and the path gives
    its key; the path of any other request gives its bucket and key. -/
theorem host_resolution {hasETLDPlusOne : Bytes → Bool} {c : Client}
    (hready : c.sync.state = .ready)
    (haccepted : ∀ d ∈ c.sync.baseHosts, Accepted hasETLDPlusOne d) :
    (∀ hostname result, parseIP (canonicalHost hostname) = false →
      c.lookupBaseHost hostname = .ok result →
      (result.isSome = true ↔
        ∃ d ∈ c.sync.baseHosts, DotSuffix d (canonicalHost hostname)) ∧
      ∀ d, result = some d ↔
        Longest (fun d => d ∈ c.sync.baseHosts) (canonicalHost hostname) d) ∧
    (∀ d ∈ c.sync.baseHosts, c.lookupBaseHost d = .ok (some d) ∧
      ∀ labels, (∀ label ∈ labels, validLabel label = true) →
        (under labels d).length ≤ 253 → parseIP (under labels d) = false →
        ∃ d', c.lookupBaseHost (under labels d) = .ok (some d') ∧
          Longest (fun d => d ∈ c.sync.baseHosts) (under labels d) d') ∧
    (∀ (r : Request) (host : Bytes), HostSpelling r.host host →
      requestHost r = toLower (trimSuffix host (ascii "."))) ∧
    ∀ (r : Request) (rest : Bytes) (target : Target), r.url.path = ascii "/" ++ rest →
      resolveBucket c r = .ok target →
      (target.isVHost = true → isValidBucketName target.bucket = true →
        ∃ d, Longest (fun d => d ∈ c.sync.baseHosts) (requestHost r) d ∧
          requestHost r = target.bucket ++ ascii "." ++ d ∧
          r.url.path = ascii "/" ++ target.objectKey) ∧
      (target.isVHost = false → (47 : UInt8) ∉ target.bucket ∧
        ((r.url.path = ascii "/" ++ target.bucket ∧ target.objectKey = []) ∨
          r.url.path = ascii "/" ++ target.bucket ++ ascii "/" ++ target.objectKey)) := by
  have hlookup : ∀ hostname, c.lookupBaseHost hostname =
      Domain.lookupBaseHost (fun d => d ∈ c.sync.baseHosts) hostname := by
    intro hostname
    rw [Client.lookupBaseHost, if_neg (fun hne => hne hready)]
  have hvalid : ∀ d, decide (d ∈ c.sync.baseHosts) = true → ValidHost d :=
    fun d hd => (haccepted d (of_decide_eq_true hd)).spec.1
  refine ⟨?_, ?_, fun r host => requestHost_spelled, ?_⟩
  · intro hostname result hip hanswer
    rw [hlookup] at hanswer
    obtain ⟨hlongest, hfound⟩ := lookupBaseHost_longest hip hanswer
    refine ⟨?_, hlongest⟩
    simp only [decide_eq_true_eq] at hfound
    exact hfound
  · intro d hd
    obtain ⟨hhost, hlength, hip⟩ := (haccepted d hd).spec
    have hunder : ∀ labels, (∀ label ∈ labels, validLabel label = true) →
        (under labels d).length ≤ 253 → parseIP (under labels d) = false →
        ∃ d', c.lookupBaseHost (under labels d) = .ok (some d') ∧
          Longest (fun d => d ∈ c.sync.baseHosts) (under labels d) d' := by
      intro labels hlabels hshort hname
      rw [hlookup]
      exact lookup_under hhost (decide_eq_true hd) hlabels hshort hname
    refine ⟨?_, hunder⟩
    obtain ⟨d', hanswer, hlongest⟩ := hunder [] (fun label hl => by cases hl) hlength hip
    rw [hlongest.eq_self (decide_eq_true hd)] at hanswer
    exact hanswer
  · intro r rest target hpath hresolve
    rw [resolveBucket, hlookup] at hresolve
    cases hanswer : Domain.lookupBaseHost (fun d => d ∈ c.sync.baseHosts) (requestHost r) with
    | error e =>
        rw [hanswer] at hresolve
        cases hresolve
    | ok baseHost =>
        rw [hanswer] at hresolve
        cases Except.ok.inj hresolve
        have htrim : trimPrefix r.url.path (ascii "/") = rest := by
          rw [hpath]
          exact trimPrefix_append _ _
        -- virtual-hosted, or path style with or without a base host
        rcases requestTarget_cases r baseHost with ⟨base, rfl, hne, htarget⟩ | htarget
        · rw [htarget, htrim]
          refine ⟨?_, fun hstyle => by cases hstyle⟩
          intro _ hbucket
          obtain ⟨hcut, hlongest⟩ := vhost_cut hvalid hanswer hne hbucket
          exact ⟨base, hlongest, hcut, hpath⟩
        · rw [htarget, htrim]
          obtain ⟨hslash, hsegment⟩ := pathStyle_cut rest
          refine ⟨fun hstyle => (by cases hstyle), fun _ => ⟨hslash, ?_⟩⟩
          rcases hsegment with ⟨hbucket, hkey⟩ | hboth
          · left
            refine ⟨?_, hkey⟩
            rw [hpath]
            exact congrArg (ascii "/" ++ ·) hbucket
          · right
            rw [hpath, List.append_assoc, List.append_assoc, ← List.append_assoc (cut 47 rest).1]
            exact congrArg (ascii "/" ++ ·) hboth

/-- A ready client with a base domain inside another. -/
def nestedClient : Client :=
  { newClient ⟨1, 1, 2⟩ with
    sync := { (newClient ⟨1, 1, 2⟩).sync with
      state := .ready
      baseHosts := ((∅ : Registry).insert (ascii "ab.cd") 1).insert (ascii "x.ab.cd") 1 } }

/-- A bucket under the inner one. -/
def nestedRequest : Request :=
  { sampleGet [] with host := ascii "Bkt.x.ab.cd.:80", url := { path := ascii "/k" } }

/-- Two registered domains of which one is below the other: the longer one is found,
    and what is in front of it is the bucket. -/
theorem host_resolution_nested :
    ∃ d, requestHost nestedRequest = ascii "bkt" ++ ascii "." ++ d ∧
      Longest (fun d => d ∈ nestedClient.sync.baseHosts) (requestHost nestedRequest) d ∧
      nestedRequest.url.path = ascii "/" ++ ascii "k" := by
  have haccepted : ∀ d ∈ nestedClient.sync.baseHosts, Accepted (fun _ => true) d := by
    intro d hd
    rcases (AList.mem_insert _).mp hd with rfl | hd
    · exact ⟨ascii "x.ab.cd", by decide +kernel⟩
    · rcases (AList.mem_insert _).mp hd with rfl | hd
      · exact ⟨ascii "ab.cd", by decide +kernel⟩
      · exact nomatch hd
  have hresolve : resolveBucket nestedClient nestedRequest =
      .ok { bucket := ascii "bkt", objectKey := ascii "k", isVHost := true } := by
    decide +kernel
  obtain ⟨-, -, -, htarget⟩ := host_resolution (c := nestedClient) rfl haccepted
  obtain ⟨d, hlongest, hhost, hpath⟩ :=
    (htarget nestedRequest (ascii "k") _ (by decide +kernel) hresolve).1 rfl (by decide +kernel)
  exact ⟨d, hhost, hlongest, hpath⟩

end S3
