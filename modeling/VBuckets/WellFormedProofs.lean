import VBuckets.ConfinementProofs

/-! # Attribute names of a rewritten response

    A start tag is well formed only if no two of its attributes have one name.  Two parts
    of the library write attributes: the encoder declares the namespace of an element as
    `xmlns`, and then writes every attribute of the token, among which the decoder leaves
    the declaration it read that namespace from.

    The rewriter keeps that declaration, so an element that declares the namespace of S3
    itself, as S3 answers do, is written with two.  This file says exactly which documents
    are written without a name twice. -/

namespace S3

open ByteString Url Http Mapping Xml

/-- The names of the attributes `EncodeToken` writes in a start tag: `xmlns` for an element
    that has a namespace, then each attribute that has a name. -/
def writtenNames (name : Name) (attrs : List Attr) : List Name :=
  (if name.space = [] then [] else [{ localName := ascii "xmlns" }]) ++
    (attrs.filter (fun attr => attr.name.localName != [])).map Attr.name

/-- No start tag of an output has one name twice. -/
def DistinctAttributes (out : List Token) : Prop :=
  OfStarts (fun name attrs => (writtenNames name attrs).Nodup) out

/-- The attributes that look like the declaration of S3's namespace. -/
def declares (attr : Attr) : Bool :=
  attr.name.localName == ascii "xmlns" && attr.value == s3XMLNamespace

/-- An element in a namespace does not declare S3's itself, and nothing that looks like the
    declaration is given twice. -/
def DeclaresOnce (name : Name) (attrs : List Attr) : Prop :=
  (name.space ≠ [] → xmlnsDeclaration ∉ attrs) ∧ (attrs.filter declares).Nodup

section
variable {c : ResponseContext}

theorem filterSafe_of_sensitive (attrs : List Attr)
    (h : containsSensitiveBackendValue c s3XMLNamespace = true) :
    filterSafeXMLAttributes c attrs = [] := by
  refine List.filter_eq_nil_iff.mpr fun attr _ hkept => ?_
  simp only [Bool.and_eq_true, Bool.not_eq_true', beq_iff_eq] at hkept
  rw [hkept.2, h] at hkept
  exact nomatch hkept.1.1

theorem filterSafe_of_safe (attrs : List Attr)
    (h : containsSensitiveBackendValue c s3XMLNamespace = false) :
    filterSafeXMLAttributes c attrs = attrs.filter declares := by
  refine List.filter_congr fun attr _ => ?_
  rw [declares]
  by_cases hvalue : attr.value = s3XMLNamespace
  · rw [hvalue, h]
    rfl
  · rw [beq_false_of_ne hvalue, Bool.and_false, Bool.and_false]

/-- What looks like the declaration is known by its name. -/
theorem declares_inj {a b : Attr} (ha : declares a = true) (hb : declares b = true)
    (h : a.name = b.name) : a = b := by
  rw [declares, Bool.and_eq_true, beq_iff_eq, beq_iff_eq] at ha hb
  cases a with
  | mk name value =>
      cases b with
      | mk name' value' =>
          obtain rfl : name = name' := h
          rw [show value = s3XMLNamespace from ha.2, show value' = s3XMLNamespace from hb.2]

theorem writtenNames_declares (name : Name) (attrs : List Attr) :
    (writtenNames name (attrs.filter declares)).Nodup ↔ DeclaresOnce name attrs := by
  have hnamed : (attrs.filter declares).filter (fun attr => attr.name.localName != []) =
      attrs.filter declares := by
    refine List.filter_eq_self.mpr fun attr hattr => ?_
    have hlocal := (List.mem_filter.mp hattr).2
    rw [declares, Bool.and_eq_true, beq_iff_eq] at hlocal
    rw [hlocal.1]
    decide
  have hmap : ((attrs.filter declares).map Attr.name).Nodup ↔ (attrs.filter declares).Nodup := by
    refine ⟨List.Nodup.of_map _, List.Nodup.map_on fun a ha b hb h => ?_⟩
    exact declares_inj (List.mem_filter.mp ha).2 (List.mem_filter.mp hb).2 h
  -- the name of the declaration is written by the declaration alone
  have hmem : ({ localName := ascii "xmlns" } : Name) ∈ (attrs.filter declares).map Attr.name ↔
      xmlnsDeclaration ∈ attrs := by
    constructor
    · intro h
      obtain ⟨attr, hattr, hname⟩ := List.mem_map.mp h
      obtain ⟨hattr, hdeclares⟩ := List.mem_filter.mp hattr
      have heq : attr = xmlnsDeclaration := declares_inj hdeclares (by decide) hname
      rw [← heq]
      exact hattr
    · intro h
      exact List.mem_map.mpr ⟨xmlnsDeclaration, List.mem_filter.mpr ⟨h, by decide⟩, rfl⟩
  rw [writtenNames, hnamed, DeclaresOnce]
  by_cases hspace : name.space = []
  · rw [if_pos hspace, List.nil_append, hmap]
    exact ⟨fun h => ⟨fun hne => absurd hspace hne, h⟩, fun h => h.2⟩
  · rw [if_neg hspace, List.singleton_append, List.nodup_cons, hmem, hmap]
    exact ⟨fun h => ⟨fun _ => h.1, h.2⟩, fun h => ⟨h.1 hspace, h.2⟩⟩

/-- The names of a start tag the rewriter writes. -/
theorem writtenNames_filterSafe (name : Name) (attrs : List Attr) :
    (writtenNames name (filterSafeXMLAttributes c attrs)).Nodup ↔
      containsSensitiveBackendValue c s3XMLNamespace = true ∨ DeclaresOnce name attrs := by
  cases hsensitive : containsSensitiveBackendValue c s3XMLNamespace with
  | true =>
      rw [filterSafe_of_sensitive attrs hsensitive, writtenNames]
      refine ⟨fun _ => .inl rfl, fun _ => ?_⟩
      by_cases hspace : name.space = []
      · rw [if_pos hspace]
        exact List.nodup_nil
      · rw [if_neg hspace]
        exact List.nodup_singleton _
  | false =>
      rw [filterSafe_of_safe attrs hsensitive, writtenNames_declares]
      exact ⟨.inr, fun h => h.resolve_left (by simp)⟩

theorem rewritten_of_ok {tokens out : List Token} {failure : Option Reason}
    (h : rewriteNamespaceXML c tokens failure = .ok out) : rewritten c tokens failure = out := by
  rw [rewritten, h]

/-- **ATTRIBUTES DISTINCT**: a document that is accepted is written without an attribute
    name twice in a tag, exactly when every start tag of it that is written declares the
    namespace of S3 once. -/
theorem accepted_distinct_iff {tokens out : List Token} {failure : Option Reason}
    (h : rewriteNamespaceXML c tokens failure = .ok out) :
    DistinctAttributes out ↔ ∀ s name attrs rest,
      Reaches c failure tokens s (.startElement name attrs :: rest) → Admits c s name →
        containsSensitiveBackendValue c s3XMLNamespace = true ∨ DeclaresOnce name attrs := by
  rw [← rewritten_of_ok h, DistinctAttributes, rewritten_ofStarts_iff]
  · simp only [writtenNames_filterSafe]
  · intro field
    exact List.nodup_nil

end

/-! ## Two documents -/

/-- A listing with one child, in the namespace of S3, whose root has attributes. -/
def listing (attrs : List Attr) : List Token :=
  let inS3 := fun field => ({ space := s3XMLNamespace, localName := ascii field } : Name)
  [.startElement (inS3 "ListBucketResult") attrs,
    .startElement (inS3 "KeyCount") [], .charData (ascii "0"), .endElement (inS3 "KeyCount"),
    .endElement (inS3 "ListBucketResult")]

/-- The declaration `xmlns:s3`, under which the tags of a listing may be written. -/
def prefixDeclaration : Attr :=
  ⟨{ space := ascii "xmlns", localName := ascii "s3" }, s3XMLNamespace⟩

theorem listing_distinct : DistinctAttributes (listing []) := by
  intro before name attrs rest h
  have hmem : Token.startElement name attrs ∈ listing [] := by
    rw [h]
    exact List.mem_append_right _ List.mem_cons_self
  simp only [listing, List.mem_cons, Token.startElement.injEq, reduceCtorEq, or_false,
    List.not_mem_nil] at hmem
  rcases hmem with ⟨rfl, rfl⟩ | ⟨rfl, rfl⟩
  · decide
  · decide

/-- The listing with its namespace declared for a prefix: the declaration is dropped, and
    the encoder's own is the only one. -/
theorem accepted_distinct_of_prefixed :
    ∃ plan, planS3Operation listRequest (ascii "vbk") [] = .ok plan ∧
      rewriteNamespaceXML (storeContext plan) (listing [prefixDeclaration]) none =
        .ok (listing []) ∧
      DistinctAttributes (listing []) ∧
      ∀ s name attrs rest,
        Reaches (storeContext plan) none (listing [prefixDeclaration]) s
          (.startElement name attrs :: rest) →
        Admits (storeContext plan) s name →
          containsSensitiveBackendValue (storeContext plan) s3XMLNamespace = true ∨
            DeclaresOnce name attrs := by
  have hcheck : okAnd (planS3Operation listRequest (ascii "vbk") []) (fun plan =>
      okAnd (rewriteNamespaceXML (storeContext plan) (listing [prefixDeclaration]) none)
        (fun out => out = listing [])) = true := by
    decide +kernel
  obtain ⟨plan, hplan, hout⟩ := exists_of_okAnd hcheck
  obtain ⟨out, haccepted, hout⟩ := exists_of_okAnd hout
  rw [of_decide_eq_true hout] at haccepted
  exact ⟨plan, hplan, haccepted, listing_distinct,
    (accepted_distinct_iff haccepted).mp listing_distinct⟩

/-- The listing as S3 sends it: the root declares its namespace. -/
theorem declared_namespace_written_twice :
    ∃ plan out, planS3Operation listRequest (ascii "vbk") [] = .ok plan ∧
      normalizeVBucketConfig storeHosts sampleCrypto (some storeConfig) = .ok storeConfig ∧
      rewriteNamespaceXML (storeContext plan) (listing [xmlnsDeclaration]) none = .ok out ∧
      ¬ DistinctAttributes out := by
  have hcheck : okAnd (planS3Operation listRequest (ascii "vbk") []) (fun plan =>
      okAnd (rewriteNamespaceXML (storeContext plan) (listing [xmlnsDeclaration]) none)
        (fun out => out = listing [xmlnsDeclaration])) = true := by
    decide +kernel
  obtain ⟨plan, hplan, hout⟩ := exists_of_okAnd hcheck
  obtain ⟨out, haccepted, hout⟩ := exists_of_okAnd hout
  rw [of_decide_eq_true hout] at haccepted
  refine ⟨plan, _, hplan, by decide +kernel, haccepted, fun hdistinct => ?_⟩
  exact absurd (hdistinct [] _ _ _ rfl) (by decide)

end S3
