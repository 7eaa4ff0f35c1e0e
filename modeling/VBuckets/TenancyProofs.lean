import VBuckets.ForwardingProofs
import VBuckets.PathProofs
import Mathlib.Data.Set.BooleanAlgebra
import Mathlib.Data.Set.Disjoint
import Mathlib.Order.CompletePartialOrder

/-! # Tenants on a shared bucket

    Every key-bearing text an outbound request carries starts with its mapping's prefix:
    the key in the path, the prefix and markers of a listing, the key of a copy source.
    Two mappings whose prefixes do not extend one another therefore never send a key of
    the other, and no key leaves its prefix when the origin removes dot segments or
    collapses slashes.  A listing asks for no more: its prefix is never left out. -/

namespace S3

open ByteString Url Http Mapping Path

/-! ## What a request names -/

/-- The parameters of a listing that hold keys. -/
def listKeyFields : List Bytes := ascii "prefix" :: markerFields

/-- The real keys an outbound request names, read from its path, its query and its copy
    source.  An empty prefix or marker names nothing. -/
inductive Sends (cfg : VBucketConfig) (out : OutboundRequest) : Bytes → Prop where
  | object {key : Bytes} (h : out.url.path =
      (if cfg.realUsePathStyle then ascii "/" ++ cfg.realBucket else []) ++ ascii "/" ++ key)
      (hne : key ≠ []) : Sends cfg out key
  | listing {w : Values} {field key : Bytes} (hq : parseQuery out.url.rawQuery = (w, true))
      (hf : field ∈ listKeyFields) (h : w.lookup field = some [key]) (hne : key ≠ []) :
      Sends cfg out key
  | copySource {text key : Bytes} (ht : text ∈ out.header.values copySourceHeader)
      (h : unescape (cut 63 text).1 .path = some (cfg.realBucket ++ ascii "/" ++ key)) :
      Sends cfg out key

/-! ## Keys the client may name -/

/-- An empty text, or one `validateVirtualObjectKey` accepts. -/
def ClientKey (key : Bytes) : Prop := key = [] ∨ validateVirtualObjectKey key = .ok ()

theorem noDots_of_valid {key : Bytes} (h : validateVirtualObjectKey key = .ok ()) :
    NoDots key := by
  obtain ⟨-, h⟩ := seq_ok_iff.mp h
  obtain ⟨-, h⟩ := seq_ok_iff.mp h
  obtain ⟨-, h⟩ := seq_ok_iff.mp h
  intro segment hseg
  exact refuseIf_ok_iff.mp (checkEach_ok_iff.mp h segment hseg)

theorem ClientKey.noDots {key : Bytes} (h : ClientKey key) : NoDots key := by
  rcases h with rfl | h
  · exact noDots_nil
  · exact noDots_of_valid h

section
variable {r : Request} {bucket objectKey : Bytes} {plan : S3OperationPlan}

/-- The listing fields of an accepted plan. -/
theorem Planned.field_clientKey (h : Planned r bucket objectKey plan) {field : Bytes}
    (hf : field ∈ listKeyFields) : ClientKey (plan.query.get field) := by
  obtain ⟨-, h3⟩ := seq_ok_iff.mp (seq_ok_iff.mp h.values).2
  obtain ⟨hfields, -⟩ := seq_ok_iff.mp h3
  have hname : ∃ name ∈ ["prefix", "marker", "start-after", "key-marker"], field = ascii name := by
    simp only [listKeyFields, markerFields, List.mem_cons, List.not_mem_nil, or_false] at hf
    rcases hf with rfl | rfl | rfl | rfl
    · exact ⟨"prefix", by decide, rfl⟩
    · exact ⟨"marker", by decide, rfl⟩
    · exact ⟨"start-after", by decide, rfl⟩
    · exact ⟨"key-marker", by decide, rfl⟩
  obtain ⟨name, hmem, rfl⟩ := hname
  have hcheck := checkEach_ok_iff.mp hfields name hmem
  by_cases hne : plan.query.get (ascii name) = []
  · exact Or.inl hne
  · rw [validateKeyField, lookup_of_get_ne h.single hne] at hcheck
    simp only [if_neg hne] at hcheck
    split at hcheck
    · next hvalid => exact Or.inr hvalid
    · exact nomatch hcheck

theorem Planned.objectKey_clientKey (h : Planned r bucket objectKey plan) :
    ClientKey plan.objectKey := by
  rw [h.objectKey_eq]
  by_cases hk : objectKey = []
  · exact Or.inl hk
  · exact Or.inr (h.key hk)

theorem Planned.source_clientKey (h : Planned r bucket objectKey plan) {source : CopySource}
    (hs : plan.copySource = some source) : ClientKey source.key :=
  Or.inr (parseCopySource_ok (h.copySource_spec hs).2).valid

end

/-! ## Everything sent is under the prefix -/

section
variable {hp : HostParser} {cr : Crypto} {cfg : VBucketConfig} {r : Request}
  {bucket objectKey : Bytes} {plan : S3OperationPlan} {mapping : Option VBucketConfig}
  {out : OutboundRequest} {key : Bytes}

/-- The key in the path. -/
theorem path_key
    (hpath : realTarget cfg plan =
      (if cfg.realUsePathStyle then ascii "/" ++ cfg.realBucket else []) ++ ascii "/" ++ key)
    (hne : key ≠ []) : key = cfg.realPrefix ++ plan.objectKey := by
  cases hs : cfg.realUsePathStyle with
  | true =>
      rw [hs, if_pos rfl] at hpath
      cases hc : plan.kind.pathClass with
      | object =>
          simp only [realTarget, hc, hs, List.append_assoc, List.append_cancel_left_eq] at hpath
          exact hpath.symm
      | bucket | service => simp [realTarget, hc, hs, ascii] at hpath
  | false =>
      rw [hs, if_neg (by decide), List.nil_append] at hpath
      cases hc : plan.kind.pathClass with
      | object =>
          simp only [realTarget, hc, hs, List.append_assoc, List.append_cancel_left_eq] at hpath
          exact hpath.symm
      | bucket | service => simp [realTarget, hc, hs, hne] at hpath

/-- A key in the query of a listing. -/
theorem listing_key {q w : Values} {kind : OperationKind} {field : Bytes} (hq : q.Single)
    (hrow : kind.queryHolds q = true) (hreal : Realizes cr cfg kind q w)
    (hP : cfg.realPrefix ≠ []) (hf : field ∈ listKeyFields)
    (hkey : w.lookup field = some [key]) (hne : key ≠ []) :
    key = cfg.realPrefix ++ q.get field := by
  have hget : ∀ {v : Values}, v.lookup field = some [key] → v.get field = key :=
    fun h => Values.get_of_lookup h
  rcases List.mem_cons.mp hf with rfl | hm
  · by_cases hl : kind.lists = true
    · rw [hreal.listPrefix hl hP] at hkey
      exact (List.singleton_inj.mp (Option.some.inj hkey)).symm
    · -- only a listing has a prefix
      rw [hreal.unchanged _ (fun hc => hl hc.2.1) (fun hc => absurd hc (by decide))] at hkey
      exact absurd (lists_of_queryHolds hq hrow (AList.lookup_isSome.mp (by rw [hkey]; rfl))) hl
  · by_cases hempty : q.get field = []
    · have hnp : field ≠ ascii "prefix" := by
        rintro rfl
        exact absurd hm (by decide)
      rw [hreal.unchanged field (fun hc => hnp hc.1) (fun _ => hempty)] at hkey
      exact absurd ((hget hkey).symm.trans hempty) hne
    · rw [hreal.marker field hm hempty] at hkey
      exact (List.singleton_inj.mp (Option.some.inj hkey)).symm

/-- The key of a copy source. -/
theorem copySource_key (h : Planned r bucket objectKey plan)
    (hsent : Sent hp cr r plan mapping cfg out) {text : Bytes}
    (ht : text ∈ out.header.values copySourceHeader)
    (hread : unescape (cut 63 text).1 .path = some (cfg.realBucket ++ ascii "/" ++ key)) :
    ∃ source, plan.copySource = some source ∧ key = cfg.realPrefix ++ source.key := by
  have hreal := normalizedPrefix_eq (normalize_spec hsent.mapping)
  have hvalues : out.header.values copySourceHeader =
      out.header.at_ (canonicalHeaderKey copySourceHeader) := rfl
  rw [hvalues] at ht
  rcases outboundHeaders_at hsent.header copySourceHeader_unsigned
    with ⟨-, -, source, text', hsource, hbuilt, hat⟩ | ⟨hcopy, hat⟩
  · rw [hat, List.mem_singleton] at ht
    subst ht
    refine ⟨source, hsource, ?_⟩
    -- with a version or without, the key is written in front of the question mark
    have hbuild : ∃ version,
        text = buildCopySource cfg.realBucket (cfg.realPrefix ++ source.key) version := by
      rw [outboundCopySource, hreal] at hbuilt
      split at hbuilt
      · cases hbuilt
        exact ⟨[], rfl⟩
      · split at hbuilt
        · exact nomatch hbuilt
        · cases hbuilt
          exact ⟨_, rfl⟩
    obtain ⟨version, rfl⟩ := hbuild
    rw [buildCopySource_path] at hread
    exact (List.append_cancel_left (Option.some.inj hread)).symm
  · -- no other operation has a copy source to forward
    have hkind : plan.kind ≠ .copyObject := fun hc => hcopy hc rfl
    have habsent : ∀ n ∈ plan.forwardHeaders,
        canonicalHeaderKey n ≠ canonicalHeaderKey copySourceHeader := by
      intro n hn heq
      rw [h.forwardHeaders_eq] at hn
      obtain ⟨m, hm, rfl⟩ := mem_canonicalHeaderClone hn
      rw [canonicalHeaderKey_idem] at heq
      have hlow : toLower m = copySourceHeader := by
        rw [← toLower_canonicalHeaderKey, heq]
        decide
      exact hkind (copyObject_of_copySource h.headers hm hlow)
    rw [hat, copyOutboundRequestHeaders_absent habsent] at ht
    exact nomatch ht

theorem realPrefix_ne_nil (hP : cfg.pathPrefix ≠ []) : cfg.realPrefix ≠ [] := by
  rw [VBucketConfig.realPrefix, if_neg hP]
  intro he
  cases (List.append_eq_nil_iff.mp he).2

/-- **CONTAINMENT**: every key an outbound request names is the mapping's prefix and a key
    the client may name. -/
theorem sends_under_prefix (h : Planned r bucket objectKey plan)
    (hsent : Sent hp cr r plan mapping cfg out) (hP : cfg.pathPrefix ≠ [])
    (hkey : Sends cfg out key) : ∃ k, ClientKey k ∧ key = cfg.realPrefix ++ k := by
  have hn := normalize_spec hsent.mapping
  obtain ⟨hpath, hraw⟩ := sent_reads h hsent
  cases hkey with
  | object hp' hne =>
      exact ⟨_, h.objectKey_clientKey, path_key (hpath ▸ hp') hne⟩
  | listing hq hf hlook hne =>
      obtain ⟨-, w, hw, -, hrealizes⟩ := rewritten_realizes h hn hraw
      cases hw.symm.trans hq
      exact ⟨_, h.field_clientKey hf,
        listing_key h.single (selectKind_spec h.kind).2 hrealizes (realPrefix_ne_nil hP) hf hlook
          hne⟩
  | copySource ht hread =>
      obtain ⟨source, hs, hk⟩ := copySource_key h hsent ht hread
      exact ⟨_, h.source_clientKey hs, hk⟩

/-- A listing that is sent carries a prefix, also if the client named none. -/
theorem listing_prefix (h : Planned r bucket objectKey plan)
    (hsent : Sent hp cr r plan mapping cfg out) (hP : cfg.pathPrefix ≠ [])
    (hlists : plan.kind.lists = true) :
    ∃ w k, parseQuery out.url.rawQuery = (w, true) ∧ ClientKey k ∧
      w.lookup (ascii "prefix") = some [cfg.realPrefix ++ k] := by
  obtain ⟨-, hraw⟩ := sent_reads h hsent
  obtain ⟨-, w, hw, -, hrealizes⟩ := rewritten_realizes h (normalize_spec hsent.mapping) hraw
  exact ⟨w, _, hw, h.field_clientKey List.mem_cons_self,
    hrealizes.listPrefix hlists (realPrefix_ne_nil hP)⟩

end

/-! ## Two tenants -/

/-- A key under a prefix that no rewriting of dot segments or slashes takes out of it. -/
structure StaysUnder (realPrefix key : Bytes) : Prop where
  under : realPrefix <+: key
  noDots : ∀ segment ∈ split 47 key, segment ≠ ascii "." ∧ segment ≠ ascii ".."
  dotsRemoved : removeDotSegments key = key
  slashesCollapsed : realPrefix <+: collapseSlashes key
  both : realPrefix <+: removeDotSegments (collapseSlashes key)

theorem staysUnder_of_clientKey {hp : HostParser} {cfg : VBucketConfig} (h : Normalized hp cfg)
    (hP : cfg.pathPrefix ≠ []) {k : Bytes} (hk : ClientKey k) :
    StaysUnder cfg.realPrefix (cfg.realPrefix ++ k) := by
  have hreal : cfg.realPrefix = cfg.pathPrefix ++ [47] := if_neg hP
  -- no dot segment on either side of the slash between prefix and key
  have hdots : NoDots (cfg.realPrefix ++ k) := by
    rw [hreal, List.append_assoc, List.singleton_append]
    refine noDots_append ?_ hk.noDots
    intro segment hseg
    have hsafe := h.segments hP segment hseg
    simp only [unsafeSegment, Bool.or_eq_false_iff, decide_eq_false_iff_not] at hsafe
    rw [isDotSegment, Bool.or_eq_false_iff, beq_eq_false_iff_ne, beq_eq_false_iff_ne]
    exact ⟨hsafe.1.1.1.2, hsafe.1.1.2⟩
  have hslash : cfg.realPrefix <+: collapseSlashes (cfg.realPrefix ++ k) := by
    refine prefix_collapseSlashes ?_ k
    rw [hreal]
    refine noDoubleSlash_of_segments ?_
    rintro segment hseg rfl
    exact absurd (h.segments hP [] hseg) (by decide)
  refine ⟨List.prefix_append _ _, ?_, removeDotSegments_eq hdots, hslash, ?_⟩
  · intro segment hseg
    have hno := hdots segment hseg
    rw [isDotSegment, Bool.or_eq_false_iff, beq_eq_false_iff_ne, beq_eq_false_iff_ne] at hno
    exact hno
  · rw [removeDotSegments_eq (noDots_collapseSlashes hdots)]
    exact hslash

/-- The real keys a mapping's clients can name, over all requests. -/
def Addressable (hp : HostParser) (cr : Crypto) (mapping : VBucketConfig) : Set Bytes :=
  { key | ∃ r bucket objectKey plan cfg out,
      planS3Operation r bucket objectKey = .ok plan ∧
      normalizeVBucketConfig hp cr (some mapping) = .ok cfg ∧
      outboundRequest hp cr r plan (some mapping) = .ok out ∧ Sends cfg out key }

/-- Every listing a mapping's clients can send carries a prefix, and it stays under the one
    given: no listing reaches keys that are not named by `Addressable` either. -/
def ListsUnder (hp : HostParser) (cr : Crypto) (mapping : VBucketConfig) (realPrefix : Bytes) :
    Prop :=
  ∀ r bucket objectKey plan out, planS3Operation r bucket objectKey = .ok plan →
    plan.kind.lists = true → outboundRequest hp cr r plan (some mapping) = .ok out →
    ∃ w key, parseQuery out.url.rawQuery = (w, true) ∧
      w.lookup (ascii "prefix") = some [key] ∧ StaysUnder realPrefix key

section
variable {hp : HostParser} {cr : Crypto} {mapping mapping₁ mapping₂ cfg cfg₁ cfg₂ : VBucketConfig}

theorem staysUnder_of_sends {r : Request} {bucket objectKey key : Bytes} {plan : S3OperationPlan}
    {out : OutboundRequest} (hplan : planS3Operation r bucket objectKey = .ok plan)
    (hmapping : normalizeVBucketConfig hp cr (some mapping) = .ok cfg)
    (hout : outboundRequest hp cr r plan (some mapping) = .ok out) (hP : cfg.pathPrefix ≠ [])
    (hkey : Sends cfg out key) : StaysUnder cfg.realPrefix key := by
  obtain ⟨cfg', hsent⟩ := outboundRequest_spec hout
  cases hmapping.symm.trans hsent.mapping
  obtain ⟨k, hk, rfl⟩ := sends_under_prefix (plan_spec hplan) hsent hP hkey
  exact staysUnder_of_clientKey (normalize_spec hmapping) hP hk

theorem staysUnder_of_addressable (hmapping : normalizeVBucketConfig hp cr (some mapping) = .ok cfg)
    (hP : cfg.pathPrefix ≠ []) {key : Bytes} (hkey : key ∈ Addressable hp cr mapping) :
    StaysUnder cfg.realPrefix key := by
  obtain ⟨r, bucket, objectKey, plan, cfg', out, hplan, hcfg, hout, hsends⟩ := hkey
  cases hmapping.symm.trans hcfg
  exact staysUnder_of_sends hplan hmapping hout hP hsends

/-- A mapping's listings stay under its prefix. -/
theorem listsUnder_of_normalized (hmapping : normalizeVBucketConfig hp cr (some mapping) = .ok cfg)
    (hP : cfg.pathPrefix ≠ []) : ListsUnder hp cr mapping cfg.realPrefix := by
  intro r bucket objectKey plan out hplan hlists hout
  obtain ⟨cfg', hsent⟩ := outboundRequest_spec hout
  cases hmapping.symm.trans hsent.mapping
  obtain ⟨w, k, hw, hk, hprefix⟩ := listing_prefix (plan_spec hplan) hsent hP hlists
  exact ⟨w, _, hw, hprefix, staysUnder_of_clientKey (normalize_spec hmapping) hP hk⟩

/-- **TENANT ISOLATION**: two mappings whose prefixes do not extend one another, on one
    bucket or on several.  No key either tenant's requests name starts with the other's
    prefix, their addressable keys are disjoint, and every key named stays under its own
    prefix whatever the origin does to dot segments and repeated slashes.  A listing always
    carries a prefix, which is such a key. -/
theorem tenant_isolation (h₁ : normalizeVBucketConfig hp cr (some mapping₁) = .ok cfg₁)
    (h₂ : normalizeVBucketConfig hp cr (some mapping₂) = .ok cfg₂)
    (hne₁ : cfg₁.pathPrefix ≠ []) (hne₂ : cfg₂.pathPrefix ≠ [])
    (h₁₂ : ¬ cfg₁.realPrefix <+: cfg₂.realPrefix) (h₂₁ : ¬ cfg₂.realPrefix <+: cfg₁.realPrefix) :
    (∀ key ∈ Addressable hp cr mapping₁, ¬ cfg₂.realPrefix <+: key) ∧
    (∀ key ∈ Addressable hp cr mapping₂, ¬ cfg₁.realPrefix <+: key) ∧
    Disjoint (Addressable hp cr mapping₁) (Addressable hp cr mapping₂) ∧
    (∀ key ∈ Addressable hp cr mapping₁, StaysUnder cfg₁.realPrefix key) ∧
    (∀ key ∈ Addressable hp cr mapping₂, StaysUnder cfg₂.realPrefix key) ∧
    ListsUnder hp cr mapping₁ cfg₁.realPrefix ∧ ListsUnder hp cr mapping₂ cfg₂.realPrefix := by
  -- a key under both prefixes makes one of them extend the other
  have hboth : ∀ key, cfg₁.realPrefix <+: key → ¬ cfg₂.realPrefix <+: key := by
    intro key hk₁ hk₂
    rcases List.prefix_or_prefix_of_prefix hk₁ hk₂ with h | h
    · exact h₁₂ h
    · exact h₂₁ h
  have hunder₁ : ∀ key ∈ Addressable hp cr mapping₁, StaysUnder cfg₁.realPrefix key :=
    fun key hk => staysUnder_of_addressable h₁ hne₁ hk
  have hunder₂ : ∀ key ∈ Addressable hp cr mapping₂, StaysUnder cfg₂.realPrefix key :=
    fun key hk => staysUnder_of_addressable h₂ hne₂ hk
  refine ⟨?_, ?_, ?_, hunder₁, hunder₂, listsUnder_of_normalized h₁ hne₁,
    listsUnder_of_normalized h₂ hne₂⟩
  · intro key hk
    exact hboth key (hunder₁ key hk).under
  · intro key hk hother
    exact hboth key hother (hunder₂ key hk).under
  · rw [Set.disjoint_left]
    intro key hk₁ hk₂
    exact hboth key (hunder₁ key hk₁).under (hunder₂ key hk₂).under

end

/-- Tenants `t` and `u`; a read of `k` by the first names `t/k`, and all its listings carry a
    prefix under `t/`. -/
theorem tenant_isolation_of_read :
    ascii "t/k" ∈ Addressable sampleHosts sampleCrypto (sampleConfig (ascii "t")) ∧
    ¬ ascii "u/" <+: ascii "t/k" ∧
    Disjoint (Addressable sampleHosts sampleCrypto (sampleConfig (ascii "t")))
      (Addressable sampleHosts sampleCrypto (sampleConfig (ascii "u"))) ∧
    ListsUnder sampleHosts sampleCrypto (sampleConfig (ascii "t")) (ascii "t/") := by
  have h₁ : normalizeVBucketConfig sampleHosts sampleCrypto (some (sampleConfig (ascii "t"))) =
      .ok (sampleConfig (ascii "t")) := by
    decide +kernel
  have h₂ : normalizeVBucketConfig sampleHosts sampleCrypto (some (sampleConfig (ascii "u"))) =
      .ok (sampleConfig (ascii "u")) := by
    decide +kernel
  have hcheck : okAnd (planS3Operation (sampleGet []) (ascii "vbk") (ascii "k")) (fun plan =>
      okAnd (outboundRequest sampleHosts sampleCrypto (sampleGet []) plan
        (some (sampleConfig (ascii "t")))) (fun out => out.url.path = ascii "/abc/t/k")) =
      true := by
    decide +kernel
  obtain ⟨plan, hplan, hsend⟩ := exists_of_okAnd hcheck
  obtain ⟨out, hout, hpath⟩ := exists_of_okAnd hsend
  have hkey : ascii "t/k" ∈ Addressable sampleHosts sampleCrypto (sampleConfig (ascii "t")) :=
    ⟨_, _, _, plan, _, out, hplan, h₁, hout,
      .object ((of_decide_eq_true hpath).trans (by decide)) (by decide)⟩
  obtain ⟨hother, -, hdisjoint, -, -, hlists, -⟩ := tenant_isolation h₁ h₂ (by decide) (by decide)
    (by decide) (by decide)
  exact ⟨hkey, hother _ hkey, hdisjoint, hlists⟩

end S3
