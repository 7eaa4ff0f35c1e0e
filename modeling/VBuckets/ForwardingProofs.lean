import VBuckets.OutboundProofs

/-! # The forwarded operation is the planned one

    From an accepted plan and a normalised mapping the proxy builds a URL and a query.
    Read back, they address the real bucket and the prefixed key of the plan, carry the
    plan's query with its key-bearing values realised, and select the plan's own row.

    The one thing that can change the row is a routing token that stands for the empty
    identifier: the encoder never issues one, and the decoder does not ask. -/

namespace S3

open ByteString Url Http Mapping

/-! ## What every row asks of the rewritten parameters -/

def markerFields : List Bytes := [ascii "marker", ascii "start-after", ascii "key-marker"]

/-- Markers and prefixes belong to listings, each marker to its own; upload and version
    identifiers are asked for non-empty wherever they are allowed. -/
def rowAgrees (kind : OperationKind) (required : List (Bytes × Bytes)) (optional : List Bytes) :
    Bool :=
  let allowed := fun k => required.any (fun kw => kw.1 == k) || optional.contains k
  markerFields.all (fun k => !allowed k || (keyFields kind).contains k) &&
    (!allowed (ascii "prefix") || kind.lists) &&
    [ascii "uploadId", ascii "versionId"].all
      (fun k => !allowed k || required.contains (k, [0]))

theorem queryHolds_row {kind : OperationKind} {q : Values} (hq : q.Single)
    (h : kind.queryHolds q = true) :
    ∃ required optional, rowAgrees kind required optional = true ∧
      (∀ kw ∈ required, kw.1 ∈ q ∧ wantedValue kw.2 [q.get kw.1] = true) ∧
      ∀ k ∈ q, k ∈ required.map Prod.fst ∨ k ∈ optional ∨ k = xIDKey := by
  have hrow : ∀ {xID : Bytes} {required : List (Bytes × Bytes)} {optional : List Bytes},
      rowAgrees kind required optional = true →
      queryMatchesWithValue q xID required optional = true →
      ∃ required optional, rowAgrees kind required optional = true ∧
        (∀ kw ∈ required, kw.1 ∈ q ∧ wantedValue kw.2 [q.get kw.1] = true) ∧
        ∀ k ∈ q, k ∈ required.map Prod.fst ∨ k ∈ optional ∨ k = xIDKey := by
    intro xID required optional hagrees hm
    obtain ⟨h1, h2, -⟩ := (queryMatchesWithValue_iff hq xID required optional).mp hm
    exact ⟨required, optional, hagrees, h1, h2⟩
  -- the table, row by row
  cases kind <;> simp only [OperationKind.queryHolds, queryMatches, queryMatchesNonEmpty] at h <;>
    exact hrow (by decide) h

section
variable {kind : OperationKind} {q : Values}

theorem allowed_of_mem (required : List (Bytes × Bytes)) (optional : List Bytes) {k : Bytes}
    (hx : k ≠ xIDKey) (h : k ∈ required.map Prod.fst ∨ k ∈ optional ∨ k = xIDKey) :
    (required.any (fun kw => kw.1 == k) || optional.contains k) = true := by
  rw [Bool.or_eq_true]
  rcases h with h | h | h
  · obtain ⟨kw, hkw, rfl⟩ := List.mem_map.mp h
    exact Or.inl (List.any_eq_true.mpr ⟨kw, hkw, beq_self_eq_true _⟩)
  · exact Or.inr (List.contains_iff_mem.mpr h)
  · exact absurd h hx

/-- A marker is the marker of the listing. -/
theorem marker_of_queryHolds (hq : q.Single) (h : kind.queryHolds q = true) {k : Bytes}
    (hk : k ∈ markerFields) (hm : k ∈ q) : k ∈ keyFields kind := by
  obtain ⟨required, optional, hagrees, -, hkeys⟩ := queryHolds_row hq h
  have hx : k ≠ xIDKey := by
    rintro rfl
    exact absurd hk (by decide)
  simp only [rowAgrees, Bool.and_eq_true] at hagrees
  have hrow := List.all_eq_true.mp hagrees.1.1 k hk
  rw [allowed_of_mem required optional hx (hkeys k hm)] at hrow
  exact List.contains_iff_mem.mp hrow

/-- Only a listing has a prefix. -/
theorem lists_of_queryHolds (hq : q.Single) (h : kind.queryHolds q = true)
    (hm : ascii "prefix" ∈ q) : kind.lists = true := by
  obtain ⟨required, optional, hagrees, -, hkeys⟩ := queryHolds_row hq h
  simp only [rowAgrees, Bool.and_eq_true] at hagrees
  have hrow := hagrees.1.2
  rw [allowed_of_mem required optional (by decide) (hkeys _ hm)] at hrow
  exact hrow

/-- An upload or version identifier is never empty. -/
theorem token_ne_nil_of_queryHolds (hq : q.Single) (h : kind.queryHolds q = true) {k : Bytes}
    (hk : k ∈ [ascii "uploadId", ascii "versionId"]) (hm : k ∈ q) : q.get k ≠ [] := by
  obtain ⟨required, optional, hagrees, hreq, hkeys⟩ := queryHolds_row hq h
  have hx : k ≠ xIDKey := by
    rintro rfl
    exact absurd hk (by decide)
  simp only [rowAgrees, Bool.and_eq_true] at hagrees
  have hrow := List.all_eq_true.mp hagrees.2 k hk
  rw [allowed_of_mem required optional hx (hkeys k hm)] at hrow
  have hwant := (hreq (k, [0]) (List.contains_iff_mem.mp hrow)).2
  simpa [wantedValue] using hwant

end

/-! ## The realised query -/

/-- The query `w` is the query `q` of a plan with prefix, marker and tokens realised under
    a mapping. -/
structure Realizes (cr : Crypto) (cfg : VBucketConfig) (kind : OperationKind) (q w : Values) :
    Prop where
  listPrefix : kind.lists = true → cfg.realPrefix ≠ [] →
    w.lookup (ascii "prefix") = some [cfg.realPrefix ++ q.get (ascii "prefix")]
  marker : ∀ k ∈ markerFields, q.get k ≠ [] → w.lookup k = some [cfg.realPrefix ++ q.get k]
  token : ∀ f ∈ tokenFields, q.get f.1 ≠ [] →
    ∃ d, decodeOpaqueToken cr cfg f.2 (q.get f.1) = .ok d ∧ w.lookup f.1 = some [d]
  unchanged : ∀ k, ¬ (k = ascii "prefix" ∧ kind.lists = true ∧ cfg.realPrefix ≠ []) →
    (k ∈ markerFields ∨ k ∈ tokenFields.map Prod.fst → q.get k = []) → w.lookup k = q.lookup k

theorem keyFields_subset {kind : OperationKind} : ∀ k ∈ keyFields kind, k ∈ markerFields := by
  cases kind <;> decide

/-- The rewrite of `rewriteOutboundQuery` realises the query. -/
theorem decodeFields_realizes {cr : Crypto} {cfg : VBucketConfig} {kind : OperationKind}
    {q w : Values} (hq : q.Single) (hrow : kind.queryHolds q = true)
    (h : decodeFields cr cfg tokenFields (realizeQuery kind q cfg.realPrefix kind.lists) = .ok w) :
    Realizes cr cfg kind q w := by
  obtain ⟨hs, hl⟩ := realizeQuery_spec kind hq cfg.realPrefix kind.lists
  obtain ⟨-, hother, htoken⟩ := decodeFields_spec tokenFields (by decide) hs h
  have hpre : ascii "prefix" ∉ tokenFields.map Prod.fst := by decide
  have hdisjoint : ∀ k ∈ tokenFields.map Prod.fst, k ≠ ascii "prefix" ∧ k ∉ markerFields := by
    decide
  -- tokens reach the decoder as the client sent them
  have hkept : ∀ k ∈ tokenFields.map Prod.fst,
      (realizeQuery kind q cfg.realPrefix kind.lists).lookup k = q.lookup k := by
    intro k hk
    obtain ⟨hp, hm⟩ := hdisjoint k hk
    rw [hl k, if_neg (fun hc => hp hc.1), if_neg (fun hc => hm (keyFields_subset k hc.1))]
  refine ⟨?_, ?_, ?_, ?_⟩
  · intro hlists hP
    rw [hother _ hpre, hl, if_pos ⟨rfl, hlists, hP⟩]
  · intro k hk hne
    have hm : k ∈ q := AList.lookup_isSome.mp (by rw [lookup_of_get_ne hq hne]; rfl)
    have hfield := marker_of_queryHolds hq hrow hk hm
    have hnt : k ∉ tokenFields.map Prod.fst := fun ht => (hdisjoint k ht).2 hk
    have hnp : k ≠ ascii "prefix" := by
      rintro rfl
      exact absurd hk (by decide)
    rw [hother k hnt, hl k, if_neg (fun hc => hnp hc.1)]
    by_cases hP : cfg.realPrefix = []
    · rw [if_neg (fun hc => hc.2.2 hP), lookup_of_get_ne hq hne, hP]
      rfl
    · rw [if_pos ⟨hfield, hne, hP⟩]
  · intro f hf hne
    have hk := hkept f.1 (List.mem_map_of_mem hf)
    obtain ⟨-, hdec⟩ := htoken f hf
    rw [get_congr hk] at hdec
    exact hdec hne
  · intro k hnp hempty
    have hreal : (realizeQuery kind q cfg.realPrefix kind.lists).lookup k = q.lookup k := by
      have hnm : ¬ (k ∈ keyFields kind ∧ q.get k ≠ [] ∧ cfg.realPrefix ≠ []) :=
        fun hc => hc.2.1 (hempty (Or.inl (keyFields_subset k hc.1)))
      rw [hl k, if_neg hnp, if_neg hnm]
    by_cases hk : k ∈ tokenFields.map Prod.fst
    · obtain ⟨f, hf, rfl⟩ := List.mem_map.mp hk
      obtain ⟨hkeep, -⟩ := htoken f hf
      rw [get_congr hreal, hreal] at hkeep
      exact hkeep (hempty (Or.inr hk))
    · rw [hother k hk, hreal]

/-- Neither identifier of the query stands for the empty string. -/
def IdentifiersNonEmpty (cr : Crypto) (cfg : VBucketConfig) (q : Values) : Prop :=
  decodeOpaqueToken cr cfg .upload (q.get (ascii "uploadId")) ≠ .ok [] ∧
    decodeOpaqueToken cr cfg .version (q.get (ascii "versionId")) ≠ .ok []

section
variable {cr : Crypto} {cfg : VBucketConfig} {kind : OperationKind} {q w : Values}

/-- Where a field is not the prefix, it is there exactly when it was. -/
theorem Realizes.mem_iff (h : Realizes cr cfg kind q w) (hq : q.Single) {k : Bytes}
    (hk : k ≠ ascii "prefix") : k ∈ w ↔ k ∈ q := by
  by_cases hne : q.get k = []
  · rw [← AList.lookup_isSome, ← AList.lookup_isSome,
      h.unchanged k (fun hc => hk hc.1) (fun _ => hne)]
  · have hmem : k ∈ q := AList.lookup_isSome.mp (by rw [lookup_of_get_ne hq hne]; rfl)
    refine ⟨fun _ => hmem, fun _ => ?_⟩
    rw [← AList.lookup_isSome]
    by_cases hm : k ∈ markerFields
    · rw [h.marker k hm hne]
      rfl
    · by_cases ht : k ∈ tokenFields.map Prod.fst
      · obtain ⟨f, hf, rfl⟩ := List.mem_map.mp ht
        obtain ⟨d, -, hd⟩ := h.token f hf hne
        rw [hd]
        rfl
      · rw [h.unchanged k (fun hc => hk hc.1) (fun hc => (hc.elim hm ht).elim),
          lookup_of_get_ne hq hne]
        rfl

/-- The value of an identifier after the rewrite. -/
theorem Realizes.token_empty_iff (h : Realizes cr cfg kind q w) {f : Bytes × TokenKind}
    (hf : f ∈ tokenFields) (hne : decodeOpaqueToken cr cfg f.2 (q.get f.1) ≠ .ok []) :
    w.get f.1 = [] ↔ q.get f.1 = [] := by
  by_cases hempty : q.get f.1 = []
  · have hk : f.1 ≠ ascii "prefix" := by
      intro he
      have hmem := List.mem_map_of_mem (f := Prod.fst) hf
      rw [he] at hmem
      exact absurd hmem (by decide)
    have hsame := h.unchanged f.1 (fun hc => hk hc.1) (fun _ => hempty)
    rw [get_congr hsame]
  · obtain ⟨d, hdec, hd⟩ := h.token f hf hempty
    have hdne : d ≠ [] := by
      rintro rfl
      exact hne hdec
    rw [Values.get_of_lookup hd]
    exact ⟨fun he => absurd he hdne, fun he => absurd he hempty⟩

/-- The realised query has the shape of the plan's. -/
theorem Realizes.sameShape (h : Realizes cr cfg kind q w) (hq : q.Single) (hw : w.Single)
    (hid : IdentifiersNonEmpty cr cfg q) : SameShape q w := by
  refine ⟨hq, hw, ?_, fun k _ hk => h.mem_iff hq hk, ?_, ?_⟩
  · intro k hk
    have hsub : ∀ k, k ∈ markerFields ∨ k ∈ tokenFields.map Prod.fst → k ∈ rewrittenFields := by
      rintro k (hm | ht)
      · revert k
        decide
      · revert k
        decide
    have hnp : k ≠ ascii "prefix" := by
      rintro rfl
      exact hk (by decide)
    exact h.unchanged k (fun hc => hnp hc.1) (fun hc => absurd (hsub k hc) hk)
  · intro hp
    by_cases hc : kind.lists = true ∧ cfg.realPrefix ≠ []
    · rw [← AList.lookup_isSome, h.listPrefix hc.1 hc.2]
      rfl
    · rw [← AList.lookup_isSome,
        h.unchanged _ (fun hn => hc hn.2) (fun hm => absurd hm (by decide)), AList.lookup_isSome]
      exact hp
  · intro k hk
    simp only [List.mem_cons, List.not_mem_nil, or_false] at hk
    rcases hk with rfl | rfl
    · exact h.token_empty_iff (f := (ascii "uploadId", .upload)) (by decide) hid.1
    · exact h.token_empty_iff (f := (ascii "versionId", .version)) (by decide) hid.2

end

/-! ## The row of the forwarded request -/

section
variable {r : Request} {bucket objectKey : Bytes} {plan : S3OperationPlan}

theorem transform_object_iff {kind : OperationKind} :
    classifyS3RequestTransform kind = .objectPath ↔ kind.pathClass = .object := by
  cases kind <;> decide

theorem transform_list_eq (kind : OperationKind) :
    decide (classifyS3RequestTransform kind = .listQuery) = kind.lists := by
  cases kind <;> rfl

/-- The key in the outbound path. -/
theorem outboundKey_eq {hp : HostParser} {cfg : VBucketConfig}
    (h : Planned r bucket objectKey plan) (hn : Normalized hp cfg) :
    outboundKey cfg plan =
      if plan.kind.pathClass = .object then cfg.realPrefix ++ plan.objectKey else [] := by
  rw [outboundKey, normalizedPrefix_eq hn]
  by_cases ho : plan.kind.pathClass = .object
  · by_cases hP : cfg.realPrefix = []
    · rw [if_neg (fun hc => hc.1 hP), if_pos ho, hP]
      rfl
    · rw [if_pos ⟨hP, transform_object_iff.mpr ho⟩, if_pos ho]
  · rw [if_neg (fun hc => ho (transform_object_iff.mp hc.2)), if_neg ho]
    by_contra hk
    exact ho (h.key_iff.mpr hk)

/-- The forwarded request is in the plan's path class. -/
theorem outbound_pathClass {hp : HostParser} {cfg : VBucketConfig}
    (h : Planned r bucket objectKey plan) (hn : Normalized hp cfg)
    (hf : plan.kind.forwarded = true) :
    pathClass cfg.realBucket (outboundKey cfg plan) = plan.kind.pathClass := by
  have hb := isValidBucketName_ne_nil hn.bucket
  rw [outboundKey_eq h hn]
  by_cases ho : plan.kind.pathClass = .object
  · have hk : cfg.realPrefix ++ plan.objectKey ≠ [] :=
      fun he => h.key_iff.mp ho (List.append_eq_nil_iff.mp he).2
    rw [if_pos ho, pathClass, if_neg (fun hc => hb hc.1), if_neg hk, ho]
  · rw [if_neg ho, pathClass, if_neg (fun hc => hb hc.1), if_pos rfl]
    revert ho hf
    cases plan.kind <;> decide

/-- The realised query selects the plan's row exactly when neither identifier stands for
    the empty string. -/
theorem selectKind_realized {cr : Crypto} {cfg : VBucketConfig} {w : Values}
    (h : Planned r bucket objectKey plan) (hw : w.Single)
    (hreal : Realizes cr cfg plan.kind plan.query w) :
    selectKind plan.kind.pathClass r.method (isCopyObjectRequest r.header) w = some plan.kind ↔
      IdentifiersNonEmpty cr cfg plan.query := by
  obtain ⟨hcand, hrow⟩ := selectKind_spec h.kind
  refine ⟨?_, ?_⟩
  · -- a row that holds of the realised query asks for non-empty identifiers
    intro hsel
    have hrow' := (selectKind_spec hsel).2
    have hid : ∀ f ∈ tokenFields, f.1 ∈ [ascii "uploadId", ascii "versionId"] →
        decodeOpaqueToken cr cfg f.2 (plan.query.get f.1) ≠ .ok [] := by
      intro f hf hk hdec
      have hne : plan.query.get f.1 ≠ [] := by
        intro he
        rw [he] at hdec
        exact absurd hdec (by simp [decodeOpaqueToken, tokenHead, virtualOpaqueTokenVersion,
          hasPrefix, ascii])
      obtain ⟨d, hd, hlook⟩ := hreal.token f hf hne
      rw [hdec] at hd
      cases hd
      have hmem : f.1 ∈ w := AList.lookup_isSome.mp (by rw [hlook]; rfl)
      exact token_ne_nil_of_queryHolds hw hrow' hk hmem (Values.get_of_lookup hlook)
    exact ⟨hid (ascii "uploadId", .upload) (by decide) (by decide),
      hid (ascii "versionId", .version) (by decide) (by decide)⟩
  · intro hid
    -- the other way: no row can tell the two queries apart, except by the added prefix
    have hshape := hreal.sameShape h.single hw hid
    have hpre : (plan.kind.pathClass = .bucket ∧ r.method = methodGet) ∨
        (ascii "prefix" ∈ w ↔ ascii "prefix" ∈ plan.query) := by
      by_cases hl : plan.kind.lists = true
      · refine Or.inl ⟨?_, (candidates_spec hcand).2.1 hl⟩
        revert hl
        cases plan.kind <;> decide
      · have hsame := hreal.unchanged (ascii "prefix") (fun hc => hl hc.2.1)
          (fun hm => absurd hm (by decide))
        exact Or.inr (by rw [← AList.lookup_isSome, ← AList.lookup_isSome, hsame])
    rw [selectKind_congr hshape _ _ _ hpre, h.pathClass_eq]
    exact h.kind

end

/-! ## Forwarding -/

/-- The real path a plan addresses: the bucket root, or the prefixed key in the bucket. -/
def realTarget (cfg : VBucketConfig) (plan : S3OperationPlan) : Bytes :=
  match plan.kind.pathClass, cfg.realUsePathStyle with
  | .object, true =>
      ascii "/" ++ cfg.realBucket ++ ascii "/" ++ cfg.realPrefix ++ plan.objectKey
  | .object, false => ascii "/" ++ cfg.realPrefix ++ plan.objectKey
  | _, true => ascii "/" ++ cfg.realBucket
  | _, false => ascii "/"

/-- A URL text for an endpoint, with a path that decodes to `path` and a query; only its
    host can still be refused. -/
structure Addresses (hp : HostParser) (cfg : VBucketConfig) (text path rawQuery : Bytes) :
    Prop where
  written : ∃ endpoint spelling, parseEndpoint hp cfg.realEndpoint = some endpoint ∧
    text = endpoint.scheme ++ ascii "://" ++ escape (outboundHost cfg endpoint.host) .host ++
      spelling ++ queryPart rawQuery ∧ unescape spelling .path = some path
  parsed : ∀ u, parse hp text = some u →
    u.path = path ∧ unescape u.escapedPath .path = some path ∧ u.rawQuery = rawQuery
  pathStyle : cfg.realUsePathStyle = true → (parse hp text).isSome

theorem outboundPath_eq {hp : HostParser} {cfg : VBucketConfig} {r : Request}
    {bucket objectKey : Bytes} {plan : S3OperationPlan} (h : Planned r bucket objectKey plan)
    (hn : Normalized hp cfg) : outboundPath cfg (outboundKey cfg plan) = realTarget cfg plan := by
  rw [outboundKey_eq h hn]
  by_cases ho : plan.kind.pathClass = .object
  · have hk : cfg.realPrefix ++ plan.objectKey ≠ [] :=
      fun he => h.key_iff.mp ho (List.append_eq_nil_iff.mp he).2
    rw [if_pos ho]
    cases hs : cfg.realUsePathStyle with
    | true => simp [outboundPath, realTarget, hs, ho, hk, List.append_assoc]
    | false => simp [outboundPath, realTarget, hs, ho]
  · rw [if_neg ho]
    cases hs : cfg.realUsePathStyle with
    | true | false =>
        cases hc : plan.kind.pathClass with
        | object => exact absurd hc ho
        | bucket | service => simp [outboundPath, realTarget, hs, hc]

/-- The text `buildOutboundURL` gives addresses its path. -/
theorem buildOutboundURL_addresses {hp : HostParser} {cfg : VBucketConfig}
    (hn : Normalized hp cfg) (objectKey : Bytes) {rawQuery : Bytes}
    (hq : ∀ b ∈ rawQuery, IsPlain b) :
    ∃ text, buildOutboundURL hp cfg objectKey rawQuery = some text ∧
      Addresses hp cfg text (outboundPath cfg objectKey) rawQuery := by
  obtain ⟨scheme, host, -, hend, hhost, hbuild, hparse⟩ := buildOutboundURL_spec hn objectKey hq
  obtain ⟨t, ht⟩ := outboundPath_absolute cfg objectKey
  have hread : unescape (escape (outboundPath cfg objectKey) .path) .path =
      some (outboundPath cfg objectKey) := unescape_escape (by decide) _
  refine ⟨_, hbuild, ⟨⟨_, _, hend, rfl, hread⟩, ?_, ?_⟩⟩
  · intro u hu
    rw [hparse] at hu
    obtain ⟨h', -, rfl⟩ := Option.map_eq_some_iff.mp hu
    have hstar : ¬ outboundPath cfg objectKey = ascii "*" := by
      rw [ht]
      exact fun he => absurd (List.cons.inj he).1 (by decide)
    refine ⟨rfl, ?_, rfl⟩
    rw [URL.escapedPath, if_neg (fun hc => hc.1 rfl), if_neg hstar, hread]
  · intro hs
    rw [hparse, outboundHost, if_pos hs, hhost]
    rfl

section
variable {hp : HostParser} {cr : Crypto} {cfg : VBucketConfig} {r : Request}
  {bucket objectKey : Bytes} {plan : S3OperationPlan} {rawQuery : Bytes}

theorem Realizes.congr {kind : OperationKind} {q w v : Values} (h : Realizes cr cfg kind q w)
    (hv : ∀ k, v.lookup k = w.lookup k) : Realizes cr cfg kind q v :=
  ⟨fun hl hP => (hv _).trans (h.listPrefix hl hP),
    fun k hk hne => (hv k).trans (h.marker k hk hne),
    fun f hf hne => (h.token f hf hne).imp (fun _ hd => ⟨hd.1, (hv f.1).trans hd.2⟩),
    fun k hnp he => (hv k).trans (h.unchanged k hnp he)⟩

/-- A rewritten query is read as the realised query of the plan. -/
theorem rewritten_realizes (h : Planned r bucket objectKey plan) (hn : Normalized hp cfg)
    (hrewrite : rewriteOutboundQuery cr plan.kind plan.rawQuery (normalizedPrefix cfg)
      (classifyS3RequestTransform plan.kind = .listQuery) (some cfg) = .ok rawQuery) :
    (∀ b ∈ rawQuery, IsPlain b) ∧ ∃ w, parseQuery rawQuery = (w, true) ∧ w.Single ∧
      Realizes cr cfg plan.kind plan.query w := by
  obtain ⟨w, hw, rfl, hdec⟩ :=
    rewriteOutboundQuery_spec (h.rawQuery_eq ▸ h.query) h.single hrewrite
  rw [normalizedPrefix_eq hn, transform_list_eq] at hdec
  have hreal := decodeFields_realizes h.single (selectKind_spec h.kind).2 hdec
  obtain ⟨v, hv, hlook⟩ := parseQuery_encode hw
  exact ⟨isPlain_encode hw, v, hv, fun k vs hvs => hw k vs ((hlook k).symm.trans hvs),
    hreal.congr hlook⟩

/-- The text of the outbound URL addresses what the plan names. -/
theorem planned_addresses (h : Planned r bucket objectKey plan) (hn : Normalized hp cfg)
    (hplain : ∀ b ∈ rawQuery, IsPlain b) :
    ∃ text, buildOutboundURL hp cfg (outboundKey cfg plan) rawQuery = some text ∧
      Addresses hp cfg text (realTarget cfg plan) rawQuery := by
  obtain ⟨text, hbuild, haddr⟩ := buildOutboundURL_addresses hn (outboundKey cfg plan) hplain
  rw [outboundPath_eq h hn] at haddr
  exact ⟨text, hbuild, haddr⟩

/-- What an outbound request addresses and asks. -/
theorem sent_reads {mapping : Option VBucketConfig} {out : OutboundRequest}
    (h : Planned r bucket objectKey plan) (hsent : Sent hp cr r plan mapping cfg out) :
    out.url.path = realTarget cfg plan ∧
      rewriteOutboundQuery cr plan.kind plan.rawQuery (normalizedPrefix cfg)
        (classifyS3RequestTransform plan.kind = .listQuery) (some cfg) = .ok out.url.rawQuery := by
  have hn := normalize_spec hsent.mapping
  obtain ⟨rawQuery, text, hraw, htext, hurl⟩ := hsent.query
  obtain ⟨text', hbuild, haddr⟩ := planned_addresses h hn (rewritten_realizes h hn hraw).1
  cases hbuild.symm.trans htext
  obtain ⟨hpath, -, hquery⟩ := haddr.parsed out.url hurl
  exact ⟨hpath, hquery ▸ hraw⟩

/-- **AUTHORIZED IS FORWARDED**: for every accepted plan of a forwarded operation, every
    accepted mapping and every query the rewrite succeeds on, the outbound request has the
    plan's method, addresses the real bucket or the prefixed key that IAM saw, and carries
    the plan's query with its key-bearing values realised.  It selects the plan's own row
    if and only if no upload or version token stands for the empty identifier. -/
theorem forwarded_operation {mapping : Option VBucketConfig}
    (hplan : planS3Operation r bucket objectKey = .ok plan)
    (hforward : plan.kind.forwarded = true)
    (hmapping : normalizeVBucketConfig hp cr mapping = .ok cfg)
    (hrewrite : rewriteOutboundQuery cr plan.kind plan.rawQuery (normalizedPrefix cfg)
      (classifyS3RequestTransform plan.kind = .listQuery) (some cfg) = .ok rawQuery) :
    plan.method = r.method ∧
    (plan.kind.pathClass = .object → plan.objectKey ≠ [] ∧
      ∃ check ∈ plan.iamChecks, check.action = plan.kind.action ∧
        check.resource = s3ObjectARN plan.bucket plan.objectKey) ∧
    (∃ text, buildOutboundURL hp cfg (outboundKey cfg plan) rawQuery = some text ∧
      Addresses hp cfg text (realTarget cfg plan) rawQuery) ∧
    (∃ w, parseQuery rawQuery = (w, true) ∧ Realizes cr cfg plan.kind plan.query w ∧
      (selectKind (pathClass cfg.realBucket (outboundKey cfg plan)) plan.method
          (isCopyObjectRequest r.header) w = some plan.kind ↔
        IdentifiersNonEmpty cr cfg plan.query)) ∧
    ∀ out, outboundRequest hp cr r plan mapping = .ok out →
      out.method = plan.method ∧ out.url.path = realTarget cfg plan ∧
        out.url.rawQuery = rawQuery := by
  have h := plan_spec hplan
  have hn := normalize_spec hmapping
  obtain ⟨hplain, w, hw, hsingle, hreal⟩ := rewritten_realizes h hn hrewrite
  refine ⟨h.method_eq, ?_, planned_addresses h hn hplain, ⟨w, hw, hreal, ?_⟩, ?_⟩
  · intro ho
    refine ⟨h.key_iff.mp ho,
      newIAMRequest plan.kind.action (plan.kind.resource plan.bucket plan.objectKey), ?_, rfl, ?_⟩
    · rw [h.iamChecks_eq]
      exact List.mem_cons_self
    · show plan.kind.resource plan.bucket plan.objectKey = _
      rw [OperationKind.resource, ho]
  · rw [outbound_pathClass h hn hforward, h.method_eq]
    exact selectKind_realized h hsingle hreal
  · intro out hout
    obtain ⟨cfg', hsent⟩ := outboundRequest_spec hout
    cases hmapping.symm.trans hsent.mapping
    obtain ⟨hpath, hraw⟩ := sent_reads h hsent
    exact ⟨hsent.method, hpath, Except.ok.inj (hraw.symm.trans hrewrite)⟩

end

/-! ## One mapping, two reads of a version -/

/-- A host parser that knows one host. -/
def sampleHosts : HostParser where
  parseHost := fun _ host => if host = ascii "h" then some (ascii "h") else none
  reparse := by
    intro scheme raw host h
    split at h
    · cases h
      rfl
    · exact nomatch h

/-- Primitives under which every text is its own ciphertext. -/
def sampleCrypto : Crypto where
  sha256 := fun _ => List.replicate 32 0
  hmacSHA256 := fun _ _ => List.replicate 32 0
  gcmSeal := fun _ _ plaintext _ => plaintext
  gcmOpen := fun _ _ ciphertext _ => some ciphertext
  sha256_length := digestZeros_length
  hmacSHA256_length := macZeros_length

/-- A path-style mapping in normal form. -/
def sampleConfig (pathPrefix : Bytes) : VBucketConfig where
  realEndpoint := ascii "http://h"
  realBucket := ascii "abc"
  realAccessKey := ascii "k"
  realSecretKey := ascii "s"
  realRegion := ascii "r"
  pathPrefix := pathPrefix
  realUsePathStyle := true
  routingTokenKey := List.replicate 32 0
  routingTokenCodec := some
    { aeadKey := List.replicate 32 0
      nonceKey := List.replicate 32 0
      realBucket := ascii "abc"
      pathPrefix := pathPrefix
      realEndpoint := ascii "http://h"
      routingKey := List.replicate 32 0 }

/-- A read of the key `k` with a query. -/
def sampleGet (rawQuery : Bytes) : Request where
  method := methodGet
  host := ascii "h"
  url := { path := ascii "/vbk/k", rawQuery := rawQuery }
  header := ∅
  contentLength := 0
  transferEncoding := []
  tls := false
  body := none
  tokens := isToken_of_mem_empty

/-- The version whose identifier is `x`. -/
def versionQuery : Bytes := ascii "versionId=vb1.version.AAAAAAAAAAAAAAAAeA"

/-- The version whose identifier is empty. -/
def emptyVersionQuery : Bytes := ascii "versionId=vb1.version.AAAAAAAAAAAAAAAA"

theorem forwarded_operation_of_version :
    ∃ plan rawQuery text w,
      planS3Operation (sampleGet versionQuery) (ascii "vbk") (ascii "k") = .ok plan ∧
      normalizeVBucketConfig sampleHosts sampleCrypto (some (sampleConfig (ascii "t"))) =
        .ok (sampleConfig (ascii "t")) ∧
      rewriteOutboundQuery sampleCrypto plan.kind plan.rawQuery
        (normalizedPrefix (sampleConfig (ascii "t")))
        (classifyS3RequestTransform plan.kind = .listQuery) (some (sampleConfig (ascii "t"))) =
        .ok rawQuery ∧
      Addresses sampleHosts (sampleConfig (ascii "t")) text (ascii "/abc/t/k") rawQuery ∧
      parseQuery rawQuery = (w, true) ∧
      selectKind .object methodGet false w = some .getObjectVersion := by
  have hcheck : okAnd (planS3Operation (sampleGet versionQuery) (ascii "vbk") (ascii "k"))
      (fun plan => plan.kind = .getObjectVersion && plan.objectKey = ascii "k" &&
        plan.method = methodGet &&
        decodeOpaqueToken sampleCrypto (sampleConfig (ascii "t")) .upload
          (plan.query.get (ascii "uploadId")) ≠ .ok [] &&
        decodeOpaqueToken sampleCrypto (sampleConfig (ascii "t")) .version
          (plan.query.get (ascii "versionId")) ≠ .ok [] &&
        okAnd (rewriteOutboundQuery sampleCrypto plan.kind plan.rawQuery
          (normalizedPrefix (sampleConfig (ascii "t")))
          (classifyS3RequestTransform plan.kind = .listQuery) (some (sampleConfig (ascii "t"))))
          (fun _ => true)) = true := by
    decide +kernel
  obtain ⟨plan, hplan, htest⟩ := exists_of_okAnd hcheck
  simp only [Bool.and_eq_true, decide_eq_true_eq] at htest
  obtain ⟨⟨⟨⟨⟨hkind, hkey⟩, hmethod⟩, hupload⟩, hversion⟩, hrewrite⟩ := htest
  obtain ⟨rawQuery, hraw, -⟩ := exists_of_okAnd hrewrite
  have hmapping : normalizeVBucketConfig sampleHosts sampleCrypto
      (some (sampleConfig (ascii "t"))) = .ok (sampleConfig (ascii "t")) := by
    decide +kernel
  have hforward : plan.kind.forwarded = true := by
    rw [hkind]
    rfl
  obtain ⟨-, -, ⟨text, -, haddr⟩, ⟨w, hw, -, hsel⟩, -⟩ :=
    forwarded_operation hplan hforward hmapping hraw
  have hclass : pathClass (sampleConfig (ascii "t")).realBucket
      (outboundKey (sampleConfig (ascii "t")) plan) = .object := by
    rw [outboundKey, hkind, hkey]
    decide
  have htarget : realTarget (sampleConfig (ascii "t")) plan = ascii "/abc/t/k" := by
    rw [realTarget, hkind, hkey]
    decide
  have hselect := hsel.mpr ⟨hupload, hversion⟩
  rw [hclass, hmethod, hkind] at hselect
  rw [htarget] at haddr
  exact ⟨plan, rawQuery, text, w, hplan, hmapping, hraw, haddr, hw, hselect⟩

/-- A version token of the empty identifier is accepted and forwarded as `versionId=`, which
    no row of the grammar allows. -/
theorem empty_version_selects_no_row :
    ∃ plan rawQuery w,
      planS3Operation (sampleGet emptyVersionQuery) (ascii "vbk") (ascii "k") = .ok plan ∧
      plan.kind = .getObjectVersion ∧
      normalizeVBucketConfig sampleHosts sampleCrypto (some (sampleConfig (ascii "t"))) =
        .ok (sampleConfig (ascii "t")) ∧
      rewriteOutboundQuery sampleCrypto plan.kind plan.rawQuery
        (normalizedPrefix (sampleConfig (ascii "t")))
        (classifyS3RequestTransform plan.kind = .listQuery) (some (sampleConfig (ascii "t"))) =
        .ok rawQuery ∧
      parseQuery rawQuery = (w, true) ∧
      selectKind (pathClass (sampleConfig (ascii "t")).realBucket
        (outboundKey (sampleConfig (ascii "t")) plan)) plan.method
        (isCopyObjectRequest (sampleGet emptyVersionQuery).header) w = none := by
  have hcheck : okAnd (planS3Operation (sampleGet emptyVersionQuery) (ascii "vbk") (ascii "k"))
      (fun plan => plan.kind = .getObjectVersion &&
        okAnd (rewriteOutboundQuery sampleCrypto plan.kind plan.rawQuery
          (normalizedPrefix (sampleConfig (ascii "t")))
          (classifyS3RequestTransform plan.kind = .listQuery) (some (sampleConfig (ascii "t"))))
          (fun rawQuery => (parseQuery rawQuery).2 &&
            selectKind (pathClass (sampleConfig (ascii "t")).realBucket
              (outboundKey (sampleConfig (ascii "t")) plan)) plan.method
              (isCopyObjectRequest (sampleGet emptyVersionQuery).header)
              (parseQuery rawQuery).1 = none)) = true := by
    decide +kernel
  obtain ⟨plan, hplan, htest⟩ := exists_of_okAnd hcheck
  rw [Bool.and_eq_true, decide_eq_true_eq] at htest
  obtain ⟨rawQuery, hraw, hrow⟩ := exists_of_okAnd htest.2
  rw [Bool.and_eq_true, decide_eq_true_eq] at hrow
  exact ⟨plan, rawQuery, (parseQuery rawQuery).1, hplan, htest.1, by decide +kernel, hraw,
    Prod.ext rfl hrow.1, hrow.2⟩

end S3
