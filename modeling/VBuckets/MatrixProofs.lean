import VBuckets.PlanProofs

/-! # The operation matrix

    The contract of the request surface is a table of 21 rows (`README.md`): a method, a
    path class, the query parameters a row requires and allows, whether it takes a copy
    source, and the response and body that go with it.  `matrix` states that table on its
    own terms, and `Row.Holds` says when a request lies on a row.

    Two rows are told apart by something one of them asks for and the other excludes
    (`Row.separated`); that makes the table unambiguous over every query.  The switch of
    `planS3Operation` then is the table read in one of its orders. -/

namespace S3

open ByteString Url Http

/-! ## Rows of the table -/

/-- What a row asks of a required parameter. -/
inductive Wanted where
  | exactly (value : Bytes)
  | nonEmpty
  deriving DecidableEq

/-- The value a required parameter may have. -/
def Wanted.Allows : Wanted → Bytes → Prop
  | .exactly want, value => value = want
  | .nonEmpty, value => value ≠ []

/-- One row of the operation matrix.  `copySource` is `none` where the row does not ask
    about the header. -/
structure Row where
  kind : OperationKind
  method : Bytes
  path : PathClass
  copySource : Option Bool := none
  xID : Bytes
  required : List (Bytes × Wanted) := []
  optional : List Bytes := []
  response : ResponseProfile
  body : BodyKind := .empty

/-- The keys a row knows. -/
def Row.Knows (row : Row) (key : Bytes) : Prop :=
  key ∈ row.required.map Prod.fst ∨ key ∈ row.optional ∨ key = xIDKey

/-- A query lies on a row: every parameter occurs once and is known to the row, the
    required ones are there with a value the row allows, and `x-id` names the row. -/
structure Row.QueryHolds (row : Row) (query : Values) : Prop where
  required : ∀ kw ∈ row.required, ∃ value, query.lookup kw.1 = some [value] ∧ kw.2.Allows value
  known : ∀ key ∈ query, row.Knows key
  single : ∀ key values, query.lookup key = some values → ∃ value, values = [value]
  named : xIDKey ∈ query → query.lookup xIDKey = some [row.xID]

/-- A request lies on a row. -/
structure Row.Holds (row : Row) (method : Bytes) (target : PathClass) (query : Values)
    (copy : Bool) : Prop where
  method : row.method = method
  path : row.path = target
  copySource : ∀ wanted, row.copySource = some wanted → wanted = copy
  query : row.QueryHolds query

/-- A parameter that must occur with an empty value. -/
def flag (name : String) : Bytes × Wanted := (ascii name, .exactly [])

/-- A parameter that must occur with a value. -/
def needs (name : String) : Bytes × Wanted := (ascii name, .nonEmpty)

/-- The rows C-S3-001 to C-S3-021, in the order of the contract. -/
def matrix : List Row :=
  [{ kind := .listBuckets, method := methodGet, path := .service
     xID := ascii "ListBuckets", response := .listBuckets },
   { kind := .createBucket, method := methodPut, path := .bucket, copySource := some false
     xID := ascii "CreateBucket", response := .createBucket, body := .createBucketConfiguration },
   { kind := .headBucket, method := methodHead, path := .bucket
     xID := ascii "HeadBucket", response := .safeHeaders },
   { kind := .listObjects, method := methodGet, path := .bucket
     xID := ascii "ListObjects", response := .listObjects
     optional := ["prefix", "delimiter", "marker", "max-keys", "encoding-type"].map ascii },
   { kind := .listObjectsV2, method := methodGet, path := .bucket
     xID := ascii "ListObjectsV2", response := .listObjects
     required := [(ascii "list-type", .exactly (ascii "2"))]
     optional := ["prefix", "delimiter", "continuation-token", "fetch-owner", "max-keys",
       "encoding-type", "start-after"].map ascii },
   { kind := .listMultipartUploads, method := methodGet, path := .bucket
     xID := ascii "ListMultipartUploads", response := .listMultipartUploads
     required := [flag "uploads"]
     optional := ["delimiter", "encoding-type", "key-marker", "max-uploads", "prefix",
       "upload-id-marker"].map ascii },
   { kind := .getObject, method := methodGet, path := .object
     xID := ascii "GetObject", response := .streamObject, optional := objectReadOptions },
   { kind := .headObject, method := methodHead, path := .object
     xID := ascii "HeadObject", response := .safeHeaders, optional := [ascii "partNumber"] },
   { kind := .getObjectVersion, method := methodGet, path := .object
     xID := ascii "GetObject", response := .streamObject
     required := [needs "versionId"], optional := objectReadOptions },
   { kind := .headObjectVersion, method := methodHead, path := .object
     xID := ascii "HeadObject", response := .safeHeaders
     required := [needs "versionId"], optional := [ascii "partNumber"] },
   { kind := .putObject, method := methodPut, path := .object, copySource := some false
     xID := ascii "PutObject", response := .safeHeaders, body := .streaming },
   { kind := .putObjectACL, method := methodPut, path := .object, copySource := some false
     xID := ascii "PutObjectAcl", response := .safeHeaders, body := .streaming
     required := [flag "acl"] },
   { kind := .putObjectTagging, method := methodPut, path := .object, copySource := some false
     xID := ascii "PutObjectTagging", response := .safeHeaders, body := .streaming
     required := [flag "tagging"] },
   { kind := .copyObject, method := methodPut, path := .object, copySource := some true
     xID := ascii "CopyObject", response := .copyObject },
   { kind := .deleteObject, method := methodDelete, path := .object
     xID := ascii "DeleteObject", response := .safeHeaders },
   { kind := .deleteObjectVersion, method := methodDelete, path := .object
     xID := ascii "DeleteObject", response := .safeHeaders, required := [needs "versionId"] },
   { kind := .createMultipartUpload, method := methodPost, path := .object
     xID := ascii "CreateMultipartUpload", response := .createMultipart
     required := [flag "uploads"] },
   { kind := .uploadPart, method := methodPut, path := .object, copySource := some false
     xID := ascii "UploadPart", response := .safeHeaders, body := .streaming
     required := [needs "partNumber", needs "uploadId"] },
   { kind := .listParts, method := methodGet, path := .object
     xID := ascii "ListParts", response := .listParts
     required := [needs "uploadId"], optional := ["max-parts", "part-number-marker"].map ascii },
   { kind := .completeMultipartUpload, method := methodPost, path := .object
     xID := ascii "CompleteMultipartUpload", response := .completeMultipart
     body := .completeMultipartXML, required := [needs "uploadId"] },
   { kind := .abortMultipartUpload, method := methodDelete, path := .object
     xID := ascii "AbortMultipartUpload", response := .safeHeaders
     required := [needs "uploadId"] }]

/-! ## Two rows cannot both hold -/

/-- One row requires a parameter the other does not know. -/
def Row.excludes (row other : Row) : Bool :=
  row.required.any (fun kw => !(other.required.map Prod.fst).contains kw.1 &&
    !other.optional.contains kw.1 && kw.1 != xIDKey)

/-- What tells two rows apart without looking at a request. -/
def Row.separated (row other : Row) : Bool :=
  row.method != other.method || decide (row.path ≠ other.path) ||
  (row.copySource == some true && other.copySource == some false) ||
  row.excludes other

section
variable {row other : Row} {method : Bytes} {target : PathClass} {query : Values} {copy : Bool}

theorem Row.excludes_spec (h : row.excludes other = true) (hrow : row.QueryHolds query) :
    ¬other.QueryHolds query := by
  intro hother
  obtain ⟨kw, hkw, hout⟩ := List.any_eq_true.mp h
  obtain ⟨value, hvalue, _⟩ := hrow.required kw hkw
  have hmem : kw.1 ∈ query := AList.lookup_isSome.mp (by rw [hvalue]; rfl)
  simp only [Bool.and_eq_true, Bool.not_eq_true', bne_iff_ne, ne_eq, List.contains_eq_mem,
    decide_eq_false_iff_not] at hout
  rcases hother.known kw.1 hmem with hr | ho | hx
  · exact hout.1.1 hr
  · exact hout.1.2 ho
  · exact hout.2 hx

theorem Row.separated_spec (h : row.separated other = true)
    (hrow : row.Holds method target query copy) : ¬other.Holds method target query copy := by
  intro hother
  simp only [Row.separated, Bool.or_eq_true, Bool.and_eq_true, bne_iff_ne, ne_eq,
    decide_eq_true_eq, beq_iff_eq] at h
  rcases h with ((hm | hp) | ⟨hyes, hno⟩) | hq
  · exact hm (hrow.method.trans hother.method.symm)
  · exact hp (hrow.path.trans hother.path.symm)
  · exact Bool.noConfusion ((hrow.copySource _ hyes).trans (hother.copySource _ hno).symm)
  · exact Row.excludes_spec hq hrow.query hother.query

end

/-- Two rows that no request lies on together. -/
def Row.Apart (row other : Row) : Prop :=
  row.separated other = true ∨ other.separated row = true

instance : Std.Symm Row.Apart := ⟨fun _ _ h => h.symm⟩

theorem matrix_apart : matrix.Pairwise Row.Apart := by
  have hall : matrix.Pairwise (fun row other =>
      (row.separated other || other.separated row) = true) := by decide +kernel
  exact hall.imp (fun h => Bool.or_eq_true_iff.mp h)

/-- At most one row of the table holds of a request. -/
theorem matrix_unique {row other : Row} {method : Bytes} {target : PathClass} {query : Values}
    {copy : Bool} (hrow : row ∈ matrix) (hother : other ∈ matrix)
    (h : row.Holds method target query copy) (h' : other.Holds method target query copy) :
    row = other := by
  by_contra hne
  rcases matrix_apart.forall hrow hother hne with hs | hs
  · exact Row.separated_spec hs h h'
  · exact Row.separated_spec hs h' h

/-! ## The switch reads the table -/

/-- The value `queryMatchesWithValue` is given for a required parameter. -/
def Wanted.code : Wanted → Bytes
  | .exactly value => value
  | .nonEmpty => [0]

theorem wantedValue_code {want : Wanted} (hw : want ≠ .exactly [0]) {values : List Bytes} :
    wantedValue want.code values = true ↔ ∃ value, values = [value] ∧ want.Allows value := by
  match values with
  | [] => exact ⟨(fun h => nomatch h), fun ⟨_, h, _⟩ => nomatch h⟩
  | _ :: _ :: _ => exact ⟨(fun h => nomatch h), fun ⟨_, h, _⟩ => nomatch h⟩
  | [value] =>
      have hone : (∃ v, [value] = [v] ∧ want.Allows v) ↔ want.Allows value :=
        ⟨fun ⟨_, hv, ha⟩ => (List.singleton_inj.mp hv) ▸ ha, fun ha => ⟨value, rfl, ha⟩⟩
      rw [hone]
      cases want with
      | nonEmpty => simp [wantedValue, Wanted.code, Wanted.Allows]
      | exactly want =>
          have hne : want ≠ [0] := fun he => hw (he ▸ rfl)
          have hval : wantedValue want [value] = decide (value = want) := if_neg hne
          show wantedValue want [value] = true ↔ value = want
          rw [hval, decide_eq_true_eq]

/-- The query test of a row, as the source calls it. -/
def Row.queryTest (row : Row) (query : Values) : Bool :=
  queryMatchesWithValue query row.xID (row.required.map (fun kw => (kw.1, kw.2.code)))
    row.optional

theorem Row.queryTest_iff {row : Row} (hrow : ∀ kw ∈ row.required, kw.2 ≠ .exactly [0])
    {query : Values} : row.queryTest query = true ↔ row.QueryHolds query := by
  have hkeys : (row.required.map (fun kw => (kw.1, kw.2.code))).map Prod.fst =
      row.required.map Prod.fst := by
    rw [List.map_map]
    rfl
  have hentry : ∀ {key values}, ⟨key, values⟩ ∈ query.entries ↔ query.lookup key = some values :=
    AList.mem_lookup_iff.symm
  have hmem : ∀ {key values}, query.lookup key = some values → key ∈ query := fun h =>
    AList.lookup_isSome.mp (h ▸ rfl)
  rw [Row.queryTest, queryMatchesWithValue, Bool.and_eq_true, List.all_eq_true, List.all_eq_true]
  refine ⟨?_, ?_⟩
  · rintro ⟨hreq, hall⟩
    -- one entry of the query, as the second loop saw it
    have hone : ∀ key values, query.lookup key = some values →
        row.Knows key ∧ (∃ value, values = [value]) ∧
          (key = xIDKey → values.head? = some row.xID) := by
      intro key values hlook
      have h := hall ⟨key, values⟩ (hentry.mpr hlook)
      simp only [Bool.and_eq_true, Bool.or_eq_true, List.any_eq_true, beq_iff_eq, bne_iff_ne,
        List.contains_eq_mem, decide_eq_true_eq] at h
      obtain ⟨⟨hknown, hlen⟩, hx⟩ := h
      refine ⟨?_, List.length_eq_one_iff.mp hlen, fun hkey => hx.resolve_left (fun hn => hn hkey)⟩
      rcases hknown with (⟨kw, hkw, rfl⟩ | ho) | hx
      · exact Or.inl (hkeys ▸ List.mem_map_of_mem hkw)
      · exact Or.inr (Or.inl ho)
      · exact Or.inr (Or.inr hx)
    refine ⟨?_, ?_, fun key values h => (hone key values h).2.1, ?_⟩
    · intro kw hkw
      have h := hreq (kw.1, kw.2.code) (List.mem_map_of_mem hkw)
      cases hlook : query.lookup kw.1 with
      | none =>
          simp only [hlook] at h
          cases h
      | some values =>
          simp only [hlook] at h
          obtain ⟨value, rfl, ha⟩ := (wantedValue_code (hrow kw hkw)).mp h
          exact ⟨value, rfl, ha⟩
    · intro key hkey
      obtain ⟨values, hlook⟩ := Option.isSome_iff_exists.mp (AList.lookup_isSome.mpr hkey)
      exact (hone key values hlook).1
    · intro hx
      obtain ⟨values, hlook⟩ := Option.isSome_iff_exists.mp (AList.lookup_isSome.mpr hx)
      obtain ⟨_, ⟨value, rfl⟩, hname⟩ := hone xIDKey values hlook
      rw [hlook, Option.some.inj (hname rfl)]
  · intro h
    refine ⟨?_, ?_⟩
    · intro want hwant
      obtain ⟨kw, hkw, rfl⟩ := List.mem_map.mp hwant
      obtain ⟨value, hlook, ha⟩ := h.required kw hkw
      simp only [hlook]
      exact (wantedValue_code (hrow kw hkw)).mpr ⟨value, rfl, ha⟩
    · rintro ⟨key, values⟩ he
      have hlook := hentry.mp he
      obtain ⟨value, rfl⟩ := h.single key values hlook
      simp only [Bool.and_eq_true, Bool.or_eq_true, List.any_eq_true, beq_iff_eq, bne_iff_ne,
        List.contains_eq_mem, decide_eq_true_eq]
      refine ⟨⟨?_, rfl⟩, ?_⟩
      · rcases h.known key (hmem hlook) with hr | ho | hx
        · rw [← hkeys] at hr
          obtain ⟨kw, hkw, hkey⟩ := List.mem_map.mp hr
          exact Or.inl (Or.inl ⟨kw, hkw, hkey⟩)
        · exact Or.inl (Or.inr ho)
        · exact Or.inr hx
      · by_cases hx : key = xIDKey
        · subst hx
          rw [h.named (hmem hlook)] at hlook
          exact Or.inr (congrArg List.head? (Option.some.inj hlook.symm))
        · exact Or.inl hx

/-- Every row of the table asks the query what its branch of the switch asks. -/
theorem queryHolds_eq_queryTest : ∀ row ∈ matrix, ∀ query,
    row.kind.queryHolds query = row.queryTest query := by
  intro row hrow query
  simp only [matrix, List.mem_cons, List.not_mem_nil, or_false] at hrow
  rcases hrow with rfl | rfl | rfl | rfl | rfl | rfl | rfl | rfl | rfl | rfl | rfl | rfl | rfl |
    rfl | rfl | rfl | rfl | rfl | rfl | rfl | rfl
  all_goals rfl

theorem exists_row (kind : OperationKind) : ∃ row ∈ matrix, row.kind = kind := by
  have hall : kind ∈ matrix.map Row.kind := by
    cases kind <;> decide
  obtain ⟨row, hrow, hkind⟩ := List.mem_map.mp hall
  exact ⟨row, hrow, hkind⟩

/-- The rows of a path class and a method are the branches tried there. -/
theorem mem_candidates_iff {row : Row} (hrow : row ∈ matrix) {target : PathClass}
    {method : Bytes} {copy : Bool} :
    row.kind ∈ candidates target method copy ↔
      row.method = method ∧ row.path = target ∧
        ∀ wanted, row.copySource = some wanted → wanted = copy := by
  -- one of the five methods the rows use, or none of them
  have hfive : ∀ method ∈ [methodGet, methodHead, methodPut, methodPost, methodDelete],
      ∀ target ∈ [PathClass.service, .bucket, .object], ∀ copy : Bool, ∀ row ∈ matrix,
      (row.kind ∈ candidates target method copy ↔
        row.method = method ∧ row.path = target ∧
          (row.copySource = none ∨ row.copySource = some copy)) := by decide +kernel
  have hused : ∀ row ∈ matrix,
      row.method ∈ [methodGet, methodHead, methodPut, methodPost, methodDelete] := by
    decide +kernel
  have hcopy : (∀ wanted, row.copySource = some wanted → wanted = copy) ↔
      (row.copySource = none ∨ row.copySource = some copy) := by
    cases row.copySource with
    | none | some => simp
  have htarget : target ∈ [PathClass.service, .bucket, .object] := by
    cases target <;> decide
  rw [hcopy]
  by_cases hm : method ∈ [methodGet, methodHead, methodPut, methodPost, methodDelete]
  · exact hfive method hm target htarget copy row hrow
  · have hnone : candidates target method copy = [] := by
      simp only [List.mem_cons, List.not_mem_nil, or_false, not_or] at hm
      obtain ⟨hget, hhead, hput, hpost, hdelete⟩ := hm
      cases target with
      | service => rw [candidates, if_neg hget]
      | bucket => rw [candidates, if_neg hput, if_neg hhead, if_neg hget]
      | object =>
          rw [candidates, if_neg hget, if_neg hhead, if_neg hput, if_neg hdelete, if_neg hpost]
    rw [hnone]
    exact ⟨(fun h => by cases h), fun h => absurd (h.1 ▸ hused row hrow) hm⟩

/-- A branch is taken by the requests on its row. -/
theorem Row.holds_iff {row : Row} (hrow : row ∈ matrix) {target : PathClass} {method : Bytes}
    {copy : Bool} {query : Values} :
    row.Holds method target query copy ↔
      row.kind ∈ candidates target method copy ∧ row.kind.queryHolds query = true := by
  have hcode : ∀ row ∈ matrix, ∀ kw ∈ row.required, kw.2 ≠ .exactly [0] := by decide +kernel
  rw [mem_candidates_iff hrow, queryHolds_eq_queryTest row hrow,
    Row.queryTest_iff (hcode row hrow)]
  exact ⟨fun h => ⟨⟨h.method, h.path, h.copySource⟩, h.query⟩,
    fun h => ⟨h.1.1, h.1.2.1, h.1.2.2, h.2⟩⟩

/-- At most one branch of the switch accepts a query. -/
theorem candidates_unique {target : PathClass} {method : Bytes} {copy : Bool} {query : Values}
    {kind other : OperationKind} (hkind : kind ∈ candidates target method copy)
    (hother : other ∈ candidates target method copy) (h : kind.queryHolds query = true)
    (h' : other.queryHolds query = true) : kind = other := by
  obtain ⟨row, hrow, rfl⟩ := exists_row kind
  obtain ⟨row', hrow', rfl⟩ := exists_row other
  exact congrArg Row.kind (matrix_unique hrow hrow' ((Row.holds_iff hrow).mpr ⟨hkind, h⟩)
    ((Row.holds_iff hrow').mpr ⟨hother, h'⟩))

/-- A search in which at most one element passes finds it in every order. -/
theorem find?_perm {α : Type} {p : α → Bool} {l l' : List α} (hperm : l'.Perm l)
    (hone : ∀ a ∈ l, ∀ b ∈ l, p a = true → p b = true → a = b) : l'.find? p = l.find? p := by
  cases hfind : l.find? p with
  | none =>
      rw [List.find?_eq_none] at hfind ⊢
      exact fun a ha => hfind a (hperm.mem_iff.mp ha)
  | some a =>
      have ha := List.mem_of_find?_eq_some hfind
      have hpa := List.find?_some hfind
      cases hfind' : l'.find? p with
      | none => exact absurd hpa (List.find?_eq_none.mp hfind' a (hperm.mem_iff.mpr ha))
      | some b =>
          have hb := hperm.mem_iff.mp (List.mem_of_find?_eq_some hfind')
          rw [hone a ha b hb hpa (List.find?_some hfind')]

/-- The switch selects the kind of the one row that holds. -/
theorem selectKind_eq_some_iff {target : PathClass} {method : Bytes} {copy : Bool}
    {query : Values} {kind : OperationKind} :
    selectKind target method copy query = some kind ↔
      ∃ row ∈ matrix, row.kind = kind ∧ row.Holds method target query copy := by
  refine ⟨?_, ?_⟩
  · intro h
    obtain ⟨hmem, hquery⟩ := selectKind_spec h
    obtain ⟨row, hrow, rfl⟩ := exists_row kind
    exact ⟨row, hrow, rfl, (Row.holds_iff hrow).mpr ⟨hmem, hquery⟩⟩
  · rintro ⟨row, hrow, rfl, hholds⟩
    obtain ⟨hmem, hquery⟩ := (Row.holds_iff hrow).mp hholds
    cases hsel : selectKind target method copy query with
    | none => exact absurd hquery (List.find?_eq_none.mp hsel row.kind hmem)
    | some kind =>
        obtain ⟨hmem', hquery'⟩ := selectKind_spec hsel
        rw [candidates_unique hmem' hmem hquery' hquery]

/-- What a row fixes beside its kind. -/
theorem row_profile : ∀ row ∈ matrix, row.kind.responseProfile = row.response ∧
    bodyKindForOperation row.kind = row.body := by decide +kernel

/-- **THE REQUEST GRAMMAR IS UNAMBIGUOUS**: at most one row holds; a plan is made only for
    the request of exactly one row and has its kind, response profile and body kind, and
    no parameter beyond it; a request on no row is an error; and the branches of the
    switch may be tried in any order. -/
theorem grammar_unambiguous :
    (∀ method target query copy, ∀ row ∈ matrix, ∀ other ∈ matrix,
      row.Holds method target query copy → other.Holds method target query copy → row = other) ∧
    (∀ r bucket objectKey plan, planS3Operation r bucket objectKey = .ok plan →
      ∃ query, parseQuery r.url.rawQuery = (query, true) ∧
        ∃ row ∈ matrix,
          row.Holds r.method (pathClass bucket objectKey) query (isCopyObjectRequest r.header) ∧
          (∀ other ∈ matrix, other.Holds r.method (pathClass bucket objectKey) query
            (isCopyObjectRequest r.header) → other = row) ∧
          plan.kind = row.kind ∧ plan.responseProfile = row.response ∧
          plan.bodyKind = row.body ∧
          ∀ key values, query.lookup key = some values → row.Knows key ∧ values.length = 1) ∧
    (∀ r bucket objectKey,
      (∀ row ∈ matrix, ¬row.Holds r.method (pathClass bucket objectKey)
        (parseQuery r.url.rawQuery).1 (isCopyObjectRequest r.header)) →
      ∃ e, planS3Operation r bucket objectKey = .error e) ∧
    (∀ target method copy query (order : List OperationKind),
      order.Perm (candidates target method copy) →
      order.find? (fun kind => kind.queryHolds query) = selectKind target method copy query) := by
  refine ⟨?_, ?_, ?_, ?_⟩
  · exact fun _ _ _ _ row hrow other hother h h' => matrix_unique hrow hother h h'
  · intro r bucket objectKey plan hplan
    -- the row comes from the switch; everything else is read off that row
    have hp := plan_spec hplan
    obtain ⟨row, hrow, hkind, hholds⟩ := selectKind_eq_some_iff.mp hp.kind
    obtain ⟨hresponse, hbody⟩ := row_profile row hrow
    refine ⟨plan.query, hp.query, row, hrow, hholds, ?_, hkind.symm, ?_, ?_, ?_⟩
    · exact fun other hother h => matrix_unique hother hrow h hholds
    · rw [hp.fields, ← hresponse, hkind]
      rfl
    · rw [hp.fields, ← hbody, hkind]
      rfl
    · intro key values hlook
      obtain ⟨value, rfl⟩ := hholds.query.single key values hlook
      exact ⟨hholds.query.known key (AList.lookup_isSome.mp (hlook ▸ rfl)), rfl⟩
  · intro r bucket objectKey hnone
    cases hplan : planS3Operation r bucket objectKey with
    | error e => exact ⟨e, rfl⟩
    | ok plan =>
        have hp := plan_spec hplan
        obtain ⟨row, hrow, _, hholds⟩ := selectKind_eq_some_iff.mp hp.kind
        rw [hp.query] at hnone
        exact absurd hholds (hnone row hrow)
  · intro target method copy query order hperm
    exact find?_perm hperm (fun a ha b hb hpa hpb => candidates_unique ha hb hpa hpb)

end S3
