import VBuckets.PolicyMeaningProofs
import VBuckets.StrconvProofs
import VBuckets.HeaderForwardingProofs

/-! # Conditions always evaluate

    The condition keys of the proxy (`http_server/iam.go`) with their types, the readers
    policies are evaluated with, and the texts the sealed context holds.  An operand is
    read when the policy is installed, by the readers that read it again later; a value of
    the context is a text the proxy wrote or an integer the planner checked.  So a typed
    condition compares what both sides read as, and never fails to read. -/

namespace Iam

open ByteString Json S3

/-- Seconds since the epoch, or a date in one of two layouts. -/
def parseIAMTime (value : Bytes) : Option Int :=
  match atoi value with
  | some seconds => some (Time.ofUnix seconds)
  | none =>
      match Time.parseRFC3339 value with
      | some t => some t
      | none => Time.parseZulu value

/-- The readers of the standard library, with any wildcard matcher. -/
def libraryCompiler (wildcard : (pattern value : Bytes) → Bool) (compiles : Bytes → Bool) :
    Compiler where
  wildcard := wildcard
  parseBool := Strconv.parseBool
  parseNumber := Strconv.parseFloat
  parseIAMTime := parseIAMTime
  compiles := compiles

end Iam

namespace S3

open ByteString Url Http Iam Json Reorder

/-! ## Condition keys -/

/-- `s3ConditionKeyTypes`. -/
def conditionKeyTable : List (Sigma (fun _ : Bytes => ConditionValueType)) :=
  [⟨ascii "s3:prefix", .string⟩, ⟨ascii "s3:delimiter", .string⟩,
    ⟨ascii "s3:max-keys", .numeric⟩, ⟨ascii "s3:locationconstraint", .string⟩,
    ⟨ascii "s3:authtype", .string⟩, ⟨ascii "s3:signatureversion", .string⟩,
    ⟨ascii "s3:signatureage", .numeric⟩, ⟨ascii "s3:x-amz-acl", .string⟩,
    ⟨ascii "s3:x-amz-copy-source", .string⟩, ⟨ascii "s3:x-amz-grant-full-control", .string⟩,
    ⟨ascii "s3:x-amz-grant-read", .string⟩, ⟨ascii "s3:x-amz-grant-read-acp", .string⟩,
    ⟨ascii "s3:x-amz-grant-write", .string⟩, ⟨ascii "s3:x-amz-grant-write-acp", .string⟩,
    ⟨ascii "s3:x-amz-metadata-directive", .string⟩,
    ⟨ascii "s3:x-amz-server-side-encryption", .string⟩, ⟨ascii "s3:x-amz-storage-class", .string⟩,
    ⟨ascii "s3:x-amz-tagging", .string⟩, ⟨ascii "s3:x-amz-tagging-directive", .string⟩,
    ⟨ascii "aws:currenttime", .date⟩, ⟨ascii "aws:epochtime", .numeric⟩,
    ⟨ascii "aws:securetransport", .bool⟩]

theorem conditionKeyTable_nodup : (conditionKeyTable.map Sigma.fst).Nodup := by
  unfold conditionKeyTable
  repeat rw [ascii_ofList]
  decide +kernel

def s3ConditionKeyTypes : AList (fun _ : Bytes => ConditionValueType) :=
  ⟨conditionKeyTable, conditionKeyTable_nodup⟩

/-- The same keys. -/
def s3AllowedConditionKeys : AList (fun _ : Bytes => Bool) :=
  ⟨conditionKeyTable.map (fun e => ⟨e.1, true⟩),
    show (List.keys _).Nodup by
      rw [List.keys, List.map_map]
      exact conditionKeyTable_nodup⟩

def parseS3IAMPolicyJSON (c : Compiler) (doc : Value) : Except Reason Policy :=
  parsePolicyJSON c
    { allowedConditionKeys := s3AllowedConditionKeys, conditionKeyTypes := s3ConditionKeyTypes } doc

/-- The keys of each type that is not text. -/
def typedKeys : ConditionValueType → List Bytes
  | .numeric => [ascii "s3:max-keys", ascii "s3:signatureage", ascii "aws:epochtime"]
  | .date => [ascii "aws:currenttime"]
  | .bool => [ascii "aws:securetransport"]
  | .string | .any => []

/-- Every key a policy may name has a type. -/
theorem conditionKeyType_spec {key : Bytes}
    (h : (canonicalConditionKeySet s3AllowedConditionKeys).contains key = true) :
    conditionKeyType s3ConditionKeyTypes key ≠ .any ∧ toLower key = key ∧
      (conditionKeyType s3ConditionKeyTypes key ≠ .string →
        key ∈ typedKeys (conditionKeyType s3ConditionKeyTypes key)) := by
  have hall : ∀ key ∈ canonicalConditionKeySet s3AllowedConditionKeys,
      conditionKeyType s3ConditionKeyTypes key ≠ .any ∧ toLower key = key ∧
        (conditionKeyType s3ConditionKeyTypes key ≠ .string →
          key ∈ typedKeys (conditionKeyType s3ConditionKeyTypes key)) := by
    unfold conditionKeyType canonicalConditionKeyTypes canonicalConditionKeySet
      s3ConditionKeyTypes s3AllowedConditionKeys typedKeys conditionKeyTable
    dsimp only
    repeat rw [ascii_ofList]
    decide +kernel
  exact hall key (List.contains_iff_mem.mp h)

/-! ## Integers -/

theorem cutSign_digits {digits : Bytes} (h : digits.all isDigitASCII = true) :
    Strconv.cutSign digits = (false, digits) := by
  rw [Strconv.cutSign.eq_def]
  split
  · rw [List.all_cons, Bool.and_eq_true] at h
    exact nomatch h.1
  · rw [List.all_cons, Bool.and_eq_true] at h
    exact nomatch h.1
  · rfl

theorem hasPrefix_singleton (b c : UInt8) (s : Bytes) :
    hasPrefix (c :: s) [b] = (b == c) := by
  simp [hasPrefix, List.isPrefixOf]

/-- The parts of a text that `strconv.Atoi` accepts. -/
theorem atoi_ok {s : Bytes} {n : Int} (h : atoi s = some n) :
    ∃ negative digits, Strconv.cutSign s = (negative, digits) ∧ digits ≠ [] ∧
      digits.all isDigitASCII = true ∧ Domain.decimal digits ≤ 2 ^ 63 ∧
      (s = digits ∨ s = 43 :: digits ∨ s = 45 :: digits) := by
  have hparts : ∀ (digits : Bytes) (negative : Bool),
      (if digits = [] || !digits.all isDigitASCII then none
      else if negative then
        if Domain.decimal digits ≤ 2 ^ 63 then some (-(Domain.decimal digits : Int)) else none
      else if Domain.decimal digits < 2 ^ 63 then some (Domain.decimal digits : Int)
      else none) = some n →
      digits ≠ [] ∧ digits.all isDigitASCII = true ∧ Domain.decimal digits ≤ 2 ^ 63 := by
    intro digits negative h
    split at h
    · exact nomatch h
    · next hd =>
        simp only [Bool.or_eq_true, decide_eq_true_eq, Bool.not_eq_true', not_or,
          Bool.not_eq_false] at hd
        refine ⟨hd.1, hd.2, ?_⟩
        split at h
        · split at h
          · next hle => exact hle
          · exact nomatch h
        · split at h
          · next hlt => exact Nat.le_of_lt hlt
          · exact nomatch h
  cases s with
  | nil =>
      have hnone : atoi [] = none := by decide
      exact nomatch hnone.symm.trans h
  | cons c s =>
      rw [atoi] at h
      simp only [show ascii "-" = [45] from rfl, show ascii "+" = [43] from rfl,
        hasPrefix_singleton, List.drop_one, List.tail_cons] at h
      by_cases hminus : c = 45
      · subst hminus
        obtain ⟨hne, hall, hbound⟩ := hparts s true h
        exact ⟨true, s, rfl, hne, hall, hbound, Or.inr (Or.inr rfl)⟩
      · by_cases hplus : c = 43
        · subst hplus
          obtain ⟨hne, hall, hbound⟩ := hparts s false h
          exact ⟨false, s, rfl, hne, hall, hbound, Or.inr (Or.inl rfl)⟩
        · have hsign : ((45 : UInt8) == c) = false ∧ ((43 : UInt8) == c) = false := by
            simp only [beq_eq_false_iff_ne]
            exact ⟨fun h => hminus h.symm, fun h => hplus h.symm⟩
          simp only [hsign.1, hsign.2, Bool.or_self, Bool.false_eq_true, if_false] at h
          obtain ⟨hne, hall, hbound⟩ := hparts (c :: s) false h
          exact ⟨false, c :: s, cutSign_digits hall, hne, hall, hbound, Or.inl rfl⟩

theorem parseFloat_of_atoi {s : Bytes} {n : Int} (h : atoi s = some n) :
    (Strconv.parseFloat s).isSome = true := by
  obtain ⟨negative, digits, hcut, hne, hall, hbound, hs⟩ := atoi_ok h
  have hline : (95 : UInt8) ∉ digits := fun hm => nomatch List.all_eq_true.mp hall 95 hm
  refine Strconv.parseFloat_digits hcut hne hall ?_ hbound
  rcases hs with rfl | rfl | rfl
  · exact hline
  · simpa using hline
  · simpa using hline

/-- A text of digits is read as its number. -/
theorem atoi_digits {digits : Bytes} (hne : digits ≠ []) (hall : digits.all isDigitASCII = true)
    (hbound : Domain.decimal digits < 2 ^ 63) :
    atoi digits = some (Domain.decimal digits : Int) := by
  have hvalid : ¬ (digits = [] || !digits.all isDigitASCII) = true := by
    simp [hne, hall]
  have hsign : hasPrefix digits (ascii "-") = false ∧ hasPrefix digits (ascii "+") = false := by
    cases digits with
    | nil => exact absurd rfl hne
    | cons c s =>
        rw [List.all_cons, Bool.and_eq_true] at hall
        rw [show ascii "-" = [45] from rfl, show ascii "+" = [43] from rfl, hasPrefix_singleton,
          hasPrefix_singleton, beq_eq_false_iff_ne, beq_eq_false_iff_ne]
        constructor
        · rintro rfl
          exact nomatch hall.1
        · rintro rfl
          exact nomatch hall.1
  rw [atoi]
  simp only [hsign.1, hsign.2, Bool.or_self, Bool.false_eq_true, if_false, if_neg hvalid,
    if_pos hbound]

theorem atoi_negative {digits : Bytes} (hne : digits ≠ []) (hall : digits.all isDigitASCII = true)
    (hbound : Domain.decimal digits ≤ 2 ^ 63) :
    atoi (45 :: digits) = some (-(Domain.decimal digits : Int)) := by
  have hvalid : ¬ (digits = [] || !digits.all isDigitASCII) = true := by
    simp [hne, hall]
  rw [atoi]
  simp only [show ascii "-" = [45] from rfl, hasPrefix_singleton, beq_self_eq_true, Bool.true_or,
    if_true, List.drop_one, List.tail_cons, if_neg hvalid, if_pos hbound]

theorem toString_ne_nil (n : Nat) : ascii (toString n) ≠ [] := by
  rw [Time.digits_eq]
  exact fun h => nomatch (List.append_eq_nil_iff.mp h).2

/-- An `int64` is written as a text that reads as it. -/
theorem atoi_formatInt {n : Int} (hlow : -2 ^ 63 ≤ n) (hhigh : n < 2 ^ 63) :
    atoi (Time.formatInt n) = some n := by
  cases n with
  | ofNat n =>
      obtain ⟨hvalue, hall⟩ := Time.digits_spec n
      replace hhigh : (n : Int) < 2 ^ 63 := hhigh
      have hread := atoi_digits (toString_ne_nil n) hall (by rw [hvalue]; omega)
      rw [hvalue] at hread
      exact hread
  | negSucc n =>
      obtain ⟨hvalue, hall⟩ := Time.digits_spec (n + 1)
      have htext : Time.formatInt (.negSucc n) = 45 :: ascii (toString (n + 1)) := by
        show ascii ("-" ++ toString (n + 1)) = _
        simp [ascii]
      have hread := atoi_negative (toString_ne_nil (n + 1)) hall (by rw [hvalue]; omega)
      rw [hvalue] at hread
      rw [htext, hread]
      rfl

/-! ## The sealed context -/

section
variable {r : Request} {bucket objectKey : Bytes} {plan : S3OperationPlan}

/-- A key of the wire context that no header has. -/
theorem lookup_wireContext_other (kind : OperationKind) (tls : Bool) (query : Values)
    (headers : Header) {k : Bytes} (hk : k ∉ s3HeaderConditionKeys.map Prod.snd) :
    (buildS3IAMWireContext kind tls query headers).lookup k =
      (addListConditions kind query
        (((AList.insert (ascii "s3:authtype") [ascii "REST-HEADER"] ∅).insert
          (ascii "s3:signatureversion") [ascii "AWS4-HMAC-SHA256"]).insert
          (ascii "aws:securetransport") [if tls then ascii "true" else ascii "false"])).lookup k := by
  rw [buildS3IAMWireContext, lookup_foldl_other headers hk]

theorem lookup_secureTransport (h : Planned r bucket objectKey plan) (locationConstraint : Bytes)
    (now : Time.Instant) :
    (plan.authorizationContext locationConstraint now).lookup (ascii "aws:securetransport") =
      some [if r.tls then ascii "true" else ascii "false"] := by
  rw [lookup_authorizationContext plan locationConstraint now (by decide +kernel),
    h.iamContext_eq, lookup_wireContext_other _ _ _ _ (by decide +kernel),
    lookup_addListConditions _ _ _ (by decide +kernel), AList.lookup_insert]

/-- Sealing sets the keys of the clock. -/
theorem lookup_clock (plan : S3OperationPlan) (locationConstraint : Bytes) (now : Time.Instant) :
    (plan.authorizationContext locationConstraint now).lookup (ascii "aws:currenttime") =
        some [Time.formatRFC3339 now] ∧
    (plan.authorizationContext locationConstraint now).lookup (ascii "aws:epochtime") =
        some [Time.formatInt (Time.unix now)] := by
  rw [lookup_sealed _ _ _ (by decide) (by decide), lookup_sealed _ _ _ (by decide) (by decide),
    AList.lookup_insert, AList.lookup_insert_ne (by decide), AList.lookup_insert]
  exact ⟨rfl, rfl⟩

/-- The age of a signature is there when the date of the request reads. -/
theorem lookup_signatureAge (h : Planned r bucket objectKey plan) (locationConstraint : Bytes)
    (now : Time.Instant) {values : List Bytes}
    (hv : (plan.authorizationContext locationConstraint now).lookup (ascii "s3:signatureage") =
      some values) :
    ∃ signedAt, values = [Time.formatInt (Time.milliseconds (max 0 (Time.sub now signedAt)))] := by
  rw [S3OperationPlan.authorizationContext] at hv
  split at hv
  · next signedAt _ =>
      rw [AList.lookup_insert] at hv
      exact ⟨signedAt, (Option.some.inj hv).symm⟩
  · -- without the date nothing puts the key there
    have hnone : plan.iamContext.lookup (ascii "s3:signatureage") = none := by
      rw [h.iamContext_eq, lookup_wireContext_other _ _ _ _ (by decide +kernel),
        lookup_addListConditions _ _ _ (by decide +kernel), AList.lookup_insert_ne (by decide),
        AList.lookup_insert_ne (by decide), AList.lookup_insert_ne (by decide),
        AList.lookup_empty]
    split at hv
    · rw [AList.lookup_insert_ne (by decide), AList.lookup_insert_ne (by decide),
        AList.lookup_insert_ne (by decide), hnone] at hv
      cases hv
    · rw [AList.lookup_insert_ne (by decide), AList.lookup_insert_ne (by decide), hnone] at hv
      cases hv

/-- The page size of a listing is the one in its query. -/
theorem lookup_maxKeys (h : Planned r bucket objectKey plan) (locationConstraint : Bytes)
    (now : Time.Instant) {values : List Bytes}
    (hv : (plan.authorizationContext locationConstraint now).lookup (ascii "s3:max-keys") =
      some values) : plan.query.lookup (ascii "max-keys") = some values := by
  rw [lookup_authorizationContext plan locationConstraint now (by decide +kernel),
    h.iamContext_eq, lookup_wireContext_other _ _ _ _ (by decide +kernel), addListConditions] at hv
  split at hv
  · cases hmax : plan.query.lookup (ascii "max-keys") with
    | some found =>
        simp only [hmax, AList.lookup_insert] at hv
        exact hv
    | none =>
        simp only [hmax] at hv
        split at hv
        · rw [AList.lookup_insert_ne (by decide), AList.lookup_insert_ne (by decide),
            AList.lookup_insert_ne (by decide), AList.lookup_insert_ne (by decide),
            AList.lookup_insert_ne (by decide), AList.lookup_empty] at hv
          cases hv
        · rw [AList.lookup_insert_ne (by decide), AList.lookup_insert_ne (by decide),
            AList.lookup_insert_ne (by decide), AList.lookup_insert_ne (by decide),
            AList.lookup_empty] at hv
          cases hv
  · rw [AList.lookup_insert_ne (by decide), AList.lookup_insert_ne (by decide),
      AList.lookup_insert_ne (by decide), AList.lookup_empty] at hv
    cases hv

/-- A page size the planner accepts is one integer. -/
theorem maxKeys_integer (h : Planned r bucket objectKey plan) {values : List Bytes}
    (hv : plan.query.lookup (ascii "max-keys") = some values) :
    ∃ value n, values = [value] ∧ atoi value = some n := by
  obtain ⟨value, rfl⟩ := h.single _ _ hv
  have hcheck : validateOptionalInteger plan.query "max-keys" 0 1000 = .ok () := by
    obtain ⟨-, hq⟩ := seq_ok_iff.mp h.values
    obtain ⟨-, hq⟩ := seq_ok_iff.mp hq
    obtain ⟨-, hq⟩ := seq_ok_iff.mp hq
    exact (seq_ok_iff.mp hq).1
  rw [validateOptionalInteger, hv] at hcheck
  have hinteger := refuseIf_ok_iff.mp (seq_ok_iff.mp hcheck).2
  split at hinteger
  · exact nomatch hinteger
  · next n hn => exact ⟨value, n, rfl, hn⟩

end

/-! ## Texts that read -/

/-- Whether a text reads at a type. -/
def readsAt (valueType : ConditionValueType) (value : Bytes) : Bool :=
  match valueType with
  | .numeric => (Strconv.parseFloat value).isSome
  | .date => (Iam.parseIAMTime value).isSome
  | .bool => (Strconv.parseBool (toLower value)).isSome
  | .string | .any => true

/-- The type an operator reads its operands at. -/
def operandType : Family → ConditionValueType
  | .stringEquals | .stringLike => .string
  | .bool | .null => .bool
  | .numeric _ => .numeric
  | .date _ => .date

theorem readsAt_formatInt {n : Int} (hlow : -2 ^ 63 ≤ n) (hhigh : n < 2 ^ 63) :
    readsAt .numeric (Time.formatInt n) = true :=
  parseFloat_of_atoi (atoi_formatInt hlow hhigh)

theorem unix_bounds {now : Time.Instant} (h : Time.FourDigitYear now) :
    -2 ^ 63 ≤ Time.unix now ∧ Time.unix now < 2 ^ 63 := by
  obtain ⟨f⟩ := Time.exists_fields h
  have hyear := f.year_lt
  have hmonth := f.month_bounds
  have hday := Time.day_lt f
  have hhour := f.hour_lt
  have hminute := f.minute_lt
  have hsecond := f.second_lt
  have hdays : -1000000 ≤ Time.daysFromCivil f.year f.month f.day ∧
      Time.daysFromCivil f.year f.month f.day ≤ 4000000 := by
    rw [Time.daysFromCivil]
    simp only [Int.fdiv_eq_ediv_of_nonneg _ (show (0 : Int) ≤ 400 by decide)]
    split
    · omega
    · omega
  rw [f.unix_eq]
  generalize Time.daysFromCivil f.year f.month f.day = days at hdays
  omega

theorem age_bounds (now signedAt : Time.Instant) :
    -2 ^ 63 ≤ Time.milliseconds (max 0 (Time.sub now signedAt)) ∧
      Time.milliseconds (max 0 (Time.sub now signedAt)) < 2 ^ 63 := by
  rw [Time.milliseconds, Int.tdiv_eq_ediv_of_nonneg (Int.le_max_left _ _), Time.sub,
    Time.maxDuration, Time.minDuration]
  omega

section
variable {r : Request} {bucket objectKey : Bytes} {plan : S3OperationPlan}

/-- **THE CONTEXT READS**: whatever a sealed context holds under a typed key reads at its
    type. -/
theorem sealed_values_read (h : Planned r bucket objectKey plan) (locationConstraint : Bytes)
    {now : Time.Instant} (hnow : Time.FourDigitYear now) {valueType : ConditionValueType}
    {key : Bytes} (hk : key ∈ typedKeys valueType) {values : List Bytes}
    (hv : (plan.authorizationContext locationConstraint now).lookup key = some values) :
    ∀ value ∈ values, readsAt valueType value = true := by
  -- a typed key is written in one place: wire context, clock, or the check of a number
  cases valueType with
  | any | string => exact nomatch hk
  | bool =>
      obtain rfl : key = ascii "aws:securetransport" := List.mem_singleton.mp hk
      rw [lookup_secureTransport h] at hv
      cases hv
      intro value hvalue
      obtain rfl := List.mem_singleton.mp hvalue
      cases r.tls <;> decide
  | date =>
      obtain rfl : key = ascii "aws:currenttime" := List.mem_singleton.mp hk
      rw [(lookup_clock plan locationConstraint now).1] at hv
      cases hv
      intro value hvalue
      rw [List.mem_singleton.mp hvalue, readsAt, Iam.parseIAMTime,
        Time.parseRFC3339_formatRFC3339 hnow]
      split <;> rfl
  | numeric =>
      simp only [typedKeys, List.mem_cons, List.not_mem_nil, or_false] at hk
      intro value hvalue
      rcases hk with rfl | rfl | rfl
      · obtain ⟨text, n, rfl, hn⟩ := maxKeys_integer h (lookup_maxKeys h _ _ hv)
        obtain rfl := List.mem_singleton.mp hvalue
        exact parseFloat_of_atoi hn
      · obtain ⟨signedAt, rfl⟩ := lookup_signatureAge h _ _ hv
        obtain rfl := List.mem_singleton.mp hvalue
        exact readsAt_formatInt (age_bounds now signedAt).1 (age_bounds now signedAt).2
      · rw [(lookup_clock plan locationConstraint now).2] at hv
        cases hv
        obtain rfl := List.mem_singleton.mp hvalue
        exact readsAt_formatInt (unix_bounds hnow).1 (unix_bounds hnow).2

end

section
variable {wildcard : (pattern value : Bytes) → Bool} {compiles : Bytes → Bool}

/-- The operands of an installed condition read at the type of its operator. -/
theorem operands_read {operator : Operator} {keyType : ConditionValueType} {values : List Bytes}
    (h : validateConditionOperands (libraryCompiler wildcard compiles) operator keyType values =
      .ok ()) : ∀ value ∈ values, readsAt (operandType operator.family) value = true := by
  intro value hvalue
  have hcheck := checkEach_ok_iff.mp (seq_ok_iff.mp h).2 value hvalue
  -- `Bool` and `Null` share the check of their operands
  have hbool : ∀ {reason : Reason},
      refuseIf (value != ascii "true" && value != ascii "false") reason = .ok () →
      readsAt .bool value = true := by
    intro reason hok
    have hno := refuseIf_ok_iff.mp hok
    rw [Bool.and_eq_false_iff, bne_eq_false_iff_eq, bne_eq_false_iff_eq] at hno
    rcases hno with rfl | rfl
    · decide
    · decide
  cases hf : operator.family with
  | stringEquals | stringLike => rfl
  | bool | null =>
      simp only [hf] at hcheck
      exact hbool hcheck
  | numeric comparison =>
      simp only [hf] at hcheck
      have hsome := refuseIf_ok_iff.mp hcheck
      show (Strconv.parseFloat value).isSome = true
      cases hread : Strconv.parseFloat value with
      | some x => rfl
      | none => exact nomatch (congrArg Option.isNone hread).symm.trans hsome
  | date comparison =>
      simp only [hf] at hcheck
      have hsome := refuseIf_ok_iff.mp hcheck
      show (Iam.parseIAMTime value).isSome = true
      cases hread : Iam.parseIAMTime value with
      | some x => rfl
      | none => exact nomatch (congrArg Option.isNone hread).symm.trans hsome

/-- An operator other than `Null` stands on a key of its own type. -/
theorem keyType_eq {operator : Operator} {keyType : ConditionValueType} {values : List Bytes}
    (h : validateConditionOperands (libraryCompiler wildcard compiles) operator keyType values =
      .ok ()) (hnull : operator.family ≠ .null) (hany : keyType ≠ .any) :
    keyType = operandType operator.family := by
  have htype := refuseIf_ok_iff.mp (seq_ok_iff.mp h).1
  have hmatch : operatorMatchesKeyType operator.family keyType = true := by
    simpa [hnull, hany] using htype
  cases hf : operator.family with
  | null => exact absurd hf hnull
  | stringEquals | stringLike | bool | numeric | date =>
      rw [hf] at hmatch
      exact of_decide_eq_true hmatch

/-! ## Conditions -/

/-- The condition that a policy's conditions were compiled from. -/
theorem exists_parseCondition {c : Compiler} {opts : Options} {doc : Value} {policy : Policy}
    (h : parsePolicyJSON c opts doc = .ok policy) {stmt : Statement}
    (hstmt : stmt ∈ policy.statements) {cond : Condition} (hcond : cond ∈ stmt.conditions) :
    ∃ operator e, parseCondition c opts operator e = .ok cond := by
  obtain ⟨raw, statementRaw, raws, -, -, -, -, -, -, hstmts⟩ := parsePolicyJSON_ok_iff.mp h
  obtain ⟨map, -, hcompiled⟩ :=
    (PermUpTo.of_forall₂ (compileStatements_ok_iff.mp hstmts)).exists_left hstmt
  cases map with
  | none => cases hcompiled
  | some raw =>
      -- peel the statement's parts off; only the conditions are followed
      obtain ⟨-, hs⟩ := seq_ok_iff.mp hcompiled
      obtain ⟨sid, -, hs⟩ := bind_ok_iff.mp hs
      obtain ⟨effect, -, hs⟩ := bind_ok_iff.mp hs
      obtain ⟨action, -, hs⟩ := bind_ok_iff.mp hs
      obtain ⟨resource, -, hs⟩ := bind_ok_iff.mp hs
      obtain ⟨conds, hconds, hs⟩ := bind_ok_iff.mp hs
      cases hs
      rw [statementConditions] at hconds
      split at hconds
      · cases hconds
        cases hcond
      · rw [parseConditions] at hconds
        split at hconds
        · cases hconds
        · obtain ⟨-, hconds⟩ := seq_ok_iff.mp hconds
          obtain ⟨groups, hgroups, hconds⟩ := bind_ok_iff.mp hconds
          cases hconds
          obtain ⟨group, hgroup, hmem⟩ := List.mem_flatten.mp hcond
          obtain ⟨g, -, hg⟩ := (PermUpTo.of_forall₂ (mapM_ok_iff.mp hgroups)).exists_left hgroup
          obtain ⟨operator, -, hg⟩ := bind_ok_iff.mp hg
          obtain ⟨-, hg⟩ := seq_ok_iff.mp hg
          obtain ⟨e, -, he⟩ := (PermUpTo.of_forall₂ (mapM_ok_iff.mp hg)).exists_left hmem
          exact ⟨operator, e, he⟩

/-- The texts of both sides read, and the outcome compares what they read as. -/
def ComparesAs {α : Type} (parse : Bytes → Option α) (rel : α → α → Prop) (values : List Bytes)
    (cond : Condition) (outcome : Prop) : Prop :=
  ∃ actuals operands : List α,
    List.Forall₂ (fun value x => parse value = some x) values actuals ∧
    List.Forall₂ (fun value x => parse value = some x) cond.values operands ∧
    (outcome ↔ if cond.operator.negative then ¬ ∃ x ∈ actuals, ∃ y ∈ operands, rel x y
      else ∃ x ∈ actuals, ∃ y ∈ operands, rel x y)

/-- A condition whose outcome is the comparison its operator stands for. -/
def Evaluates (m : Matchers) (cond : Condition) (values : List Bytes) (outcome : Prop) : Prop :=
  match cond.operator.family with
  | .bool => ComparesAs (fun s => m.parseBool (toLower s)) (· = ·) values cond outcome
  | .numeric comparison => ComparesAs m.parseNumber comparison.Rel values cond outcome
  | .date comparison => ComparesAs m.parseIAMTime comparison.Rel values cond outcome
  | .null =>
      ∃ operands : List Bool,
        List.Forall₂ (fun value x => m.parseBool (toLower value) = some x) cond.values operands ∧
        (outcome ↔ (values = [] ↔ true ∈ operands))
  | .stringEquals => ComparesAs some (· = ·) values cond outcome
  | .stringLike =>
      ComparesAs some (fun actual pattern => m.wildcard pattern actual = true) values cond outcome

theorem exists_read {α : Type} {parse : Bytes → Option α} {values : List Bytes}
    (h : ∀ value ∈ values, (parse value).isSome = true) :
    ∃ xs, List.Forall₂ (fun value x => parse value = some x) values xs := by
  induction values with
  | nil => exact ⟨[], List.Forall₂.nil⟩
  | cons value values ih =>
      obtain ⟨hvalue, hvalues⟩ := List.forall_mem_cons.mp h
      obtain ⟨x, hx⟩ := Option.isSome_iff_exists.mp hvalue
      obtain ⟨xs, hxs⟩ := ih hvalues
      exact ⟨x :: xs, List.Forall₂.cons hx hxs⟩

/-- Where every text reads, the comparison of texts is the comparison of what they read as. -/
theorem comparesAs_of_read {α : Type} {parse : Bytes → Option α} {rel : α → α → Prop}
    {values : List Bytes} {cond : Condition} {outcome : Prop}
    (hvalues : ∀ value ∈ values, (parse value).isSome = true)
    (hoperands : ∀ value ∈ cond.values, (parse value).isSome = true)
    (h : outcome ↔ if cond.operator.negative then
        ¬ ∃ actual ∈ values, ∃ operand ∈ cond.values, Reads parse rel actual operand
      else ∃ actual ∈ values, ∃ operand ∈ cond.values, Reads parse rel actual operand) :
    ComparesAs parse rel values cond outcome := by
  obtain ⟨actuals, hactuals⟩ := exists_read hvalues
  obtain ⟨operands, hreads⟩ := exists_read hoperands
  refine ⟨actuals, operands, hactuals, hreads, h.trans ?_⟩
  have hsame : (∃ actual ∈ values, ∃ operand ∈ cond.values, Reads parse rel actual operand) ↔
      ∃ x ∈ actuals, ∃ y ∈ operands, rel x y := by
    refine (PermUpTo.of_forall₂ hactuals).exists_iff (fun actual x hx => ?_)
    refine (PermUpTo.of_forall₂ hreads).exists_iff (fun operand y hy => ?_)
    constructor
    · rintro ⟨x', y', hx', hy', hrel⟩
      cases hx.symm.trans hx'
      cases hy.symm.trans hy'
      exact hrel
    · exact fun hrel => ⟨x, y, hx, hy, hrel⟩
  split
  · rw [hsame]
  · exact hsame

/-- A condition all of whose texts read evaluates. -/
theorem evaluates_of_read {m : Matchers} {cond : Condition} (hwell : WellCompiled cond)
    {ctx : Iam.Context} {values : List Bytes} (hctx : valuesAt ctx cond.key = values)
    (hbool : cond.operator.family = .bool → ∀ value ∈ values ++ cond.values,
      (m.parseBool (toLower value)).isSome = true)
    (hnull : cond.operator.family = .null → ∀ value ∈ cond.values,
      (m.parseBool (toLower value)).isSome = true)
    (hnumeric : ∀ comparison, cond.operator.family = .numeric comparison →
      ∀ value ∈ values ++ cond.values, (m.parseNumber value).isSome = true)
    (hdate : ∀ comparison, cond.operator.family = .date comparison →
      ∀ value ∈ values ++ cond.values, (m.parseIAMTime value).isSome = true) :
    Evaluates m cond values (conditionMatches m cond ctx = true) := by
  have houtcome := conditionMatches_iff (m := m) hwell ctx
  rw [hctx, meaningOf] at houtcome
  -- every family but `Null` compares values with operands, some pair or none
  have hcompare : cond.operator.family ≠ .null → (conditionMatches m cond ctx = true ↔
      if cond.operator.negative then
        ¬ ∃ actual ∈ values, ∃ operand ∈ cond.values,
          relationOf m cond.operator.family actual operand
      else ∃ actual ∈ values, ∃ operand ∈ cond.values,
        relationOf m cond.operator.family actual operand) := by
    intro hne
    rw [houtcome, if_neg hne]
    cases cond.operator.negative with
    | true | false => rfl
  have hsides : ∀ {p : Bytes → Prop}, (∀ value ∈ values ++ cond.values, p value) →
      (∀ value ∈ values, p value) ∧ ∀ value ∈ cond.values, p value := fun hall =>
    ⟨fun value hv => hall value (List.mem_append_left _ hv),
      fun value hv => hall value (List.mem_append_right _ hv)⟩
  -- texts read as themselves
  have htext : ∀ {rel : Bytes → Bytes → Prop} {actual operand : Bytes},
      Reads some rel actual operand ↔ rel actual operand := by
    intro rel actual operand
    constructor
    · rintro ⟨x, y, hx, hy, hrel⟩
      cases hx
      cases hy
      exact hrel
    · exact fun hrel => ⟨actual, operand, rfl, rfl, hrel⟩
  rw [Evaluates]
  cases hf : cond.operator.family with
  | bool =>
      obtain ⟨hvalues, hoperands⟩ := hsides (hbool hf)
      rw [hf] at hcompare
      exact comparesAs_of_read hvalues hoperands (hcompare (by decide))
  | numeric comparison =>
      obtain ⟨hvalues, hoperands⟩ := hsides (hnumeric comparison hf)
      rw [hf] at hcompare
      exact comparesAs_of_read hvalues hoperands (hcompare (fun h => by cases h))
  | date comparison =>
      obtain ⟨hvalues, hoperands⟩ := hsides (hdate comparison hf)
      rw [hf] at hcompare
      exact comparesAs_of_read hvalues hoperands (hcompare (fun h => by cases h))
  | null =>
      obtain ⟨operands, hoperands⟩ := exists_read (hnull hf)
      refine ⟨operands, hoperands, houtcome.trans ?_⟩
      rw [if_pos hf, Meaning.Holds]
      refine iff_congr Iff.rfl ?_
      rw [(PermUpTo.of_forall₂ hoperands).exists_iff (Q := fun x => x = true) (by
        intro value x hx
        rw [hx, Option.some_inj])]
      simp
  | stringEquals | stringLike =>
      rw [hf] at hcompare
      refine comparesAs_of_read (fun _ _ => rfl) (fun _ _ => rfl) ?_
      simp only [htext]
      exact hcompare (by decide)

/-- **CONDITIONS ALWAYS EVALUATE**: under a sealed plan every condition of an installed
    policy whose key the context holds reads all of its operands and all values of its key at
    the type of its operator, and its outcome is the comparison of what they read as. -/
theorem conditions_always_evaluate {doc : Value} {policy : Policy}
    (hpolicy : parseS3IAMPolicyJSON (libraryCompiler wildcard compiles) doc = .ok policy)
    {r : Request} {bucket objectKey : Bytes} {plan : S3OperationPlan}
    (hplan : planS3Operation r bucket objectKey = .ok plan) (locationConstraint : Bytes)
    {now : Time.Instant} (hnow : Time.FourDigitYear now) :
    (∀ check ∈ (plan.withAuthorizationContext locationConstraint now).iamChecks,
      check.context = (plan.withAuthorizationContext locationConstraint now).iamContext) ∧
    ∀ stmt ∈ policy.statements, ∀ cond ∈ stmt.conditions, ∀ values,
      contextValues (plan.withAuthorizationContext locationConstraint now).iamContext cond.key =
        some values →
      Evaluates (libraryCompiler wildcard compiles).toMatchers cond values
        (conditionMatches (libraryCompiler wildcard compiles).toMatchers cond
          (plan.withAuthorizationContext locationConstraint now).iamContext = true) := by
  have h := plan_spec hplan
  refine ⟨?_, ?_⟩
  · intro check hcheck
    obtain ⟨original, -, rfl⟩ := List.mem_map.mp hcheck
    rfl
  · intro stmt hstmt cond hcond values hvalues
    obtain ⟨operator, e, he⟩ := exists_parseCondition hpolicy hstmt hcond
    obtain ⟨rfl, -, -, hwell, hallowed, hvalid⟩ := parseCondition_ok he
    obtain ⟨hany, hlower, htyped⟩ := conditionKeyType_spec hallowed
    have hlookup : (plan.authorizationContext locationConstraint now).lookup cond.key =
        some values := by
      rw [contextValues, canonicalConditionKey, hlower] at hvalues
      exact hvalues
    have hoperands := operands_read hvalid
    -- a typed operator stands on a typed key
    have hread : operandType cond.operator.family ≠ .string → cond.operator.family ≠ .null →
        ∀ value ∈ values ++ cond.values,
          readsAt (operandType cond.operator.family) value = true := by
      intro hstring hnull value hvalue
      have htype := keyType_eq hvalid hnull hany
      rcases List.mem_append.mp hvalue with hvalue | hvalue
      · refine sealed_values_read h locationConstraint hnow ?_ hlookup value hvalue
        rw [← htype]
        exact htyped (by rw [htype]; exact hstring)
      · exact hoperands value hvalue
    refine evaluates_of_read hwell (by rw [valuesAt, hvalues]; rfl) ?_ ?_ ?_ ?_
    · intro hf
      rw [hf] at hread
      exact hread (by decide) (by decide)
    · intro hf
      rw [hf] at hoperands
      exact hoperands
    · intro comparison hf
      rw [hf] at hread
      exact hread (fun h => by cases h) (fun h => by cases h)
    · intro comparison hf
      rw [hf] at hread
      exact hread (fun h => by cases h) (fun h => by cases h)

end

/-- A page of five keys, in a spelling the planner lets through. -/
def samplePage : Request where
  method := methodGet
  host := ascii "h"
  url := { path := ascii "/vbk", rawQuery := ascii "list-type=2&max-keys=%2B05" }
  header := ∅
  contentLength := 0
  transferEncoding := []
  tls := true
  body := none
  tokens := isToken_of_mem_empty

/-- Small pages only. -/
def smallPages : Value :=
  .object [(ascii "Statement", .object
    [(ascii "Effect", .string (ascii "Deny")), (ascii "Action", .string (ascii "*")),
      (ascii "Resource", .string (ascii "*")),
      (ascii "Condition", .object
        [(ascii "NumericGreaterThan", .object [(ascii "s3:max-keys", .number (ascii "1e1"))]),
          (ascii "DateLessThan", .object
            [(ascii "aws:CurrentTime", .string (ascii "2020-01-01T00:00:00Z"))])])])]

/-- The page size of a sample request is compared with the bound of a sample policy. -/
theorem conditions_always_evaluate_on_page :
    ∃ policy plan stmt cond,
      parseS3IAMPolicyJSON (libraryCompiler (fun _ _ => true) (fun _ => true)) smallPages =
        .ok policy ∧
      planS3Operation samplePage (ascii "vbk") [] = .ok plan ∧ stmt ∈ policy.statements ∧
      cond ∈ stmt.conditions ∧ cond.operator.family = .numeric .greaterThan ∧
      Evaluates (libraryCompiler (fun _ _ => true) (fun _ => true)).toMatchers cond
        [ascii "+05"] (conditionMatches
          (libraryCompiler (fun _ _ => true) (fun _ => true)).toMatchers cond
          (plan.withAuthorizationContext [] 0).iamContext = true) := by
  have hcheck : okAnd (parseS3IAMPolicyJSON (libraryCompiler (fun _ _ => true) (fun _ => true))
      smallPages) (fun policy => policy.statements.any (fun stmt => stmt.conditions.any
        (fun cond => cond.operator.family = .numeric .greaterThan &&
          cond.key = ascii "s3:max-keys"))) = true := by
    decide +kernel
  have hplanned : okAnd (planS3Operation samplePage (ascii "vbk") []) (fun plan =>
      contextValues (plan.withAuthorizationContext [] 0).iamContext (ascii "s3:max-keys") =
        some [ascii "+05"]) = true := by
    decide +kernel
  obtain ⟨policy, hpolicy, htest⟩ := exists_of_okAnd hcheck
  obtain ⟨plan, hplan, hvalues⟩ := exists_of_okAnd hplanned
  obtain ⟨stmt, hstmt, htest⟩ := List.any_eq_true.mp htest
  obtain ⟨cond, hcond, htest⟩ := List.any_eq_true.mp htest
  rw [Bool.and_eq_true, decide_eq_true_eq, decide_eq_true_eq] at htest
  rw [decide_eq_true_eq, ← htest.2] at hvalues
  have hepoch : Time.FourDigitYear 0 := ⟨by decide +kernel, by decide +kernel⟩
  exact ⟨policy, plan, stmt, cond, hpolicy, hplan, hstmt, hcond, htest.1,
    (conditions_always_evaluate hpolicy hplan [] hepoch).2 stmt hstmt cond hcond _ hvalues⟩

end S3
