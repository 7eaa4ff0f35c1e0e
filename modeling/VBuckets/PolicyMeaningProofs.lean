import VBuckets.PolicyProofs

/-! # What a policy document means

    A direct reading of a document, with no compiled form in between: which statements it
    has, when a clause, a condition entry and a statement hold of a request.  The compiled
    policy has one statement for each statement of the document, in order, and each decides
    by the reading of its own (`readings_of_parsed`). -/

namespace Iam

open ByteString Json S3 Reorder

/-! ## The reading -/

/-- The value of a field of an object. -/
def fieldOf (v : Value) (name : Bytes) : Option Value :=
  match v with
  | .object fields => (rawMap fields).lookup name
  | _ => none

/-- One statement, or a list of them. -/
def statementsOf (doc : Value) : List Value :=
  match fieldOf doc (ascii "Statement") with
  | some (.array items) => items
  | some v => [v]
  | none => []

/-- The text of a string, the only value a clause or an effect is read from. -/
def textOf : Value → Option Bytes
  | .string s => some s
  | _ => none

/-- One text, or a list of them. -/
def textsOf : Value → List Bytes
  | .array items => items.filterMap textOf
  | v => (textOf v).toList

/-- A text, a number or a boolean, as the text it is compared as. -/
def operandOf : Value → Option Bytes
  | .string s => some s
  | .number literal => some literal
  | .bool true => some (ascii "true")
  | .bool false => some (ascii "false")
  | _ => none

/-- One operand, or a list of them. -/
def operandsOf : Value → List Bytes
  | .array items => items.filterMap operandOf
  | v => (operandOf v).toList

/-- What an operator asks of the values of its key and of its operands. -/
inductive Meaning where
  | anyMatch (rel : Bytes → Bytes → Prop)
  | noMatch (rel : Bytes → Bytes → Prop)
  | absence

section
variable (m : Matchers)

/-- Two texts that both read, and compare. -/
def Reads {α : Type} (parse : Bytes → Option α) (rel : α → α → Prop) (actual operand : Bytes) :
    Prop :=
  ∃ x y, parse actual = some x ∧ parse operand = some y ∧ rel x y

/-- Texts are compared byte by byte. -/
def sameText (actual operand : Bytes) : Prop := actual = operand

/-- The operand is the pattern. -/
def likeText (actual operand : Bytes) : Prop := m.wildcard operand actual = true

/-- `true` and `false` in any letter case, and whatever else the library reads as one
    of them. -/
def sameBool : Bytes → Bytes → Prop := Reads (fun s => m.parseBool (toLower s)) (· = ·)

/-- The operators of the policy language. -/
def meanings : List (Bytes × Meaning) :=
  [(ascii "StringEquals", .anyMatch sameText),
    (ascii "StringNotEquals", .noMatch sameText),
    (ascii "StringLike", .anyMatch (likeText m)),
    (ascii "StringNotLike", .noMatch (likeText m)),
    (ascii "Bool", .anyMatch (sameBool m)),
    (ascii "Null", .absence),
    (ascii "NumericEquals", .anyMatch (Reads m.parseNumber (· = ·))),
    (ascii "NumericNotEquals", .noMatch (Reads m.parseNumber (· = ·))),
    (ascii "NumericLessThan", .anyMatch (Reads m.parseNumber (· < ·))),
    (ascii "NumericLessThanEquals", .anyMatch (Reads m.parseNumber (· ≤ ·))),
    (ascii "NumericGreaterThan", .anyMatch (Reads m.parseNumber (· > ·))),
    (ascii "NumericGreaterThanEquals", .anyMatch (Reads m.parseNumber (· ≥ ·))),
    (ascii "DateEquals", .anyMatch (Reads m.parseIAMTime (· = ·))),
    (ascii "DateNotEquals", .noMatch (Reads m.parseIAMTime (· = ·))),
    (ascii "DateLessThan", .anyMatch (Reads m.parseIAMTime (· < ·))),
    (ascii "DateLessThanEquals", .anyMatch (Reads m.parseIAMTime (· ≤ ·))),
    (ascii "DateGreaterThan", .anyMatch (Reads m.parseIAMTime (· > ·))),
    (ascii "DateGreaterThanEquals", .anyMatch (Reads m.parseIAMTime (· ≥ ·)))]

/-- The values of a key; an absent key has none. -/
def valuesAt (ctx : Context) (key : Bytes) : List Bytes := (contextValues ctx key).getD []

/-- With several values and several operands one pair suffices, and for a negated
    operator there must be none.  `Null` asks whether there is a value at all. -/
def Meaning.Holds (values operands : List Bytes) : Meaning → Prop
  | .anyMatch rel => ∃ actual ∈ values, ∃ operand ∈ operands, rel actual operand
  | .noMatch rel => ¬ ∃ actual ∈ values, ∃ operand ∈ operands, rel actual operand
  | .absence =>
      values = [] ↔ ∃ operand ∈ operands, m.parseBool (toLower operand) = some true

/-- One entry of a condition block. -/
def EntryHolds (ctx : Context) (operator key : Bytes) (operands : List Bytes) : Prop :=
  ∃ meaning, (meanings m).lookup operator = some meaning ∧
    meaning.Holds m (valuesAt ctx key) operands

/-- A clause or its negation. -/
def ClauseHolds (s : Value) (field : String) (matching : Bytes → Prop) : Prop :=
  (∃ v, fieldOf s (ascii field) = some v ∧ ∃ pattern ∈ textsOf v, matching pattern) ∨
  ∃ v, fieldOf s (ascii ("Not" ++ field)) = some v ∧ ∀ pattern ∈ textsOf v, ¬ matching pattern

/-- Every entry of every operator of the block holds.  A statement without a block has
    no condition. -/
def ConditionHolds (s : Value) (ctx : Context) : Prop :=
  ∀ block, fieldOf s (ascii "Condition") = some block →
    ∀ operator byKey, fieldOf block operator = some byKey →
      ∀ key v, fieldOf byKey key = some v → EntryHolds m ctx operator key (operandsOf v)

/-- A statement holds of a request if its action, its resource and its conditions do. -/
def StatementHolds (s : Value) (req : Request) : Prop :=
  ClauseHolds s "Action" (fun pattern => m.wildcard (toLower pattern) (toLower req.action) = true) ∧
  ClauseHolds s "Resource" (fun pattern => m.wildcard pattern req.resource = true) ∧
  ConditionHolds m s req.context

/-- Some statement of an effect matches. -/
def SomeHolds (doc : Value) (effect : String) (req : Request) : Prop :=
  ∃ s ∈ statementsOf doc, fieldOf s (ascii "Effect") = some (.string (ascii effect)) ∧
    StatementHolds m s req

end

/-! ## Values -/

section
variable {c : Compiler} {opts : Options} {v : Value} {values : List Bytes}

theorem mapError_ok_iff {ε ε' α : Type} {a : Except ε α} {f : ε → ε'} {x : α} :
    a.mapError f = .ok x ↔ a = .ok x := by
  cases a with
  | error e => exact ⟨(fun h => nomatch h), fun h => nomatch h⟩
  | ok y => exact ⟨fun h => congrArg Except.ok (Except.ok.inj h), fun h => by cases h; rfl⟩

/-- What is accepted as an operand is compared as the text it stands for. -/
theorem conditionValueToString_ok {value : Bytes} (h : conditionValueToString v = .ok value) :
    operandOf v = some value := by
  cases v with
  | string s =>
      rw [conditionValueToString] at h
      split at h
      · exact nomatch h
      · cases h
        rfl
  | bool b =>
      cases h
      cases b <;> rfl
  | number literal =>
      cases h
      rfl
  | null | array | object => exact nomatch h

/-- The operands of a condition are those the document lists. -/
theorem parseConditionValues_ok (h : parseConditionValues v = .ok values) :
    operandsOf v = values := by
  have hsingle : ∀ v, (do let value ← conditionValueToString v; Except.ok [value]) =
      .ok values → (operandOf v).toList = values := by
    intro v h
    obtain ⟨value, hvalue, h⟩ := bind_ok_iff.mp h
    cases h
    rw [conditionValueToString_ok hvalue]
    rfl
  cases v with
  | array items =>
      rw [parseConditionValues] at h
      split at h
      · exact nomatch h
      · exact filterMap_of_forall₂ ((mapM_ok_iff.mp h).imp
          (fun _ _ hv => conditionValueToString_ok hv))
  | string | bool | number | null | object => exact hsingle _ h

theorem checkClauseValue_ok {field : String} {value : Bytes}
    (h : checkClauseValue field value = .ok ()) : value ≠ [] := by
  have hne := refuseIf_ok_iff.mp (seq_ok_iff.mp h).2
  exact fun hnil => Bool.noConfusion (hne.symm.trans (beq_iff_eq.mpr hnil))

/-- Only a string is read as a text that is not empty; `null` is read as the empty
    one. -/
theorem unmarshalString_ok {s : Bytes} (h : unmarshalString v = .ok s) (hs : s ≠ []) :
    v = .string s := by
  cases v with
  | string t =>
      cases h
      rfl
  | null =>
      cases h
      exact absurd rfl hs
  | bool | number | array | object => exact nomatch h

/-- The texts of a clause are those the document lists: no empty text is accepted, so no
    `null` stands among them. -/
theorem parseStringList_ok {field : String} (h : parseStringList v field = .ok values) :
    textsOf v = values := by
  rw [parseStringList] at h
  split at h
  · next single hsingle =>
      obtain ⟨hcheck, h⟩ := seq_ok_iff.mp h
      cases h
      rw [unmarshalString_ok hsingle (checkClauseValue_ok hcheck)]
      rfl
  · next e hnot =>
      split at h
      · exact nomatch h
      · next many hmany =>
          obtain ⟨-, h⟩ := seq_ok_iff.mp h
          obtain ⟨hcheck, h⟩ := seq_ok_iff.mp h
          cases h
          cases v with
          | array items =>
              -- `null` decodes to the empty text, which the check refuses
              have hall := checkEach_ok_iff.mp hcheck
              have hitems := mapM_ok_iff.mp hmany
              refine filterMap_of_forall₂ ?_
              refine List.forall₂_iff_zip.mpr ⟨hitems.length_eq, ?_⟩
              intro item text hmem
              have htext := (List.forall₂_iff_zip.mp hitems).2 hmem
              rw [unmarshalString_ok htext
                (checkClauseValue_ok (hall text (List.of_mem_zip hmem).2))]
              rfl
          | null | string => exact nomatch hnot
          | bool | number | object => exact nomatch hmany

theorem compileWildcard_ok {value pattern : Bytes} (h : compileWildcard c value = .ok pattern) :
    value = pattern := by
  rw [compileWildcard] at h
  split at h
  · exact Except.ok.inj h
  · exact nomatch h

/-- The compiled patterns of a clause are its texts, those of actions in lower case. -/
theorem compileWildcards_ok {patterns : List Bytes} {action : Bool}
    (h : compileWildcards c values action = .ok patterns) :
    patterns = values.map (fun value => if action then toLower value else value) := by
  exact (map_of_forall₂ ((mapM_ok_iff.mp h).imp (fun _ _ hvalue => compileWildcard_ok hvalue))).symm

/-! ## Clauses -/

variable {m : Matchers}

/-- A clause matches by its patterns, or by none of them. -/
theorem matchesByMode_iff {mode : MatchMode} {value : Bytes} {action : Bool} :
    matchesByMode m mode (values.map (fun v => if action then toLower v else v)) value action =
        true ↔
      match mode with
      | .positive => ∃ pattern ∈ values,
          m.wildcard (if action then toLower pattern else pattern)
            (if action then toLower value else value) = true
      | .negative => ∀ pattern ∈ values,
          ¬ m.wildcard (if action then toLower pattern else pattern)
            (if action then toLower value else value) = true := by
  cases mode with
  | positive | negative => simp [matchesByMode, wildcardMatches]

/-- A compiled clause matches exactly what the document's clause covers, in either of
    its two spellings. -/
theorem parseClause_ok {fields : List (Bytes × Value)} {field : String} {action : Bool}
    {clause : MatchMode × List Bytes} (h : parseClause c (rawMap fields) field action = .ok clause)
    (value : Bytes) :
    matchesByMode m clause.1 clause.2 value action = true ↔
      ClauseHolds (.object fields) field (fun pattern =>
        m.wildcard (if action then toLower pattern else pattern)
          (if action then toLower value else value) = true) := by
  -- both spellings are read by the same code, with another mode
  have hread : ∀ {v mode}, (do
      let values ← parseStringList v field
      let patterns ← compileWildcards c values action
      Except.ok (mode, patterns)) = .ok clause →
      clause = (mode, (textsOf v).map (fun value => if action then toLower value else value)) := by
    intro v mode h
    obtain ⟨values, hvalues, h⟩ := bind_ok_iff.mp h
    obtain ⟨patterns, hpatterns, h⟩ := bind_ok_iff.mp h
    cases h
    rw [parseStringList_ok hvalues, compileWildcards_ok hpatterns]
  rw [parseClause] at h
  split at h
  · next v hv hnot =>
      rw [hread h, matchesByMode_iff]
      constructor
      · intro hmatch
        exact Or.inl ⟨v, hv, hmatch⟩
      · rintro (⟨v', hv', hmatch⟩ | ⟨v', hv', -⟩)
        · cases hv.symm.trans hv'
          exact hmatch
        · exact nomatch hnot.symm.trans hv'
  · next v hnot hv =>
      rw [hread h, matchesByMode_iff]
      constructor
      · intro hmatch
        exact Or.inr ⟨v, hv, hmatch⟩
      · rintro (⟨v', hv', -⟩ | ⟨v', hv', hmatch⟩)
        · exact nomatch hnot.symm.trans hv'
        · cases hv.symm.trans hv'
          exact hmatch
  · exact nomatch h

/-! ## Conditions -/

/-- The comparisons as relations. -/
def Comparison.Rel {α : Type} [LT α] [LE α] : Comparison → α → α → Prop
  | .equals => (· = ·)
  | .lessThan => (· < ·)
  | .lessThanEquals => (· ≤ ·)
  | .greaterThan => (· > ·)
  | .greaterThanEquals => (· ≥ ·)

/-- The relation of a family of operators. -/
def relationOf (m : Matchers) : Family → Bytes → Bytes → Prop
  | .stringEquals => sameText
  | .stringLike => likeText m
  | .bool => sameBool m
  | .null => fun _ _ => False
  | .numeric c => Reads m.parseNumber c.Rel
  | .date c => Reads m.parseIAMTime c.Rel

/-- The meaning of an operator, from its family and whether it is negated. -/
def meaningOf (m : Matchers) (operator : Operator) : Meaning :=
  if operator.family = .null then .absence
  else if operator.negative then .noMatch (relationOf m operator.family)
  else .anyMatch (relationOf m operator.family)

/-- Every operator of the compiler means what its name says. -/
theorem lookup_meanings {operator : Operator} (h : operator ∈ conditionOperators) :
    (meanings m).lookup operator.name = some (meaningOf m operator) := by
  simp only [conditionOperators, List.mem_cons, List.not_mem_nil, or_false] at h
  rcases h with rfl | rfl | rfl | rfl | rfl | rfl | rfl | rfl | rfl | rfl | rfl | rfl | rfl |
    rfl | rfl | rfl | rfl | rfl
  all_goals rfl

/-- An operator that is read is a row of the table, under its own name. -/
theorem parseConditionOperator_ok {name : Bytes} {operator : Operator}
    (h : parseConditionOperator name = .ok operator) :
    operator ∈ conditionOperators ∧ operator.name = name := by
  rw [parseConditionOperator] at h
  split at h
  · next found hfound =>
      cases h
      exact ⟨List.mem_of_find?_eq_some hfound,
        beq_iff_eq.mp (List.find?_some (p := fun o : Operator => o.name == name) hfound)⟩
  · exact nomatch h

/-- Comparing parsed texts is the relation on the parsed values; texts that cannot be
    parsed are in no relation. -/
theorem compareParsed_iff {α : Type} {parse : Bytes → Option α} {holds : α → α → Bool}
    {rel : α → α → Prop} (hrel : ∀ x y, holds x y = true ↔ rel x y) {actual operand : Bytes} :
    compareParsed parse holds actual operand = true ↔ Reads parse rel actual operand := by
  rw [compareParsed]
  split
  · next x y hx hy =>
      rw [hrel]
      constructor
      · intro h
        exact ⟨x, y, hx, hy, h⟩
      · rintro ⟨x', y', hx', hy', h⟩
        cases hx.symm.trans hx'
        cases hy.symm.trans hy'
        exact h
  · next hnone =>
      constructor
      · exact fun h => nomatch h
      · rintro ⟨x, y, hx, hy, -⟩
        exact absurd hy (hnone x y hx)

/-- Numbers are compared as the rationals they denote. -/
theorem Comparison.holds_iff_rat (comparison : Comparison) (x y : ℚ) :
    comparison.holds x y = true ↔ comparison.Rel x y := by
  cases comparison <;> simp [Comparison.holds, Comparison.Rel]

/-- Dates are compared as instants. -/
theorem Comparison.holds_iff_int (comparison : Comparison) (x y : Int) :
    comparison.holds x y = true ↔ comparison.Rel x y := by
  cases comparison <;> simp [Comparison.holds, Comparison.Rel]

/-- A compiled condition whose patterns are its values. -/
def WellCompiled (cond : Condition) : Prop :=
  cond.operator.family = .stringLike → cond.patterns = cond.values

/-- The compiled condition compares a value with its operands by the operator's
    relation. -/
theorem valueMatchesAny_iff {cond : Condition} (h : WellCompiled cond)
    (hnull : cond.operator.family ≠ .null) (actual : Bytes) :
    valueMatchesAny m cond actual = true ↔
      ∃ operand ∈ cond.values, relationOf m cond.operator.family actual operand := by
  rw [valueMatchesAny]
  cases hf : cond.operator.family with
  | stringLike => simp [h hf, wildcardMatches, relationOf, likeText]
  | stringEquals => simp [valueMatches, relationOf, sameText]
  | null => exact absurd hf hnull
  | bool =>
      simp only [List.any_eq_true, valueMatches, relationOf, sameBool,
        compareParsed_iff (fun x y => beq_iff_eq)]
  | numeric comparison =>
      simp only [List.any_eq_true, valueMatches, relationOf,
        compareParsed_iff comparison.holds_iff_rat]
  | date comparison =>
      simp only [List.any_eq_true, valueMatches, relationOf,
        compareParsed_iff comparison.holds_iff_int]

/-- A compiled condition matches when its operator's meaning holds. -/
theorem conditionMatches_iff {cond : Condition} (h : WellCompiled cond) (ctx : Context) :
    conditionMatches m cond ctx = true ↔
      (meaningOf m cond.operator).Holds m (valuesAt ctx cond.key) cond.values := by
  rw [conditionMatches, meaningOf]
  simp only
  -- `Null` asks whether the key is there and compares nothing
  by_cases hnull : cond.operator.family = .null
  · rw [if_pos hnull, if_pos hnull]
    rw [beq_iff_eq, Bool.eq_iff_iff]
    simp only [Meaning.Holds, valuesAt, decide_eq_true_eq, List.any_eq_true, beq_iff_eq]
  · rw [if_neg hnull, if_neg hnull]
    have hany : (∃ actual ∈ valuesAt ctx cond.key, valueMatchesAny m cond actual = true) ↔
        ∃ actual ∈ valuesAt ctx cond.key, ∃ operand ∈ cond.values,
          relationOf m cond.operator.family actual operand :=
      exists_congr (fun actual => and_congr_right (fun _ => valueMatchesAny_iff h hnull actual))
    have hlist : (valuesAt ctx cond.key).any (valueMatchesAny m cond) = true ↔ _ :=
      List.any_eq_true.trans hany
    cases hneg : cond.operator.negative with
    | true =>
        simp only [if_true, Meaning.Holds, ← hlist]
        show (if valuesAt ctx cond.key = [] then true
          else !(valuesAt ctx cond.key).any (valueMatchesAny m cond)) = true ↔ _
        by_cases hnil : valuesAt ctx cond.key = []
        · simp [hnil]
        · simp [hnil]
    | false =>
        simp only [Bool.false_eq_true, if_false, Meaning.Holds, ← hlist]
        show (if valuesAt ctx cond.key = [] then false
          else (valuesAt ctx cond.key).any (valueMatchesAny m cond)) = true ↔ _
        by_cases hnil : valuesAt ctx cond.key = []
        · simp [hnil]
        · simp [hnil]

/-- What `parseConditions` leaves of one entry: the operands in the list it read, all of them
    checked. -/
theorem parseCondition_ok {operator : Operator} {e : RawEntry} {cond : Condition}
    (h : parseCondition c opts operator e = .ok cond) :
    cond.operator = operator ∧ cond.key = canonicalConditionKey e.1 ∧
      cond.values = operandsOf e.2 ∧ WellCompiled cond ∧
      (canonicalConditionKeySet opts.allowedConditionKeys).contains cond.key = true ∧
      validateConditionOperands c operator (conditionKeyType opts.conditionKeyTypes cond.key)
        cond.values = .ok () := by
  rw [parseCondition] at h
  obtain ⟨hkey, h⟩ := seq_ok_iff.mp h
  obtain ⟨values, hvalues, h⟩ := bind_ok_iff.mp h
  obtain ⟨hoperands, h⟩ := seq_ok_iff.mp h
  obtain ⟨patterns, hpatterns, h⟩ := bind_ok_iff.mp h
  rw [mapError_ok_iff] at hvalues hoperands hpatterns
  cases h
  refine ⟨rfl, rfl, (parseConditionValues_ok hvalues).symm, ?_, ?_, hoperands⟩
  · intro hlike
    rw [compileConditionPatterns, if_neg (not_not.mpr hlike)] at hpatterns
    rw [compileWildcards_ok hpatterns]
    exact List.map_id values
  · simpa using refuseIf_ok_iff.mp hkey

/-- **ENTRY**: a compiled entry holds of a context exactly if its reading does. -/
theorem entryHolds_iff {operator : Operator} (hop : operator ∈ conditionOperators) {e : RawEntry}
    {cond : Condition} (h : parseCondition c opts operator e = .ok cond) (ctx : Context) :
    conditionMatches m cond ctx = true ↔ EntryHolds m ctx operator.name e.1 (operandsOf e.2) := by
  obtain ⟨hoperator, hkey, hvalues, hwell, -⟩ := parseCondition_ok h
  have hctx : valuesAt ctx cond.key = valuesAt ctx e.1 := by
    rw [valuesAt, valuesAt, contextValues, contextValues, hkey]
    show ((ctx.lookup (toLower (toLower e.1))).getD []) = _
    rw [toLower_toLower]
    rfl
  rw [conditionMatches_iff hwell, hctx, hvalues, hoperator, EntryHolds, lookup_meanings hop]
  constructor
  · intro hholds
    exact ⟨_, rfl, hholds⟩
  · rintro ⟨meaning, hmeaning, hholds⟩
    cases hmeaning
    exact hholds

/-- The fields of a decoded object are what a loop over its map visits. -/
theorem fieldOf_range {map : Option RawMap} (h : unmarshalMap v = .ok map) {key : Bytes}
    {x : Value} : fieldOf v key = some x ↔ (⟨key, x⟩ : RawEntry) ∈ range map := by
  cases v with
  | object fields =>
      cases h
      exact AList.mem_lookup_iff
  | null =>
      cases h
      exact ⟨(fun h => nomatch h), fun h => nomatch h⟩
  | string | bool | number | array => exact nomatch h

/-- One operator of a condition block. -/
theorem parseConditionGroup_ok {g : Bytes × List RawEntry} {conds : List Condition}
    (h : parseConditionGroup c opts g = .ok conds) (ctx : Context) :
    (∀ cond ∈ conds, conditionMatches m cond ctx = true) ↔
      ∀ e ∈ g.2, EntryHolds m ctx g.1 e.1 (operandsOf e.2) := by
  obtain ⟨operator, hoperator, h⟩ := bind_ok_iff.mp h
  obtain ⟨-, h⟩ := seq_ok_iff.mp h
  obtain ⟨hop, hname⟩ := parseConditionOperator_ok hoperator
  refine ((PermUpTo.of_forall₂ (mapM_ok_iff.mp h)).forall_iff ?_).symm
  intro e cond hcond
  rw [entryHolds_iff hop hcond, hname]

/-- The conditions of a block hold when each of its entries does. -/
theorem parseConditions_ok {conds : List Condition} (h : parseConditions c opts v = .ok conds)
    (ctx : Context) :
    (∀ cond ∈ conds, conditionMatches m cond ctx = true) ↔
      ∀ operator byKey, fieldOf v operator = some byKey →
        ∀ key x, fieldOf byKey key = some x → EntryHolds m ctx operator key (operandsOf x) := by
  rw [parseConditions] at h
  split at h
  · exact nomatch h
  · next byOperator hby =>
      obtain ⟨-, h⟩ := seq_ok_iff.mp h
      obtain ⟨groups, hgroups, h⟩ := bind_ok_iff.mp h
      cases h
      obtain ⟨outer, houter, hby⟩ := bind_ok_iff.mp hby
      -- outer map by operator, inner map by key: one equivalence for each level
      have hgroup : (∀ g ∈ byOperator, ∀ e ∈ g.2, EntryHolds m ctx g.1 e.1 (operandsOf e.2)) ↔
          ∀ conds ∈ groups, ∀ cond ∈ conds, conditionMatches m cond ctx = true :=
        (PermUpTo.of_forall₂ (mapM_ok_iff.mp hgroups)).forall_iff (by
          intro g conds hg
          exact (parseConditionGroup_ok hg ctx).symm)
      have hentries : (∀ entry ∈ range outer, ∀ key x, fieldOf entry.2 key = some x →
          EntryHolds m ctx entry.1 key (operandsOf x)) ↔
          ∀ g ∈ byOperator, ∀ e ∈ g.2, EntryHolds m ctx g.1 e.1 (operandsOf e.2) :=
        (PermUpTo.of_forall₂ (mapM_ok_iff.mp hby)).forall_iff (by
          intro entry g hg
          obtain ⟨inner, hinner, hg⟩ := bind_ok_iff.mp hg
          cases hg
          constructor
          · intro hall e he
            exact hall e.1 e.2 ((fieldOf_range hinner).mpr he)
          · intro hall key x hx
            exact hall ⟨key, x⟩ ((fieldOf_range hinner).mp hx))
      constructor
      · intro hall operator byKey hfield
        refine hentries.mpr (hgroup.mpr ?_) ⟨operator, byKey⟩ ((fieldOf_range houter).mp hfield)
        intro conds hconds cond hcond
        exact hall cond (List.mem_flatten.mpr ⟨conds, hconds, hcond⟩)
      · intro hall cond hcond
        obtain ⟨conds, hconds, hcond⟩ := List.mem_flatten.mp hcond
        refine hgroup.mp (hentries.mp ?_) conds hconds cond hcond
        intro entry hentry
        exact hall entry.1 entry.2 ((fieldOf_range houter).mpr hentry)

/-! ## Statements -/

/-- How an effect is written. -/
def effectText : Effect → String
  | .allow => "Allow"
  | .deny => "Deny"

/-- The effect of a statement is the one it is written with. -/
theorem parseEffect_ok {fields : List (Bytes × Value)} {effect : Effect}
    (h : parseEffect (rawMap fields) = .ok effect) :
    fieldOf (.object fields) (ascii "Effect") =
      some (.string (ascii (effectText effect))) := by
  rw [parseEffect] at h
  split at h
  · exact nomatch h
  · next v hv =>
      split at h
      · exact nomatch h
      · next text htext =>
          split at h
          · next hallow =>
              cases h
              rw [fieldOf, hv, unmarshalString_ok htext (by rw [hallow]; decide), hallow]
              rfl
          · split at h
            · next hdeny =>
                cases h
                rw [fieldOf, hv, unmarshalString_ok htext (by rw [hdeny]; decide), hdeny]
                rfl
            · exact nomatch h

/-- What a compiled statement is, read against the object it comes from. -/
structure Reading (m : Matchers) (s : Value) (stmt : Statement) : Prop where
  effect : fieldOf s (ascii "Effect") = some (.string (ascii (effectText stmt.effect)))
  matches_iff : ∀ req, statementMatches m stmt req = true ↔ StatementHolds m s req

/-- **STATEMENT**: a compiled statement matches exactly the requests its document
    holds of, and has its effect. -/
theorem compileStatement_ok {fields : List (Bytes × Value)} {stmt : Statement}
    (h : compileStatement c opts (some (rawMap fields)) = .ok stmt) :
    Reading m (.object fields) stmt := by
  rw [compileStatement] at h
  obtain ⟨-, h⟩ := seq_ok_iff.mp h
  obtain ⟨sid, -, h⟩ := bind_ok_iff.mp h
  obtain ⟨effect, heffect, h⟩ := bind_ok_iff.mp h
  obtain ⟨action, haction, h⟩ := bind_ok_iff.mp h
  obtain ⟨resource, hresource, h⟩ := bind_ok_iff.mp h
  obtain ⟨conditions, hconditions, h⟩ := bind_ok_iff.mp h
  cases h
  refine ⟨parseEffect_ok heffect, ?_⟩
  intro req
  -- without a `Condition` block nothing is asked
  have hconds : (conditions.all fun cond => conditionMatches m cond req.context) = true ↔
      ConditionHolds m (.object fields) req.context := by
    rw [List.all_eq_true]
    rw [statementConditions] at hconditions
    split at hconditions
    · next hnone =>
        cases hconditions
        constructor
        · intro _ block hblock
          exact nomatch hnone.symm.trans hblock
        · exact fun _ cond hcond => nomatch hcond
    · next block hblock =>
        rw [parseConditions_ok hconditions]
        constructor
        · intro hall block' hblock'
          cases hblock.symm.trans hblock'
          exact hall
        · exact fun hall => hall block hblock
  rw [statementMatches, Bool.and_eq_true, Bool.and_eq_true, hconds,
    parseClause_ok haction, parseClause_ok hresource, and_assoc]
  rfl

/-! ## Documents -/

/-- Statements are compiled one by one; the counter is for error messages only. -/
theorem compileStatements_ok_iff {i : Nat} {raws : List (Option RawMap)}
    {stmts : List Statement} :
    compileStatements c opts i raws = .ok stmts ↔
      List.Forall₂ (fun raw stmt => compileStatement c opts raw = .ok stmt) raws stmts := by
  induction raws generalizing i stmts with
  | nil =>
      constructor
      · intro h
        cases h
        exact List.Forall₂.nil
      · intro h
        cases h
        rfl
  | cons raw raws ih =>
      constructor
      · intro h
        obtain ⟨stmt, hstmt, h⟩ := bind_ok_iff.mp h
        obtain ⟨rest, hrest, h⟩ := bind_ok_iff.mp h
        cases h
        exact List.Forall₂.cons (mapError_ok_iff.mp hstmt) (ih.mp hrest)
      · intro h
        cases h with
        | cons hstmt hrest =>
            exact bind_ok_iff.mpr ⟨_, mapError_ok_iff.mpr hstmt,
              bind_ok_iff.mpr ⟨_, ih.mpr hrest, rfl⟩⟩

/-- A value that compiles as a statement is an object. -/
theorem reading_of_compiled {raw : Option RawMap} {stmt : Statement}
    (hraw : unmarshalMap v = .ok raw) (h : compileStatement c opts raw = .ok stmt) :
    Reading m v stmt := by
  cases v with
  | object fields =>
      cases hraw
      exact compileStatement_ok h
  | null =>
      cases hraw
      exact nomatch h
  | string | bool | number | array => exact nomatch hraw

/-- What an accepted document went through. -/
def Parsed (c : Compiler) (opts : Options) (doc : Value) (policy : Policy) : Prop :=
  ∃ raw statementRaw raws, unmarshalMap doc = .ok (some raw) ∧
    (∀ key ∈ raw.keys, key = ascii "Version" ∨ key = ascii "Statement") ∧
    checkVersion raw = .ok () ∧ raw.lookup (ascii "Statement") = some statementRaw ∧
    parseStatementList statementRaw = .ok raws ∧ raws ≠ [] ∧
    compileStatements c opts 0 raws = .ok policy.statements

/-- What is accepted as a policy, with every check the parser makes. -/
theorem parsePolicyJSON_ok_iff {doc : Value} {policy : Policy} :
    parsePolicyJSON c opts doc = .ok policy ↔ Parsed c opts doc policy := by
  have hkey : ∀ key : Bytes, (key != ascii "Version" && key != ascii "Statement") = false ↔
      key = ascii "Version" ∨ key = ascii "Statement" := by
    intro key
    rw [Bool.and_eq_false_iff, bne_eq_false_iff_eq, bne_eq_false_iff_eq]
  constructor
  · intro h
    rw [parsePolicyJSON] at h
    split at h
    · exact nomatch h
    · exact nomatch h
    · next raw hraw =>
        obtain ⟨hkeys, h⟩ := seq_ok_iff.mp h
        obtain ⟨hversion, h⟩ := seq_ok_iff.mp h
        split at h
        · exact nomatch h
        · next statementRaw hstatement =>
            obtain ⟨raws, hraws, h⟩ := bind_ok_iff.mp h
            obtain ⟨hne, h⟩ := seq_ok_iff.mp h
            obtain ⟨stmts, hstmts, h⟩ := bind_ok_iff.mp h
            cases h
            refine ⟨raw, statementRaw, raws, hraw, ?_, hversion, hstatement, hraws, ?_, hstmts⟩
            · intro key hmem
              exact (hkey key).mp (refuseIf_ok_iff.mp (checkEach_ok_iff.mp hkeys key hmem))
            · rintro rfl
              exact nomatch refuseIf_ok_iff.mp hne
  · rintro ⟨raw, statementRaw, raws, hraw, hkeys, hversion, hstatement, hraws, hne, hstmts⟩
    rw [parsePolicyJSON, hraw]
    simp only
    refine seq_ok_iff.mpr ⟨checkEach_ok_iff.mpr ?_, seq_ok_iff.mpr ⟨hversion, ?_⟩⟩
    · intro key hmem
      exact refuseIf_ok_iff.mpr ((hkey key).mpr (hkeys key hmem))
    · rw [hstatement]
      refine bind_ok_iff.mpr ⟨raws, hraws, seq_ok_iff.mpr ⟨refuseIf_ok_iff.mpr ?_, ?_⟩⟩
      · cases raws with
        | nil => exact absurd rfl hne
        | cons => rfl
      · exact bind_ok_iff.mpr ⟨policy.statements, hstmts, rfl⟩

/-- The field of a document is what the parsed map has under the name. -/
theorem fieldOf_eq_lookup {doc : Value} {raw : RawMap} (h : unmarshalMap doc = .ok (some raw))
    (name : Bytes) : fieldOf doc name = raw.lookup name := by
  cases doc with
  | object fields =>
      cases h
      rfl
  | null | string | bool | number | array => exact nomatch h

/-- The statements of an accepted document and of its policy correspond, one to one and in
    order. -/
theorem readings_of_parsed {doc : Value} {policy : Policy}
    (h : parsePolicyJSON c opts doc = .ok policy) :
    List.Forall₂ (Reading m) (statementsOf doc) policy.statements := by
  obtain ⟨raw, statementRaw, raws, hraw, -, -, hstatement, hraws, hne, hstmts⟩ :=
    parsePolicyJSON_ok_iff.mp h
  have hcompiled := compileStatements_ok_iff.mp hstmts
  -- a single statement is read as the list of it
  have hmany : ∀ {items}, List.Forall₂ (fun v raw => unmarshalMap v = .ok raw) items raws →
      List.Forall₂ (Reading m) items policy.statements := by
    intro items hitems
    refine forall₂_comp ?_ hitems hcompiled
    intro v raw stmt hv hs
    exact reading_of_compiled hv hs
  rw [statementsOf, fieldOf_eq_lookup hraw, hstatement]
  cases statementRaw with
  | object fields =>
      obtain ⟨single, hsingle, hraws⟩ := bind_ok_iff.mp hraws
      cases hraws
      exact hmany (List.Forall₂.cons (mapError_ok_iff.mp hsingle) List.Forall₂.nil)
  | array items => exact hmany (mapM_ok_iff.mp (mapError_ok_iff.mp hraws))
  | null =>
      cases hraws
      exact absurd rfl hne
  | string | bool | number => exact nomatch hraws

end

end Iam
