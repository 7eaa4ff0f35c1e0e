import VBuckets.PolicyMeaningProofs

/-! # The order of a policy document

    Reordering the statements, the texts of a clause, the operands of a condition or the
    fields of an object of an accepted document gives an accepted document whose policy is
    the same up to order (`parsePolicyJSON_reordered`), so no decision changes.  The fields
    of an object are visited in any order, so this is also what makes a decision a function
    of the document. -/

namespace Iam

open ByteString Json S3 Reorder

/-! ## Compiled policies up to order -/

/-- Compiled conditions that differ in the order of their operands.  The patterns are
    reordered with the values they were compiled from. -/
structure ConditionReordered (a b : Condition) : Prop where
  operator : a.operator = b.operator
  key : a.key = b.key
  values : a.values.Perm b.values
  patterns : a.patterns.Perm b.patterns

/-- Compiled statements that differ in the order of what they list.  The statement
    identifier is left out: it decides nothing. -/
structure StatementReordered (a b : Statement) : Prop where
  effect : a.effect = b.effect
  actionMode : a.actionMode = b.actionMode
  actions : a.actions.Perm b.actions
  resourceMode : a.resourceMode = b.resourceMode
  resources : a.resources.Perm b.resources
  conditions : PermUpTo ConditionReordered a.conditions b.conditions

/-- The same request, the values of each condition key in some order. -/
structure RequestReordered (a b : Request) : Prop where
  action : a.action = b.action
  resource : a.resource = b.resource
  context : ∀ key, (valuesAt a.context key).Perm (valuesAt b.context key)

section
variable {m : Matchers}

/-- Whether some operand matches does not depend on their order, for texts, numbers,
    dates and patterns alike. -/
theorem valueMatchesAny_reordered {a b : Condition} (h : ConditionReordered a b)
    (actual : Bytes) : valueMatchesAny m a actual = valueMatchesAny m b actual := by
  rw [valueMatchesAny, valueMatchesAny, h.operator]
  cases b.operator.family with
  | stringLike => exact h.patterns.any_eq
  | stringEquals | bool | null | numeric | date => exact h.values.any_eq

/-- Nor does a whole condition, also when the values of the context key come in
    another order. -/
theorem conditionMatches_reordered {a b : Condition} (h : ConditionReordered a b)
    {ctx ctx' : Context} (hctx : ∀ key, (valuesAt ctx key).Perm (valuesAt ctx' key)) :
    conditionMatches m a ctx = conditionMatches m b ctx' := by
  have hkey : PermUpTo (· = ·) ((contextValues ctx b.key).getD [])
      ((contextValues ctx' b.key).getD []) := PermUpTo.of_perm (hctx b.key)
  have hany : ((contextValues ctx b.key).getD []).any (valueMatchesAny m a) =
      ((contextValues ctx' b.key).getD []).any (valueMatchesAny m b) :=
    PermUpTo.any_eq (R := (· = ·)) (by
      rintro actual _ rfl
      exact valueMatchesAny_reordered h actual) hkey
  rw [conditionMatches, conditionMatches]
  simp only [h.operator, h.key, hany, h.values.any_eq, hkey.eq_nil_iff]

/-- Nor does an `Action`, `NotAction`, `Resource` or `NotResource` clause. -/
theorem matchesByMode_reordered {mode : MatchMode} {patterns patterns' : List Bytes}
    (h : patterns.Perm patterns') (value : Bytes) (action : Bool) :
    matchesByMode m mode patterns value action = matchesByMode m mode patterns' value action := by
  simp only [matchesByMode, h.any_eq]

/-- So a statement applies to a request exactly if its reordering applies to the
    request with reordered values. -/
theorem statementMatches_reordered {a b : Statement} (h : StatementReordered a b)
    {req req' : Request} (hreq : RequestReordered req req') :
    statementMatches m a req = statementMatches m b req' := by
  rw [statementMatches, statementMatches, h.actionMode, h.resourceMode, hreq.action,
    hreq.resource, matchesByMode_reordered h.actions, matchesByMode_reordered h.resources]
  congr 1
  exact h.conditions.all_eq (fun _ _ hcond => conditionMatches_reordered hcond hreq.context)

/-- The three decisions exclude each other. -/
theorem authorize_eq_of_iff {p p' : Policy} {req req' : Request}
    (hdeny : authorize m (some p) req = .error .explicitDeny ↔
      authorize m (some p') req' = .error .explicitDeny)
    (hok : authorize m (some p) req = .ok () ↔ authorize m (some p') req' = .ok ()) :
    authorize m (some p') req' = authorize m (some p) req := by
  cases h : authorize m (some p) req with
  | ok u => exact hok.mp h
  | error e =>
      cases e with
      | explicitDeny => exact hdeny.mp h
      | implicitDeny =>
          cases h' : authorize m (some p') req' with
          | ok u => exact nomatch h.symm.trans (hok.mpr h')
          | error e =>
              cases e with
              | explicitDeny => exact nomatch h.symm.trans (hdeny.mpr h')
              | implicitDeny => rfl

/-- The decision: deny overrides allow, and neither is looked for in an order.  Hence
    the order of the statements does not matter either. -/
theorem authorize_reordered {p p' : Policy}
    (h : PermUpTo StatementReordered p.statements p'.statements) {req req' : Request}
    (hreq : RequestReordered req req') :
    authorize m (some p') req' = authorize m (some p) req := by
  refine authorize_eq_of_iff ?_ ?_
  · rw [authorize_deny_iff, authorize_deny_iff]
    refine h.exists_iff (fun a b hab => ?_)
    rw [statementMatches_reordered hab hreq, hab.effect]
  · rw [authorize_ok_iff, authorize_ok_iff]
    refine and_congr (h.forall_iff (fun a b hab => ?_)) (h.exists_iff (fun a b hab => ?_))
    · rw [statementMatches_reordered hab hreq, hab.effect]
    · rw [statementMatches_reordered hab hreq]

end

/-! ## Compiling a reordered document -/

section
variable {c : Compiler} {opts : Options} {v v' : Value}

/-- An operand that can be written as a text has no parts, so reordering leaves it as
    it is. -/
theorem conditionValueToString_reordered (h : v.Reordered v') {value : Bytes}
    (hv : conditionValueToString v = .ok value) : conditionValueToString v' = .ok value := by
  cases h with
  | refl => exact hv
  | array | object => exact nomatch hv

/-- The operands of an entry: one, or an array whose elements may be permuted. -/
theorem parseConditionValues_reordered (h : v.Reordered v') {values : List Bytes}
    (hv : parseConditionValues v = .ok values) :
    ∃ values', parseConditionValues v' = .ok values' ∧ values.Perm values' := by
  cases h with
  | refl => exact ⟨values, hv, List.Perm.refl _⟩
  | @array items mid items' hperm hmid =>
      have hitems : PermUpTo Value.Reordered items items' := ⟨mid, hperm, hmid⟩
      rw [parseConditionValues] at hv
      split at hv
      · cases hv
      · next hne =>
          obtain ⟨values', hvalues', hsame⟩ := hitems.mapM hv
            (fun a a' b haa hb => ⟨b, conditionValueToString_reordered haa hb, rfl⟩)
          have hne' : ¬ items'.isEmpty = true := by
            rw [List.isEmpty_iff] at hne ⊢
            exact fun hnil => hne (hitems.eq_nil_iff.mpr hnil)
          refine ⟨values', ?_, hsame.perm⟩
          rw [parseConditionValues, if_neg hne', hvalues']
  | object => cases hv

/-- Operands are validated one by one, so all pass in any order. -/
theorem validateConditionOperands_perm {operator : Operator} {keyType : ConditionValueType}
    {values values' : List Bytes} (h : values.Perm values')
    (hv : validateConditionOperands c operator keyType values = .ok ()) :
    validateConditionOperands c operator keyType values' = .ok () := by
  obtain ⟨htype, hvalues⟩ := seq_ok_iff.mp hv
  refine seq_ok_iff.mpr ⟨htype, checkEach_ok_iff.mpr ?_⟩
  intro value hvalue
  exact checkEach_ok_iff.mp hvalues value (h.mem_iff.mpr hvalue)

/-- Each pattern is compiled on its own. -/
theorem compileWildcards_perm {values values' patterns : List Bytes} {action : Bool}
    (h : values.Perm values') (hv : compileWildcards c values action = .ok patterns) :
    ∃ patterns', compileWildcards c values' action = .ok patterns' ∧
      patterns.Perm patterns' := by
  obtain ⟨patterns', hpatterns', hsame⟩ := (PermUpTo.of_perm h).mapM hv
    (fun a a' b haa hb => ⟨b, haa ▸ hb, rfl⟩)
  exact ⟨patterns', hpatterns', hsame.perm⟩

/-- Only the operators that compare with patterns have any; the others compile to none
    in either order. -/
theorem compileConditionPatterns_perm {operator : Operator} {values values' patterns : List Bytes}
    (h : values.Perm values') (hv : compileConditionPatterns c operator values = .ok patterns) :
    ∃ patterns', compileConditionPatterns c operator values' = .ok patterns' ∧
      patterns.Perm patterns' := by
  rw [compileConditionPatterns] at hv
  split at hv
  · next hlike => exact ⟨patterns, by rw [compileConditionPatterns, if_pos hlike, hv],
      List.Perm.refl _⟩
  · next hlike =>
      rw [compileConditionPatterns, if_neg hlike]
      exact compileWildcards_perm h hv

/-- One entry of a condition block.  All its checks are of the key, which both entries
    share, or of the operands one by one. -/
theorem parseCondition_reordered {operator : Operator} {e e' : RawEntry}
    (h : EntryReordered e e') {cond : Condition}
    (hc : parseCondition c opts operator e = .ok cond) :
    ∃ cond', parseCondition c opts operator e' = .ok cond' ∧ ConditionReordered cond cond' := by
  obtain ⟨key, v⟩ := e
  obtain ⟨key', v'⟩ := e'
  obtain ⟨rfl, hv⟩ : key = key' ∧ v.Reordered v' := h
  obtain ⟨hkey, hc⟩ := seq_ok_iff.mp hc
  obtain ⟨values, hvalues, hc⟩ := bind_ok_iff.mp hc
  obtain ⟨hoperands, hc⟩ := seq_ok_iff.mp hc
  obtain ⟨patterns, hpatterns, hc⟩ := bind_ok_iff.mp hc
  cases hc
  obtain ⟨values', hvalues', hsame⟩ :=
    parseConditionValues_reordered hv (mapError_ok_iff.mp hvalues)
  obtain ⟨patterns', hpatterns', hsamePatterns⟩ :=
    compileConditionPatterns_perm hsame (mapError_ok_iff.mp hpatterns)
  have hoperands' := validateConditionOperands_perm hsame (mapError_ok_iff.mp hoperands)
  refine ⟨_, seq_ok_iff.mpr ⟨hkey, bind_ok_iff.mpr ⟨values', mapError_ok_iff.mpr hvalues',
    seq_ok_iff.mpr ⟨mapError_ok_iff.mpr hoperands',
      bind_ok_iff.mpr ⟨patterns', mapError_ok_iff.mpr hpatterns', rfl⟩⟩⟩⟩, ?_⟩
  exact ⟨rfl, rfl, hsame, hsamePatterns⟩

/-- The check for an empty block is not about order. -/
theorem isEmpty_reordered {α β : Type} {R : α → β → Prop} {l : List α} {l' : List β}
    (h : PermUpTo R l l') : l.isEmpty = l'.isEmpty := by
  rw [Bool.eq_iff_iff, List.isEmpty_iff, List.isEmpty_iff, h.eq_nil_iff]

/-- The entries under one operator. -/
theorem parseConditionGroup_reordered {g g' : Bytes × List RawEntry} (h : GroupReordered g g')
    {conds : List Condition} (hc : parseConditionGroup c opts g = .ok conds) :
    ∃ conds', parseConditionGroup c opts g' = .ok conds' ∧
      PermUpTo ConditionReordered conds conds' := by
  obtain ⟨name, entries⟩ := g
  obtain ⟨name', entries'⟩ := g'
  obtain ⟨rfl, hentries⟩ : name = name' ∧ PermUpTo EntryReordered entries entries' := h
  obtain ⟨operator, hoperator, hc⟩ := bind_ok_iff.mp hc
  obtain ⟨hne, hc⟩ := seq_ok_iff.mp hc
  obtain ⟨conds', hconds', hsame⟩ := hentries.mapM hc
    (fun e e' cond he hcond => parseCondition_reordered he hcond)
  rw [isEmpty_reordered hentries] at hne
  exact ⟨conds', bind_ok_iff.mpr ⟨operator, hoperator, seq_ok_iff.mpr
    ⟨hne, hconds'⟩⟩, hsame⟩

/-- A whole `Condition` block, with its operators and the entries under each in any
    order. -/
theorem parseConditions_reordered (h : v.Reordered v') {conds : List Condition}
    (hc : parseConditions c opts v = .ok conds) :
    ∃ conds', parseConditions c opts v' = .ok conds' ∧
      PermUpTo ConditionReordered conds conds' := by
  rw [parseConditions] at hc
  split at hc
  · cases hc
  · next groups hgroups =>
      obtain ⟨hne, hc⟩ := seq_ok_iff.mp hc
      obtain ⟨compiled, hcompiled, hc⟩ := bind_ok_iff.mp hc
      cases hc
      obtain ⟨groups', hgroups', hsame⟩ := unmarshalMapOfMaps_reordered h hgroups
      obtain ⟨compiled', hcompiled', hsameCompiled⟩ := hsame.mapM hcompiled
        (fun g g' conds hg hconds => parseConditionGroup_reordered hg hconds)
      rw [isEmpty_reordered hsame] at hne
      refine ⟨compiled'.flatten, ?_, hsameCompiled.flatten⟩
      rw [parseConditions, hgroups']
      exact seq_ok_iff.mpr ⟨hne, bind_ok_iff.mpr ⟨compiled', hcompiled', rfl⟩⟩

/-- What is not a string is not one reordered either.  The error may name another part
    of the value, so only its being one is claimed. -/
theorem unmarshalString_error_reordered (h : v.Reordered v') {e : UnmarshalTypeError}
    (hv : unmarshalString v = .error e) : ∃ e', unmarshalString v' = .error e' := by
  cases h with
  | refl => exact ⟨e, hv⟩
  | array | object => exact ⟨_, rfl⟩

/-- The texts of a clause: one, or an array whose elements may be permuted. -/
theorem parseStringList_reordered {field : String} (h : v.Reordered v') {values : List Bytes}
    (hv : parseStringList v field = .ok values) :
    ∃ values', parseStringList v' field = .ok values' ∧ values.Perm values' := by
  rw [parseStringList] at hv
  split at hv
  · next single hsingle =>
      refine ⟨values, ?_, List.Perm.refl _⟩
      rw [parseStringList, unmarshalString_reordered h hsingle]
      exact hv
  · next e hnot =>
      split at hv
      · cases hv
      · next many hmany =>
          obtain ⟨hne, hv⟩ := seq_ok_iff.mp hv
          obtain ⟨hcheck, hv⟩ := seq_ok_iff.mp hv
          cases hv
          -- an array stays an array, so the first attempt fails again
          obtain ⟨e', hnot'⟩ := unmarshalString_error_reordered h hnot
          obtain ⟨values', hvalues', hsame⟩ := unmarshalStrings_reordered h hmany
          rw [isEmpty_reordered (PermUpTo.of_perm hsame)] at hne
          refine ⟨values', ?_, hsame⟩
          rw [parseStringList, hnot']
          simp only [hvalues']
          refine seq_ok_iff.mpr ⟨hne, seq_ok_iff.mpr ⟨checkEach_ok_iff.mpr ?_, rfl⟩⟩
          intro value hvalue
          exact checkEach_ok_iff.mp hcheck value (hsame.mem_iff.mpr hvalue)

section
variable {raw raw' : RawMap}

/-- A clause keeps its mode, and its patterns up to order. -/
theorem parseClause_reordered (h : PermUpTo EntryReordered raw.entries raw'.entries)
    {field : String} {action : Bool} {clause : MatchMode × List Bytes}
    (hc : parseClause c raw field action = .ok clause) :
    ∃ clause', parseClause c raw' field action = .ok clause' ∧ clause.1 = clause'.1 ∧
      clause.2.Perm clause'.2 := by
  -- which of the two spellings is present does not depend on the order
  have hread : ∀ {v v' : Value} {mode : MatchMode}, v.Reordered v' → (do
      let values ← parseStringList v field
      let patterns ← compileWildcards c values action
      Except.ok (mode, patterns)) = .ok clause →
      ∃ clause', (do
        let values ← parseStringList v' field
        let patterns ← compileWildcards c values action
        Except.ok (mode, patterns)) = .ok clause' ∧ clause.1 = clause'.1 ∧
        clause.2.Perm clause'.2 := by
    intro v v' mode hvv hc
    obtain ⟨values, hvalues, hc⟩ := bind_ok_iff.mp hc
    obtain ⟨patterns, hpatterns, hc⟩ := bind_ok_iff.mp hc
    cases hc
    obtain ⟨values', hvalues', hsame⟩ := parseStringList_reordered hvv hvalues
    obtain ⟨patterns', hpatterns', hsamePatterns⟩ := compileWildcards_perm hsame hpatterns
    exact ⟨_, bind_ok_iff.mpr ⟨values', hvalues', bind_ok_iff.mpr ⟨patterns', hpatterns', rfl⟩⟩,
      rfl, hsamePatterns⟩
  have hpositive := lookup_reordered h (ascii field)
  have hnegative := lookup_reordered h (ascii ("Not" ++ field))
  rw [parseClause] at hc
  rw [parseClause]
  split at hc
  · next v hv hnot =>
      rw [hv] at hpositive
      rw [hnot] at hnegative
      rcases hpositive with ⟨hnone, -⟩ | ⟨a, a', ha, ha', haa⟩
      · cases hnone
      · cases ha
        rcases hnegative with ⟨-, hnone'⟩ | ⟨b, b', hb, -⟩
        · rw [ha', hnone']
          exact hread haa hc
        · cases hb
  · next v hnot hv =>
      rw [hv] at hnegative
      rw [hnot] at hpositive
      rcases hnegative with ⟨hnone, -⟩ | ⟨a, a', ha, ha', haa⟩
      · cases hnone
      · cases ha
        rcases hpositive with ⟨-, hnone'⟩ | ⟨b, b', hb, -⟩
        · rw [ha', hnone']
          exact hread haa hc
        · cases hb
  · cases hc

/-- An optional text field. -/
theorem parseSid_reordered (h : PermUpTo EntryReordered raw.entries raw'.entries) {sid : Bytes}
    (hs : parseSid raw = .ok sid) : parseSid raw' = .ok sid := by
  rw [parseSid] at hs ⊢
  rcases lookup_reordered h (ascii "Sid") with ⟨hnone, hnone'⟩ | ⟨a, a', ha, ha', haa⟩
  · rw [hnone] at hs
    rw [hnone', hs]
  · rw [ha] at hs
    rw [ha']
    exact mapError_ok_iff.mpr (unmarshalString_reordered haa (mapError_ok_iff.mp hs))

/-- The effect is a text under a name, found wherever it stands. -/
theorem parseEffect_reordered (h : PermUpTo EntryReordered raw.entries raw'.entries)
    {effect : Effect} (he : parseEffect raw = .ok effect) : parseEffect raw' = .ok effect := by
  rw [parseEffect] at he ⊢
  rcases lookup_reordered h (ascii "Effect") with ⟨hnone, -⟩ | ⟨a, a', ha, ha', haa⟩
  · rw [hnone] at he
    cases he
  · rw [ha] at he
    rw [ha']
    simp only at he ⊢
    split at he
    · cases he
    · next text htext =>
        rw [unmarshalString_reordered haa htext]
        exact he

/-- The conditions of a statement, none if there is no block. -/
theorem statementConditions_reordered (h : PermUpTo EntryReordered raw.entries raw'.entries)
    {conds : List Condition} (hc : statementConditions c opts raw = .ok conds) :
    ∃ conds', statementConditions c opts raw' = .ok conds' ∧
      PermUpTo ConditionReordered conds conds' := by
  rw [statementConditions] at hc ⊢
  rcases lookup_reordered h (ascii "Condition") with ⟨hnone, hnone'⟩ | ⟨a, a', ha, ha', haa⟩
  · rw [hnone] at hc
    cases hc
    rw [hnone']
    exact ⟨[], rfl, PermUpTo.of_forall₂ List.Forall₂.nil⟩
  · rw [ha] at hc
    rw [ha']
    exact parseConditions_reordered haa hc

/-- Reordered maps have the same keys.  Unknown keys are therefore refused in both or
    in neither. -/
theorem mem_keys_reordered (h : PermUpTo EntryReordered raw.entries raw'.entries) {key : Bytes}
    (hk : key ∈ raw'.keys) : key ∈ raw.keys := by
  obtain ⟨e', he', rfl⟩ := List.mem_map.mp hk
  obtain ⟨e, he, hkey, -⟩ := h.exists_left he'
  exact List.mem_map.mpr ⟨e, he, hkey⟩

end

/-- **STATEMENT**: if it compiles, so does its reordering, and to the reordered
    compiled form. -/
theorem compileStatement_reordered {raw raw' : Option RawMap} (h : MapReordered raw raw')
    {stmt : Statement} (hs : compileStatement c opts raw = .ok stmt) :
    ∃ stmt', compileStatement c opts raw' = .ok stmt' ∧ StatementReordered stmt stmt' := by
  obtain ⟨hnil, hentries⟩ := h
  cases raw with
  | none => exact nomatch hs
  | some raw =>
      cases raw' with
      | none => exact nomatch hnil.mpr rfl
      | some raw' =>
          replace hentries : PermUpTo EntryReordered raw.entries raw'.entries := hentries
          obtain ⟨hkeys, hs⟩ := seq_ok_iff.mp hs
          obtain ⟨sid, hsid, hs⟩ := bind_ok_iff.mp hs
          obtain ⟨effect, heffect, hs⟩ := bind_ok_iff.mp hs
          obtain ⟨action, haction, hs⟩ := bind_ok_iff.mp hs
          obtain ⟨resource, hresource, hs⟩ := bind_ok_iff.mp hs
          obtain ⟨conds, hconds, hs⟩ := bind_ok_iff.mp hs
          cases hs
          obtain ⟨action', haction', hmode, hactions⟩ := parseClause_reordered hentries haction
          obtain ⟨resource', hresource', hmode', hresources⟩ :=
            parseClause_reordered hentries hresource
          obtain ⟨conds', hconds', hsame⟩ := statementConditions_reordered hentries hconds
          have hkeys' : checkEach statementElement raw'.keys = .ok () := by
            rw [checkEach_ok_iff] at hkeys ⊢
            exact fun key hkey => hkeys key (mem_keys_reordered hentries hkey)
          refine ⟨_, seq_ok_iff.mpr ⟨hkeys', bind_ok_iff.mpr ⟨sid, parseSid_reordered hentries hsid,
            bind_ok_iff.mpr ⟨effect, parseEffect_reordered hentries heffect, bind_ok_iff.mpr
            ⟨action', haction', bind_ok_iff.mpr ⟨resource', hresource', bind_ok_iff.mpr
            ⟨conds', hconds', rfl⟩⟩⟩⟩⟩⟩, ?_⟩
          exact ⟨rfl, hmode, hactions, hmode', hresources, hsame⟩

/-- One statement, or an array of them in any order. -/
theorem parseStatementList_reordered (h : v.Reordered v') {raws : List (Option RawMap)}
    (hr : parseStatementList v = .ok raws) :
    ∃ raws', parseStatementList v' = .ok raws' ∧ PermUpTo MapReordered raws raws' := by
  cases h with
  | refl => exact ⟨raws, hr, PermUpTo.refl_of MapReordered.refl raws⟩
  | array hperm hmid =>
      obtain ⟨raws', hraws', hsame⟩ :=
        unmarshalMaps_reordered (.array hperm hmid) (mapError_ok_iff.mp hr)
      exact ⟨raws', mapError_ok_iff.mpr hraws', hsame⟩
  | object hkeys hperm hnames hvalues =>
      obtain ⟨single, hsingle, hr⟩ := bind_ok_iff.mp hr
      cases hr
      obtain ⟨single', hsingle', hsame⟩ :=
        unmarshalMap_reordered (.object hkeys hperm hnames hvalues) (mapError_ok_iff.mp hsingle)
      exact ⟨[single'], bind_ok_iff.mpr ⟨single', mapError_ok_iff.mpr hsingle', rfl⟩,
        PermUpTo.of_forall₂ (List.Forall₂.cons hsame List.Forall₂.nil)⟩

/-- The version is a text under a name. -/
theorem checkVersion_reordered {raw raw' : RawMap}
    (h : PermUpTo EntryReordered raw.entries raw'.entries) (hv : checkVersion raw = .ok ()) :
    checkVersion raw' = .ok () := by
  rw [checkVersion] at hv ⊢
  rcases lookup_reordered h (ascii "Version") with ⟨hnone, hnone'⟩ | ⟨a, a', ha, ha', haa⟩
  · rw [hnone']
  · rw [ha] at hv
    rw [ha']
    simp only at hv ⊢
    split at hv
    · exact nomatch hv
    · next text htext =>
        rw [unmarshalString_reordered haa htext]
        exact hv

/-- **ORDER DOES NOT MATTER TO THE COMPILER**: a reordered document is accepted with the
    same policy up to order. -/
theorem parsePolicyJSON_reordered {doc doc' : Value} (h : doc.Reordered doc') {policy : Policy}
    (hp : parsePolicyJSON c opts doc = .ok policy) :
    ∃ policy', parsePolicyJSON c opts doc' = .ok policy' ∧
      PermUpTo StatementReordered policy.statements policy'.statements := by
  obtain ⟨raw, statementRaw, raws, hraw, hkeys, hversion, hstatement, hraws, hne, hstmts⟩ :=
    parsePolicyJSON_ok_iff.mp hp
  obtain ⟨map', hmap', hnil, hentries⟩ := unmarshalMap_reordered h hraw
  cases map' with
  | none => exact nomatch hnil.mpr rfl
  | some raw' =>
      replace hentries : PermUpTo EntryReordered raw.entries raw'.entries := hentries
      rcases lookup_reordered hentries (ascii "Statement") with
        ⟨hnone, -⟩ | ⟨a, statementRaw', ha, hstatement', haa⟩
      · exact nomatch hstatement.symm.trans hnone
      · cases hstatement.symm.trans ha
        obtain ⟨raws', hraws', hsame⟩ := parseStatementList_reordered haa hraws
        obtain ⟨stmts', hstmts', hsameStmts⟩ := hsame.forall₂
          (compileStatements_ok_iff.mp hstmts)
          (fun raw raw' stmt hrr hs => compileStatement_reordered hrr hs)
        refine ⟨{ statements := stmts' }, parsePolicyJSON_ok_iff.mpr ?_, hsameStmts⟩
        exact ⟨raw', statementRaw', raws', hmap',
          fun key hkey => hkeys key (mem_keys_reordered hentries hkey),
          checkVersion_reordered hentries hversion, hstatement', hraws',
          fun hnil => hne (hsame.eq_nil_iff.mpr hnil), compileStatements_ok_iff.mpr hstmts'⟩

end

/-! ## Decisions -/

/-- The operators that hold of a key with no values, whatever their operands. -/
def negatedOperators : List Bytes :=
  [ascii "StringNotEquals", ascii "StringNotLike", ascii "NumericNotEquals",
    ascii "DateNotEquals"]

/-- What is found under a key is an entry with that key. -/
theorem mem_of_lookup {α β : Type} [BEq α] [LawfulBEq α] {l : List (α × β)} {k : α} {b : β}
    (h : l.lookup k = some b) : (k, b) ∈ l := by
  obtain ⟨l₁, l₂, rfl, -⟩ := List.lookup_eq_some_iff.mp h
  exact List.mem_append_right l₁ List.mem_cons_self

/-- The operators that hold of requests without the key are the negated ones. -/
theorem lookup_noMatch {m : Matchers} {operator : Bytes} {rel : Bytes → Bytes → Prop}
    (h : (meanings m).lookup operator = some (.noMatch rel)) : operator ∈ negatedOperators := by
  have hmem := mem_of_lookup h
  simp only [meanings, List.mem_cons, Prod.mk.injEq, List.not_mem_nil, or_false, reduceCtorEq,
    and_false, false_or] at hmem
  rcases hmem with ⟨rfl, -⟩ | ⟨rfl, -⟩ | ⟨rfl, -⟩ | ⟨rfl, -⟩
  all_goals decide

/-- Only `Null` asks whether the key is there. -/
theorem lookup_absence {m : Matchers} {operator : Bytes}
    (h : (meanings m).lookup operator = some .absence) : operator = ascii "Null" := by
  have hmem := mem_of_lookup h
  simpa only [meanings, List.mem_cons, Prod.mk.injEq, List.not_mem_nil, or_false, reduceCtorEq,
    and_false, false_or, and_true] using hmem

/-- A key with no values satisfies exactly the negated operators, and `Null` where it asks
    for that. -/
theorem entryHolds_of_absent {m : Matchers} {ctx : Context} {operator key : Bytes}
    {operands : List Bytes} (h : valuesAt ctx key = []) :
    EntryHolds m ctx operator key operands ↔ operator ∈ negatedOperators ∨
      operator = ascii "Null" ∧
        ∃ operand ∈ operands, m.parseBool (toLower operand) = some true := by
  have hempty : ∀ rel : Bytes → Bytes → Prop,
      ¬ ∃ actual ∈ valuesAt ctx key, ∃ operand ∈ operands, rel actual operand := by
    rintro rel ⟨actual, hactual, -⟩
    rw [h] at hactual
    exact nomatch hactual
  constructor
  · rintro ⟨meaning, hmeaning, hholds⟩
    cases meaning with
    | anyMatch rel => exact absurd hholds (hempty rel)
    | noMatch rel => exact Or.inl (lookup_noMatch hmeaning)
    | absence => exact Or.inr ⟨lookup_absence hmeaning, hholds.mp h⟩
  · rintro (hneg | ⟨rfl, hnull⟩)
    · simp only [negatedOperators, List.mem_cons, List.not_mem_nil, or_false] at hneg
      rcases hneg with rfl | rfl | rfl | rfl
      all_goals exact ⟨_, rfl, hempty _⟩
    · exact ⟨.absence, rfl, iff_of_true h hnull⟩

/-- **POLICIES DECIDE BY THEIR DOCUMENT**: an accepted document is enforced as it reads.
    A request is denied explicitly exactly when a `Deny` statement of the document matches it,
    allowed exactly when an `Allow` statement matches and no `Deny` does, and denied implicitly
    otherwise; and reordering the document anywhere, or the values of the request's context,
    changes neither its acceptance nor the decision. -/
theorem policy_decides_by_document {c : Compiler} {opts : Options} {doc : Value}
    {policy : Policy} (h : parsePolicyJSON c opts doc = .ok policy) (req : Request) :
    (authorize c.toMatchers (some policy) req = .error .explicitDeny ↔
      SomeHolds c.toMatchers doc "Deny" req) ∧
    (authorize c.toMatchers (some policy) req = .ok () ↔
      SomeHolds c.toMatchers doc "Allow" req ∧ ¬ SomeHolds c.toMatchers doc "Deny" req) ∧
    (authorize c.toMatchers (some policy) req = .error .implicitDeny ↔
      ¬ SomeHolds c.toMatchers doc "Allow" req ∧ ¬ SomeHolds c.toMatchers doc "Deny" req) ∧
    (∀ operator key operands, valuesAt req.context key = [] →
      (EntryHolds c.toMatchers req.context operator key operands ↔
        operator ∈ negatedOperators ∨ operator = ascii "Null" ∧
          ∃ operand ∈ operands, c.parseBool (toLower operand) = some true)) ∧
    ∀ doc' req', doc.Reordered doc' → RequestReordered req req' →
      ∃ policy', parsePolicyJSON c opts doc' = .ok policy' ∧
        authorize c.toMatchers (some policy') req' = authorize c.toMatchers (some policy) req := by
  have hread : PermUpTo (Reading c.toMatchers) (statementsOf doc) policy.statements :=
    PermUpTo.of_forall₂ (readings_of_parsed h)
  have heffect : ∀ {effect effect' : Effect},
      some (Value.string (ascii (effectText effect))) =
        some (Value.string (ascii (effectText effect'))) ↔ effect = effect' := by
    intro effect effect'
    rw [Option.some_inj, Value.string.injEq]
    cases effect <;> cases effect' <;> decide
  -- a statement of an effect, on either side
  have hsome : ∀ effect : Effect, SomeHolds c.toMatchers doc (effectText effect) req ↔
      ∃ s ∈ policy.statements, statementMatches c.toMatchers s req = true ∧ s.effect = effect := by
    intro effect
    refine hread.exists_iff (fun s stmt hs => ?_)
    rw [hs.effect, heffect, ← hs.matches_iff, and_comm]
  have hdeny := (authorize_deny_iff (m := c.toMatchers) policy req).trans (hsome .deny).symm
  have hallow : authorize c.toMatchers (some policy) req = .ok () ↔
      SomeHolds c.toMatchers doc "Allow" req ∧ ¬ SomeHolds c.toMatchers doc "Deny" req := by
    rw [authorize_ok_iff, show "Allow" = effectText .allow from rfl,
      show "Deny" = effectText .deny from rfl, hsome, hsome]
    constructor
    · rintro ⟨hall, s, hs, hmatch⟩
      refine ⟨⟨s, hs, hmatch, hall s hs hmatch⟩, ?_⟩
      rintro ⟨s', hs', hmatch', hd⟩
      exact nomatch hd.symm.trans (hall s' hs' hmatch')
    · rintro ⟨⟨s, hs, hmatch, -⟩, hno⟩
      refine ⟨?_, s, hs, hmatch⟩
      intro s' hs' hmatch'
      cases hd : s'.effect with
      | allow => rfl
      | deny => exact absurd ⟨s', hs', hmatch', hd⟩ hno
  refine ⟨hdeny, hallow, ?_, fun _ _ _ habsent => entryHolds_of_absent habsent, ?_⟩
  · cases hdecision : authorize c.toMatchers (some policy) req with
    | ok u =>
        have hyes := hallow.mp hdecision
        exact ⟨(fun h => nomatch h), fun hno => absurd hyes.1 hno.1⟩
    | error e =>
        cases e with
        | explicitDeny =>
            have hyes := hdeny.mp hdecision
            exact ⟨(fun h => nomatch h), fun hno => absurd hyes hno.2⟩
        | implicitDeny =>
            refine ⟨fun _ => ?_, fun _ => rfl⟩
            have hno : ¬ SomeHolds c.toMatchers doc "Deny" req := by
              intro hd
              exact nomatch hdecision.symm.trans (hdeny.mpr hd)
            refine ⟨fun ha => ?_, hno⟩
            exact nomatch hdecision.symm.trans (hallow.mpr ⟨ha, hno⟩)
  · intro doc' req' hdoc hreq
    obtain ⟨policy', hpolicy', hsame⟩ := parsePolicyJSON_reordered hdoc h
    exact ⟨policy', hpolicy', authorize_reordered hsame hreq⟩

/-- Library functions enough for one document: a pattern is a literal or `*`. -/
def sampleCompiler : Compiler where
  wildcard := fun pattern value => pattern == value || pattern == ascii "*"
  parseBool := fun s => if s = ascii "true" then some true else none
  parseNumber := fun _ => none
  parseIAMTime := fun _ => none
  compiles := fun _ => true

/-- The one condition key of the samples, which may have any type. -/
def sampleOptions : Options where
  allowedConditionKeys := ⟨[⟨ascii "s3:prefix", true⟩], show (List.keys _).Nodup by decide⟩
  conditionKeyTypes := ∅

/-- An `Allow` of reads, and a `Deny` of everything outside one prefix. -/
def allowReads : Value :=
  .object [(ascii "Effect", .string (ascii "Allow")),
    (ascii "Action", .array [.string (ascii "S3:GetObject"), .string (ascii "s3:ListBucket")]),
    (ascii "Resource", .string (ascii "*"))]

/-- Denies everything unless the prefix is `home`: a negated operator on a key that
    may be missing or have several values. -/
def denyElsewhere : Value :=
  .object [(ascii "Effect", .string (ascii "Deny")), (ascii "NotAction", .string (ascii "s3:None")),
    (ascii "Resource", .string (ascii "*")),
    (ascii "Condition", .object [(ascii "StringNotEquals",
      .object [(ascii "s3:Prefix", .string (ascii "home"))])])]

/-- A policy document with the given statements. -/
def sampleDocument (statements : List Value) : Value :=
  .object [(ascii "Version", .string (ascii "2012-10-17")),
    (ascii "Statement", .array statements)]

/-- A read with the given values for the prefix. -/
def sampleRequest (values : List Bytes) : Request where
  action := ascii "s3:getobject"
  resource := ascii "r"
  context := ⟨[⟨ascii "s3:prefix", values⟩], List.nodup_singleton _⟩

/-- Inside the prefix the sample document allows, in either order of its statements, and
    outside it denies. -/
theorem policy_decides_by_document_of_sample :
    ∃ policy, parsePolicyJSON sampleCompiler sampleOptions
        (sampleDocument [allowReads, denyElsewhere]) = .ok policy ∧
      SomeHolds sampleCompiler.toMatchers (sampleDocument [allowReads, denyElsewhere]) "Allow"
        (sampleRequest [ascii "home"]) ∧
      SomeHolds sampleCompiler.toMatchers (sampleDocument [allowReads, denyElsewhere]) "Deny"
        (sampleRequest []) ∧
      ∃ policy', parsePolicyJSON sampleCompiler sampleOptions
          (sampleDocument [denyElsewhere, allowReads]) = .ok policy' ∧
        authorize sampleCompiler.toMatchers (some policy') (sampleRequest [ascii "home"]) =
          authorize sampleCompiler.toMatchers (some policy) (sampleRequest [ascii "home"]) := by
  have hcheck : (match parsePolicyJSON sampleCompiler sampleOptions
      (sampleDocument [allowReads, denyElsewhere]) with
      | .ok policy =>
          decide (authorize sampleCompiler.toMatchers (some policy)
            (sampleRequest [ascii "home"]) = .ok ()) &&
          decide (authorize sampleCompiler.toMatchers (some policy) (sampleRequest []) =
            .error .explicitDeny)
      | .error _ => false) = true := by
    decide +kernel
  have hswap : (sampleDocument [allowReads, denyElsewhere]).Reordered
      (sampleDocument [denyElsewhere, allowReads]) := by
    refine .object (show (List.map Prod.fst _).Nodup by decide) (List.Perm.refl _) rfl ?_
    refine List.Forall₂.cons (.refl _) (List.Forall₂.cons ?_ List.Forall₂.nil)
    exact .array (List.Perm.swap _ _ _) (List.forall₂_same.mpr (fun v _ => .refl v))
  split at hcheck
  · next policy hpolicy =>
      rw [Bool.and_eq_true, decide_eq_true_eq, decide_eq_true_eq] at hcheck
      obtain ⟨-, hallow, -, -, horder⟩ :=
        policy_decides_by_document hpolicy (sampleRequest [ascii "home"])
      obtain ⟨hdeny, -⟩ := policy_decides_by_document hpolicy (sampleRequest [])
      exact ⟨policy, hpolicy, (hallow.mp hcheck.1).1, hdeny.mp hcheck.2,
        horder _ _ hswap ⟨rfl, rfl, fun _ => List.Perm.refl _⟩⟩
  · exact nomatch hcheck

end Iam
