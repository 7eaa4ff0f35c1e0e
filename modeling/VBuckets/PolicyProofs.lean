import VBuckets.IamProofs
import VBuckets.JsonProofs
import VBuckets.GrammarProofs

/-! # Policy documents

    `ParsePolicyJSON` (`iam/policy.go`) from the decoded document on: the statement and
    condition compilers with their errors.  A loop over a Go map visits its entries in any
    order; the entries of a map here stand in the order one run happens to visit them. -/

namespace Iam

open ByteString Json S3

/-- The types a condition key may be declared with; `any` is that of a key without a
    declaration. -/
inductive ConditionValueType where
  | any | string | bool | numeric | date
  deriving DecidableEq

/-- What the embedding program fixes of policies: the condition keys it supplies and
    their types. -/
structure Options where
  allowedConditionKeys : AList (fun _ : Bytes => Bool)
  conditionKeyTypes : AList (fun _ : Bytes => ConditionValueType)

/-- The library functions compilation relies on: those of evaluation, and whether the
    expression made from a wildcard compiles. -/
structure Compiler extends Matchers where
  compiles : Bytes → Bool

/-- Every error of the compiler has this beginning. -/
def invalidPolicy (format : String) (args : List Bytes) : Reason :=
  { format := "invalid IAM policy: " ++ format, args := args }

/-- `invalidPolicy` around another error. -/
def withinPolicy (format : String) (args : List Bytes) (cause : Reason) : Reason :=
  cause.within ("invalid IAM policy: " ++ format) args

/-! ## Condition keys and operators -/

/-- Keys are compared in lower case, and only those that are switched on count. -/
def canonicalConditionKeySet (keys : AList (fun _ : Bytes => Bool)) : List Bytes :=
  (keys.entries.filter (fun e => e.2)).map (fun e => canonicalConditionKey e.1)

/-- Where two declared keys have one canonical form, the later entry decides. -/
def canonicalConditionKeyTypes (types : AList (fun _ : Bytes => ConditionValueType)) :
    AList (fun _ : Bytes => ConditionValueType) :=
  types.entries.foldl (fun out e => out.insert (canonicalConditionKey e.1) e.2) ∅

/-- The type of a canonical key; a key without one has any type. -/
def conditionKeyType (types : AList (fun _ : Bytes => ConditionValueType)) (key : Bytes) :
    ConditionValueType :=
  ((canonicalConditionKeyTypes types).lookup key).getD .any

/-- The rows of `parseConditionOperator`. -/
def conditionOperators : List Operator :=
  [⟨ascii "StringEquals", .stringEquals, false⟩,
    ⟨ascii "StringNotEquals", .stringEquals, true⟩,
    ⟨ascii "StringLike", .stringLike, false⟩,
    ⟨ascii "StringNotLike", .stringLike, true⟩,
    ⟨ascii "Bool", .bool, false⟩,
    ⟨ascii "Null", .null, false⟩,
    ⟨ascii "NumericEquals", .numeric .equals, false⟩,
    ⟨ascii "NumericNotEquals", .numeric .equals, true⟩,
    ⟨ascii "NumericLessThan", .numeric .lessThan, false⟩,
    ⟨ascii "NumericLessThanEquals", .numeric .lessThanEquals, false⟩,
    ⟨ascii "NumericGreaterThan", .numeric .greaterThan, false⟩,
    ⟨ascii "NumericGreaterThanEquals", .numeric .greaterThanEquals, false⟩,
    ⟨ascii "DateEquals", .date .equals, false⟩,
    ⟨ascii "DateNotEquals", .date .equals, true⟩,
    ⟨ascii "DateLessThan", .date .lessThan, false⟩,
    ⟨ascii "DateLessThanEquals", .date .lessThanEquals, false⟩,
    ⟨ascii "DateGreaterThan", .date .greaterThan, false⟩,
    ⟨ascii "DateGreaterThanEquals", .date .greaterThanEquals, false⟩]

/-- The operator of a name, letter case included.  There are no `IfExists` forms and
    no set operators. -/
def parseConditionOperator (name : Bytes) : Except Reason Operator :=
  match conditionOperators.find? (fun operator => operator.name == name) with
  | some operator => .ok operator
  | none => .error (invalidPolicy "unsupported condition operator %q" [name])

/-- The operators a typed key may be used with.  `Null` asks for no value and is
    checked apart. -/
def operatorMatchesKeyType : Family → ConditionValueType → Bool
  | .stringEquals, keyType | .stringLike, keyType => keyType = .string
  | .bool, keyType => keyType = .bool
  | .numeric _, keyType => keyType = .numeric
  | .date _, keyType => keyType = .date
  | .null, _ => false

/-! ## Values -/

/-- Where a policy variable would start. -/
def policyVariable : Bytes := ascii "$\x7b"

section
variable (c : Compiler)

/-- The operands of an entry: the operator must suit the type of the key, and each
    operand must be readable as the operator reads it. -/
def validateConditionOperands (operator : Operator) (keyType : ConditionValueType)
    (values : List Bytes) : Except Reason Unit := do
  refuseIf (operator.family ≠ .null && keyType ≠ .any &&
      !operatorMatchesKeyType operator.family keyType)
    (invalidPolicy "operator %s is not valid for this condition key" [operator.name])
  checkEach (fun value =>
    match operator.family with
    | .bool | .null =>
        refuseIf (value != ascii "true" && value != ascii "false")
          (invalidPolicy "operator %s requires true or false, got %q" [operator.name, value])
    | .numeric _ =>
        refuseIf (c.parseNumber value).isNone
          (invalidPolicy "operator %s requires a finite number, got %q" [operator.name, value])
    | .date _ =>
        refuseIf (c.parseIAMTime value).isNone
          (invalidPolicy "operator %s requires an IAM date, got %q" [operator.name, value])
    | .stringEquals | .stringLike => .ok ()) values

/-- An operand as the text it is compared as.  Numbers keep their spelling in the
    document, and policy variables are refused, not expanded. -/
def conditionValueToString : Value → Except Reason Bytes
  | .string s =>
      if contains s policyVariable then
        .error (invalidPolicy "condition value contains unsupported policy variable" [])
      else .ok s
  | .bool b => .ok (ascii (if b then "true" else "false"))
  | .number literal => .ok literal
  | _ =>
      .error (invalidPolicy
        "condition value must be a string, number, bool, or array of those" [])

/-- One operand or a non-empty array of them, in their order in the document. -/
def parseConditionValues : Value → Except Reason (List Bytes)
  | .array items =>
      if items.isEmpty then .error (invalidPolicy "condition value list must not be empty" [])
      else items.mapM conditionValueToString
  | v => do
      let value ← conditionValueToString v
      .ok [value]

/-- A pattern that the regular expression compiler accepts.  The compiled form is
    determined by the pattern, which stands for it here. -/
def compileWildcard (value : Bytes) : Except Reason Bytes :=
  if c.compiles value then .ok value
  else .error (invalidPolicy "invalid wildcard pattern %q: %w" [value])

/-- All patterns of a clause.  Those of actions are compared in lower case. -/
def compileWildcards (values : List Bytes) (action : Bool) : Except Reason (List Bytes) :=
  values.mapM (fun value => compileWildcard c (if action then toLower value else value))

/-- Only `StringLike` and `StringNotLike` have patterns. -/
def compileConditionPatterns (operator : Operator) (values : List Bytes) :
    Except Reason (List Bytes) :=
  if operator.family ≠ .stringLike then .ok [] else compileWildcards c values false

/-- The checks of one text of a clause: policy variables are refused rather than taken
    literally, and a text must not be empty. -/
def checkClauseValue (field : String) (value : Bytes) : Except Reason Unit := do
  refuseIf (contains value policyVariable)
    (invalidPolicy "%s contains unsupported policy variable" [ascii field])
  refuseIf (value == []) (invalidPolicy "%s value must not be empty" [ascii field])

/-- The texts of a clause.  A string is tried first, so that the errors of an array
    are reported only for what is no string. -/
def parseStringList (raw : Value) (field : String) : Except Reason (List Bytes) :=
  match unmarshalString raw with
  | .ok single => do
      checkClauseValue field single
      .ok [single]
  | .error _ =>
      match unmarshalStrings raw with
      | .error _ =>
          .error (invalidPolicy "%s must be a string or array of strings" [ascii field])
      | .ok many => do
          refuseIf many.isEmpty (invalidPolicy "%s must not be empty" [ascii field])
          checkEach (checkClauseValue field) many
          .ok many

/-! ## Statements -/

section
variable (opts : Options)

/-- The inner loop of `parseConditions`: one key of one operator.  The key has to be
    known, its operands have to read at its type, and every error quotes the key. -/
def parseCondition (operator : Operator) (e : RawEntry) : Except Reason Condition := do
  let canonicalKey := canonicalConditionKey e.1
  refuseIf (!(canonicalConditionKeySet opts.allowedConditionKeys).contains canonicalKey)
    (invalidPolicy "unsupported condition key %q" [e.1])
  let values ← (parseConditionValues e.2).mapError (withinPolicy "condition key %q: " [e.1])
  (validateConditionOperands c operator (conditionKeyType opts.conditionKeyTypes canonicalKey)
    values).mapError (withinPolicy "condition key %q: " [e.1])
  let patterns ← (compileConditionPatterns c operator values).mapError
    (withinPolicy "condition key %q: " [e.1])
  .ok { operator := operator, key := canonicalKey, values := values, patterns := patterns }

/-- The outer loop of `parseConditions`: one operator. -/
def parseConditionGroup (g : Bytes × List RawEntry) : Except Reason (List Condition) := do
  let operator ← parseConditionOperator g.1
  refuseIf g.2.isEmpty
    (invalidPolicy "Condition operator %s must include at least one key" [g.1])
  g.2.mapM (parseCondition c opts operator)

/-- A `Condition` block.  The source walks its operators in the order of a Go map;
    here it is the order in which they stand. -/
def parseConditions (raw : Value) : Except Reason (List Condition) :=
  match unmarshalMapOfMaps raw with
  | .error _ => .error (invalidPolicy "Condition must be an object" [])
  | .ok byOperator => do
      refuseIf byOperator.isEmpty (invalidPolicy "Condition must not be empty" [])
      let groups ← byOperator.mapM (parseConditionGroup c opts)
      .ok groups.flatten

/-- The elements a statement may have.  Principals are refused with a message of their
    own. -/
def statementElement (key : Bytes) : Except Reason Unit :=
  if [ascii "Sid", ascii "Effect", ascii "Action", ascii "NotAction", ascii "Resource",
      ascii "NotResource", ascii "Condition"].contains key then .ok ()
  else if [ascii "Principal", ascii "NotPrincipal"].contains key then
    .error (invalidPolicy "%s is not supported in identity policies" [key])
  else .error (invalidPolicy "unsupported statement element %q" [key])

/-- The identifier is optional and not checked further. -/
def parseSid (raw : RawMap) : Except Reason Bytes :=
  match raw.lookup (ascii "Sid") with
  | none => .ok []
  | some v => (unmarshalString v).mapError (fun _ => invalidPolicy "Sid must be a string" [])

/-- The effect is required, in exactly one of two spellings. -/
def parseEffect (raw : RawMap) : Except Reason Effect :=
  match raw.lookup (ascii "Effect") with
  | none => .error (invalidPolicy "Effect is required" [])
  | some v =>
      match unmarshalString v with
      | .error _ => .error (invalidPolicy "Effect must be a string" [])
      | .ok effectValue =>
          if effectValue = ascii "Allow" then .ok .allow
          else if effectValue = ascii "Deny" then .ok .deny
          else .error (invalidPolicy "Effect must be Allow or Deny" [])

/-- `Action` or `NotAction`, `Resource` or `NotResource`: exactly one of the two is
    there, and it says whether the texts include or exclude. -/
def parseClause (raw : RawMap) (field : String) (action : Bool) :
    Except Reason (MatchMode × List Bytes) :=
  match raw.lookup (ascii field), raw.lookup (ascii ("Not" ++ field)) with
  | some v, none => do
      let values ← parseStringList v field
      let patterns ← compileWildcards c values action
      .ok (.positive, patterns)
  | none, some v => do
      let values ← parseStringList v field
      let patterns ← compileWildcards c values action
      .ok (.negative, patterns)
  | _, _ =>
      .error (invalidPolicy ("exactly one of " ++ field ++ " or Not" ++ field ++ " is required") [])

/-- The conditions of a statement; without the element there are none. -/
def statementConditions (raw : RawMap) : Except Reason (List Condition) :=
  match raw.lookup (ascii "Condition") with
  | none => .ok []
  | some v => parseConditions c opts v

/-- A statement, checked in the order of the source: unknown elements, then
    identifier, effect, actions, resources and conditions. -/
def compileStatement (raw : Option RawMap) : Except Reason Statement :=
  match raw with
  | none => .error (invalidPolicy "statement must be an object" [])
  | some raw => do
      checkEach statementElement raw.keys
      let sid ← parseSid raw
      let effect ← parseEffect raw
      let action ← parseClause c raw "Action" true
      let resource ← parseClause c raw "Resource" false
      let conditions ← statementConditions c opts raw
      .ok
        { sid := sid
          effect := effect
          actionMode := action.1
          actions := action.2
          resourceMode := resource.1
          resources := resource.2
          conditions := conditions }

/-! ## Documents -/

/-- An object is one statement; anything else must be an array of objects. -/
def parseStatementList (raw : Value) : Except Reason (List (Option RawMap)) :=
  let refused := invalidPolicy "Statement must be an object or array" []
  match raw with
  | .object _ => do
      let single ← (unmarshalMap raw).mapError (fun _ => refused)
      .ok [single]
  | _ => (unmarshalMaps raw).mapError (fun _ => refused)

/-- The loop over the statements, with the index its errors quote. -/
def compileStatements : Nat → List (Option RawMap) → Except Reason (List Statement)
  | _, [] => .ok []
  | i, raw :: rest => do
      let stmt ← (compileStatement c opts raw).mapError
        (withinPolicy "statement %d: " [ascii (toString i)])
      let stmts ← compileStatements (i + 1) rest
      .ok (stmt :: stmts)

/-- The version may be missing; if it is there it is one of the two published ones. -/
def checkVersion (raw : RawMap) : Except Reason Unit :=
  match raw.lookup (ascii "Version") with
  | none => .ok ()
  | some v =>
      match unmarshalString v with
      | .error _ => .error (invalidPolicy "Version must be a string" [])
      | .ok version =>
          refuseIf (version != ascii "2012-10-17" && version != ascii "2008-10-17")
            (invalidPolicy "unsupported policy Version %q" [version])

/-- `ParsePolicyJSON` on the value its text decodes to: nothing but `Version` and
    `Statement` is allowed at the top, and there must be a statement. -/
def parsePolicyJSON (doc : Value) : Except Reason Policy :=
  match unmarshalMap doc with
  | .error _ => .error (invalidPolicy "parse policy JSON: %w" [])
  | .ok none => .error (invalidPolicy "policy JSON must be an object" [])
  | .ok (some raw) => do
      checkEach (fun key => refuseIf (key != ascii "Version" && key != ascii "Statement")
        (invalidPolicy "unsupported top-level policy element %q" [key])) raw.keys
      checkVersion raw
      match raw.lookup (ascii "Statement") with
      | none => .error (invalidPolicy "policy must include Statement" [])
      | some statementRaw => do
          let rawStatements ← parseStatementList statementRaw
          refuseIf rawStatements.isEmpty
            (invalidPolicy "policy must include at least one statement" [])
          let statements ← compileStatements c opts 0 rawStatements
          .ok { statements := statements }

end

end

end Iam
