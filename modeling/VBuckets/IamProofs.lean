import VBuckets.RuneProofs
import Mathlib.Data.List.AList
import Mathlib.Data.Rat.Defs
import Mathlib.Algebra.Order.Ring.Rat

/-! # IAM policies and their evaluation

    `iam/policy.go`: compiled policies and `Authorize`.  Matching a compiled wildcard
    and reading a boolean, a finite number or a date are library calls, collected in
    `Matchers`; a number is read as the rational it denotes and a date in nanoseconds. -/

namespace Iam

open ByteString

/-! ## Compiled policies -/

/-- What a statement that applies does. -/
inductive Effect where
  | allow | deny
  deriving DecidableEq

/-- A clause names what it covers, or what it leaves out (`NotAction`, `NotResource`). -/
inductive MatchMode where
  | positive | negative
  deriving DecidableEq

/-- The five comparisons numbers and dates have.  The sixth, inequality, is the
    negated first. -/
inductive Comparison where
  | equals | lessThan | lessThanEquals | greaterThan | greaterThanEquals
  deriving DecidableEq

/-- `conditionFamily`; the five numeric and the five date families share their
    comparisons. -/
inductive Family where
  | stringEquals
  | stringLike
  | bool
  | null
  | numeric (c : Comparison)
  | date (c : Comparison)
  deriving DecidableEq

/-- A condition operator: its name in documents, what it compares, and whether it is
    negated. -/
structure Operator where
  name : Bytes
  family : Family
  negative : Bool
  deriving DecidableEq

/-- A compiled wildcard is represented by its pattern text. -/
structure Condition where
  operator : Operator
  key : Bytes
  values : List Bytes
  patterns : List Bytes
  deriving DecidableEq

/-- A compiled statement.  Patterns stand for the regular expressions they are
    compiled to. -/
structure Statement where
  sid : Bytes
  effect : Effect
  actionMode : MatchMode
  actions : List Bytes
  resourceMode : MatchMode
  resources : List Bytes
  conditions : List Condition
  deriving DecidableEq

/-- A compiled policy. -/
structure Policy where
  statements : List Statement
  deriving DecidableEq

/-! ## Requests -/

/-- The values of each condition key, under its canonical form.  A key may have several
    values, or be absent. -/
abbrev Context := AList (fun _ : Bytes => List Bytes)

/-- One check of a request: an action on a resource, in a context of condition keys. -/
structure Request where
  action : Bytes
  resource : Bytes
  context : Context

/-- The library functions evaluation relies on: how patterns are matched and how
    operands and values are read.  What holds for all of them holds for the ones of the
    standard library. -/
structure Matchers where
  wildcard : (pattern value : Bytes) → Bool
  parseBool : Bytes → Option Bool
  parseNumber : Bytes → Option ℚ
  parseIAMTime : Bytes → Option Int

variable (m : Matchers)

/-- Condition keys are compared without regard to letter case. -/
def canonicalConditionKey (key : Bytes) : Bytes := toLower key

/-- `Context.values`. -/
def contextValues (ctx : Context) (key : Bytes) : Option (List Bytes) :=
  ctx.lookup (canonicalConditionKey key)

/-! ## Evaluation -/

/-- The comparison of an actual value with the one of the policy, in that order:
    `NumericLessThan` asks whether the request's value is below the policy's. -/
def Comparison.holds {α : Type} [LT α] [LE α] [DecidableEq α] [DecidableLT α] [DecidableLE α] :
    Comparison → α → α → Bool
  | .equals, actual, expected => actual = expected
  | .lessThan, actual, expected => actual < expected
  | .lessThanEquals, actual, expected => actual ≤ expected
  | .greaterThan, actual, expected => expected < actual
  | .greaterThanEquals, actual, expected => expected ≤ actual

/-- Compare two texts read by the same parser; unreadable texts never match. -/
def compareParsed {α : Type} (parse : Bytes → Option α) (holds : α → α → Bool)
    (actual expected : Bytes) : Bool :=
  match parse actual, parse expected with
  | some a, some e => holds a e
  | _, _ => false

/-- `wildcard.matches`: actions are compared in lower case. -/
def wildcardMatches (pattern value : Bytes) (action : Bool) : Bool :=
  m.wildcard pattern (if action then toLower value else value)

/-- One value against one operand.  Patterns are compared elsewhere, and `Null`
    compares no values. -/
def valueMatches (family : Family) (actual expected : Bytes) : Bool :=
  match family with
  | .stringEquals => actual == expected
  | .stringLike => false
  | .bool => compareParsed (fun s => m.parseBool (toLower s)) (· == ·) actual expected
  | .null => false
  | .numeric c => compareParsed m.parseNumber c.holds actual expected
  | .date c => compareParsed m.parseIAMTime c.holds actual expected

/-- One value against all operands, of which one has to match.  Patterns are used for
    `StringLike`, the operands themselves otherwise. -/
def valueMatchesAny (c : Condition) (actual : Bytes) : Bool :=
  match c.operator.family with
  | .stringLike => c.patterns.any (fun pattern => wildcardMatches m pattern actual false)
  | family => c.values.any (fun expected => valueMatches m family actual expected)

/-- `condition.matches`: some value has to match some operand.  A negated operator asks
    that none does, so it also holds when the key is absent; `Null` asks about the
    absence itself. -/
def conditionMatches (c : Condition) (ctx : Context) : Bool :=
  let values := (contextValues ctx c.key).getD []
  if c.operator.family = .null then
    let wantNull := c.values.any (fun value => m.parseBool (toLower value) == some true)
    (values = []) == wantNull
  else if values = [] then c.operator.negative
  else
    let anyMatch := values.any (valueMatchesAny m c)
    if c.operator.negative then !anyMatch else anyMatch

/-- An `Action` or `Resource` clause, or its negation.  Actions are compared in lower
    case. -/
def matchesByMode (mode : MatchMode) (patterns : List Bytes) (value : Bytes) (action : Bool) :
    Bool :=
  let matched := patterns.any (fun pattern => wildcardMatches m pattern value action)
  match mode with
  | .positive => matched
  | .negative => !matched

/-- `statement.matches`. -/
def statementMatches (s : Statement) (req : Request) : Bool :=
  matchesByMode m s.actionMode s.actions req.action true &&
    matchesByMode m s.resourceMode s.resources req.resource false &&
    s.conditions.all (fun c => conditionMatches m c req.context)

/-- The two refusals, `ErrExplicitDeny` and `ErrImplicitDeny`: a statement denies, or
    none allows. -/
inductive Denial where
  | explicitDeny
  | implicitDeny
  deriving DecidableEq

/-- The loop of `Authorize`: the first denial that applies decides, an allowing
    statement is remembered. -/
def authorizeFrom (req : Request) : Bool → List Statement → Except Denial Unit
  | allowed, [] => if allowed then .ok () else .error .implicitDeny
  | allowed, stmt :: rest =>
      if !statementMatches m stmt req then authorizeFrom req allowed rest
      else
        match stmt.effect with
        | .deny => .error .explicitDeny
        | .allow => authorizeFrom req true rest

/-- `Authorize`; a missing policy denies. -/
def authorize (policy : Option Policy) (req : Request) : Except Denial Unit :=
  match policy with
  | none => .error .implicitDeny
  | some p => authorizeFrom m req false p.statements

variable {m}

/-- The loop lets through what no matching statement denies, if one has allowed it or
    still does. -/
private theorem authorizeFrom_ok_iff (req : Request) (stmts : List Statement) :
    ∀ allowed, authorizeFrom m req allowed stmts = .ok () ↔
      (∀ s ∈ stmts, statementMatches m s req = true → s.effect = .allow) ∧
      (allowed = true ∨ ∃ s ∈ stmts, statementMatches m s req = true) := by
  induction stmts with
  | nil =>
      intro allowed
      cases allowed with
      | true | false => simp [authorizeFrom]
  | cons s rest ih =>
      intro allowed
      simp only [authorizeFrom]
      cases hm : statementMatches m s req with
      | false =>
          rw [if_pos (by rfl), ih]
          simp [hm]
      | true =>
          rw [if_neg (by decide)]
          cases he : s.effect with
          | deny => simp [hm, he]
          | allow =>
              rw [ih]
              simp [hm, he]

/-- **DENY OVERRIDES**: a request is allowed exactly when some statement matches it
    and every matching statement is an `Allow`, in whatever order they stand. -/
theorem authorize_ok_iff (p : Policy) (req : Request) :
    authorize m (some p) req = .ok () ↔
      (∀ s ∈ p.statements, statementMatches m s req = true → s.effect = .allow) ∧
      ∃ s ∈ p.statements, statementMatches m s req = true := by
  show authorizeFrom m req false p.statements = .ok () ↔ _
  rw [authorizeFrom_ok_iff]
  simp

/-- It stops at a denying statement wherever that stands, since allowing does not end
    it. -/
private theorem authorizeFrom_deny_iff (req : Request) (stmts : List Statement) :
    ∀ allowed, authorizeFrom m req allowed stmts = .error .explicitDeny ↔
      ∃ s ∈ stmts, statementMatches m s req = true ∧ s.effect = .deny := by
  induction stmts with
  | nil =>
      intro allowed
      cases allowed with
      | true | false => simp [authorizeFrom]
  | cons s rest ih =>
      intro allowed
      simp only [authorizeFrom]
      cases hm : statementMatches m s req with
      | false =>
          rw [if_pos (by rfl), ih]
          simp [hm]
      | true =>
          rw [if_neg (by decide)]
          cases he : s.effect with
          | deny => simp [hm, he]
          | allow =>
              rw [ih]
              simp [he]

/-- An explicit denial is a matching statement that denies. -/
theorem authorize_deny_iff (p : Policy) (req : Request) :
    authorize m (some p) req = .error .explicitDeny ↔
      ∃ s ∈ p.statements, statementMatches m s req = true ∧ s.effect = .deny :=
  authorizeFrom_deny_iff req p.statements false

end Iam
