import DecisionModel.Library.Call
import DecisionModel.Operator.Arithmetic
import DecisionModel.Operator.Predicate
import DecisionModel.Scope

/-!
# Evaluation

The value of an expression in a scope. Evaluation is defined in two stages, so that each is a
recursion on something that gets smaller: `Expr.evaluateWith` goes down the expression and leaves
calls to a function it is given, and `Function.invokeWithin` goes down the number of calls that may
still nest and evaluates bodies. A table test is an expression like any other: it yields a
predicate.
-/

namespace DecisionModel

/-- The value of a literal. -/
def Literal.toValue : Literal → Value
  | .null => .null
  | .bool b => .bool b
  | .number n => .number n
  | .string s => .string s

/-- A value as one of the tests that a member of something has to satisfy: a list stands for its
elements. -/
def Predicate.ofMemberTest : Value → Predicate
  | .list items => .anyOf (items.map (.compare .eq))
  | v => .ofValue v

/-- The test that an expression in a table cell stands for, where it yielded `result`. A predicate
is one as it is, and any other value is compared with.

In a call that takes the column's input variable as an argument, a boolean result says something
about that argument instead: false rejects every candidate, and true has it compared with the
argument's own value. -/
def Scope.cellTest (s : Scope) (op : ComparisonOp) (operand : Expr) (result : Value) : Predicate :=
  match s.inputVariable.bind operand.argumentNamed?, result with
  | some names, .bool true => .compare op (s.resolve names)
  | some _, .bool false => .constant false
  | _, .predicate p => p
  | _, v => .compare op v

/-! ## Expressions -/

/-- How a call is carried out. -/
abbrev Invoke := Function → List Value → Scope → Result Value

mutual

def Expr.evaluateWith (invoke : Invoke) : Expr → Scope → Result Value
  | .literal l, _ => .ok l.toValue
  | .name n, s => .ok (s.resolve [n])
  | .path names, s => .ok (s.resolve names)
  | .arithmetic op left right, s => do
    let b ← right.evaluateWith invoke (s.part 1)
    let a ← left.evaluateWith invoke (s.part 0)
    Value.arithmetic op a b
  | .negation _ operand, s => do
    let v ← operand.evaluateWith invoke (s.part 1)
    v.negate
  | .comparison op left right, s => do
    let a ← left.evaluateWith invoke (s.part 0)
    let b ← right.evaluateWith invoke (s.part 1)
    a.compare op b
  | .between value low high, s => do
    let v ← value.evaluateWith invoke (s.part 0)
    let a ← low.evaluateWith invoke ((s.part 1).part 0)
    let b ← high.evaluateWith invoke ((s.part 1).part 1)
    let above ← v.compare .ge a
    let below ← v.compare .le b
    return above.and3 below
  | .member value tests, s => do
    let candidate ← value.evaluateWith invoke (s.part 0)
    testMember invoke candidate 1 (.bool false) tests s
  | .interval lowBound low high highBound, s => do
    let a ← low.evaluateWith invoke (s.part 0)
    let b ← high.evaluateWith invoke (s.part 1)
    return .predicate (.interval lowBound a b highBound)
  | .unaryTest op operand, s => do
    let result ← operand.evaluateWith invoke (s.part 0)
    return .predicate (s.cellTest (op.getD .eq) operand result)
  | .unaryTests tests negated, s => do
    match tests with
    | [] => return .predicate (.constant true)
    | _ :: _ =>
      let values ← evaluateAll invoke 1 tests s
      let any := Predicate.anyOf (values.map .ofValue)
      return .predicate (if negated then .negate any else any)
  | .expressions items, s => do
    return .list (← evaluateAll invoke 0 items s)
  | .temporal symbol params, s =>
    match Builtin.ofName? symbol with
    | none => .error (.invalidArgument symbol .unknownLiteral)
    | some b => do
      let args ← evaluateAll invoke 0 params s
      if args.any Value.isAbsent then return .absent else b.call args
  | .invocation function params, s => do
    match ← function.evaluateWith invoke (s.part 0) with
    | .absent => return .absent
    | .function f =>
      let args ← evaluateAll invoke 1 params s
      invoke f args s
    | v => throw (.unsupported (.function "invoke") [v.kind])
  | .list items, s => do
    return .list (← evaluateAll invoke 0 items s)
  | .lambda params body, s => .ok (.function (.lambda (.made s.site) params body))

/-- The values of expressions from left to right, as parts that are numbered from `index` on. -/
def evaluateAll (invoke : Invoke) (index : Nat) : List Expr → Scope → Result (List Value)
  | [], _ => .ok []
  | e :: es, s => do
    let v ← e.evaluateWith invoke (s.part index)
    let vs ← evaluateAll invoke (index + 1) es s
    return v :: vs

/-- Whether a candidate satisfies one of several tests, given the outcome of those before them. Once
one holds, the tests after it are not even evaluated. -/
def testMember (invoke : Invoke) (candidate : Value) (index : Nat) (outcome : Value) :
    List Expr → Scope → Result Value
  | [], _ => .ok outcome
  | e :: es, s => do
    let v ← e.evaluateWith invoke (s.part index)
    let outcome := outcome.or3 (← (Predicate.ofMemberTest v).test candidate)
    if outcome.truth = some true then return outcome
    else testMember invoke candidate (index + 1) outcome es s

end

/-! ## Calls -/

/-- Arguments under the names of the parameters. What is not given is absent, and of parameters with
the same name the last one counts. -/
def bindParams (bound : Context) : List String → List Value → Context
  | [], _ => bound
  | name :: names, args =>
    bindParams (Entries.insert bound name (args.headD .absent)) names args.tail

namespace Function

/-- A call, where `calls` further calls may nest. A decision takes one of them for its body and
hands the rest to the function that the body yields. -/
def invokeWithin : (calls : Nat) → Invoke
  | _, .builtin b, args, _ => b.call args
  | 0, f, _, s => .error (s.tooDeep f.name)
  | calls + 1, .lambda _ params body, args, s =>
    body.evaluateWith (invokeWithin calls) (s.enter (bindParams [] params args))
  | calls + 1, .decision _ _ body, args, s => do
    let inner := s.enter []
    match ← body.evaluateWith (invokeWithin calls) inner with
    | .function f => invokeWithin calls f args (inner.stepTo .result)
    | v => return v

/-- A call in a scope. -/
def invoke (f : Function) (args : List Value) (s : Scope) : Result Value :=
  invokeWithin s.callsLeft f args s

end Function

namespace Expr

def evaluate (e : Expr) (s : Scope) : Result Value :=
  e.evaluateWith (Function.invokeWithin s.callsLeft) s

/-- The expression as a test. -/
def evaluateTest (e : Expr) (s : Scope) : Result Predicate := (e.evaluate s).map .ofValue

end Expr

end DecisionModel
