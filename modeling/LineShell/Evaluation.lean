import LineShell.Journal
import LineShell.Store

/-!
# Evaluation

Evaluation takes a node and a store and gives a result, the store afterwards and the records of
what was done. Names, literals of three kinds, sums and differences of two such operands,
declarations and plain assignments have values. The writes of nested declarations and assignments
are done from the inside out, and those that were done stay when an outer one fails.
-/

namespace LineShell

/-- What evaluation of a node comes to. -/
structure Evaluation where
  /-- The value, or why there is none. -/
  result : Except (Failure EvalError) Value
  /-- The store afterwards. -/
  store : Store
  /-- What was done, in order. -/
  journal : List Record

namespace Evaluation

/-- An evaluation that leaves the store as it is. -/
def still (s : Store) (result : Except (Failure EvalError) Value) : Evaluation :=
  ⟨result, s, []⟩

/-- An evaluation that fails with an error and leaves the store as it is. -/
def refuse (s : Store) (e : EvalError) : Evaluation :=
  still s (.error (.error e))

/-- Goes on with the value of an evaluation, if it has one. -/
def andThen (first : Evaluation) (next : Value → Store → Evaluation) : Evaluation :=
  match first.result with
  | .error _ => first
  | .ok v =>
    let second := next v first.store
    ⟨second.result, second.store, first.journal ++ second.journal⟩

/-- Declares a variable with the display of a value. A variable that exists is left as it is, and
its value is the result. -/
def declare (typeName x : Text) (v : Value) (s : Store) : Evaluation :=
  match s.find? x with
  | some b => ⟨.ok b.value, s, [.redeclared x]⟩
  | none =>
    match s.declare x typeName v.display with
    | .error failure => still s (.error failure)
    | .ok (w, t) => ⟨.ok w, t, [.declared typeName x w.display]⟩

/-- Assigns the display of a value to a variable. -/
def assign (x : Text) (v : Value) (s : Store) : Evaluation :=
  match s.assign x v.display with
  | .error failure => still s (.error failure)
  | .ok (w, t) => ⟨.ok w, t, [.assigned x w.display]⟩

/-- After a failure nothing more is done. -/
theorem andThen_of_error {first : Evaluation} {failure : Failure EvalError}
    (h : first.result = .error failure) (next : Value → Store → Evaluation) :
    first.andThen next = first := by
  simp only [andThen, h]

/-- After a value the second evaluation starts from the store that the first one left. -/
theorem andThen_of_ok {first : Evaluation} {v : Value} (h : first.result = .ok v)
    (next : Value → Store → Evaluation) :
    first.andThen next = ⟨(next v first.store).result, (next v first.store).store,
      first.journal ++ (next v first.store).journal⟩ := by
  simp only [andThen, h]

end Evaluation

/-- The value of a literal. Only integers, strings and truth values have one. -/
def Literal.eval (l : Literal) : Except (Failure EvalError) Value :=
  match l.kind with
  | .int => Store.coerced .int l.text
  | .string => .ok (.str l.text)
  | .boolean => .ok (.bool (l.text = "true"))
  | _ => .error (.error (.unsupportedLiteral l))

/-- The value of an operation. Integers are added and subtracted modulo `2 ^ 32`, texts are
joined. -/
def BinaryOp.apply (op : BinaryOp) (left right : Value) : Except (Failure EvalError) Value :=
  match op, left, right with
  | .add, .int32 a, .int32 b => .ok (.int32 (a + b))
  | .add, .str a, .str b => .ok (.str (a ++ b))
  | .sub, .int32 a, .int32 b => .ok (.int32 (a - b))
  | .add, _, _ => .error (.error (.operandTypes .add left.tag right.tag))
  | .sub, _, _ => .error (.error (.operandTypes .sub left.tag right.tag))
  | op, _, _ => .error (.error (.unsupportedOperator op))

/-- The value of an operand, which is a literal or a variable. -/
def Expr.operand (e : Expr) (s : Store) : Except (Failure EvalError) Value :=
  match e with
  | .literal l => l.eval
  | .name x => s.read x
  | e => .error (.error (.unsupportedOperand e))

/-- Evaluates an expression. -/
def Expr.eval (e : Expr) (s : Store) : Evaluation :=
  match e with
  | .literal l => .still s l.eval
  | .name x => .still s (s.read x)
  | .binary op left right =>
    .still s do
      let a ← left.operand s
      let b ← right.operand s
      op.apply a b
  | .declare typeName x initializer =>
    (initializer.eval s).andThen (Evaluation.declare typeName x)
  | .declareBare typeName x => .refuse s (.missingInitializer typeName x)
  | .assign target op value =>
    if op = .set then
      match target with
      | .name x => (value.eval s).andThen (Evaluation.assign x)
      | target => .refuse s (.invalidTarget target)
    else .refuse s (.unsupportedAssignment op)
  | e => .refuse s (.unsupportedNode (.expr e))

/-- Evaluates a node. Of the statements only an expression with a semicolon has a value. -/
def Node.eval (node : Node) (s : Store) : Evaluation :=
  match node with
  | .expr e => e.eval s
  | .stmt (.expr e) => e.eval s
  | .stmt other => .refuse s (.unsupportedNode (.stmt other))

/-- Evaluates a node and records an error. A fault leaves no record. -/
def Node.evalRecorded (node : Node) (s : Store) : Evaluation :=
  let evaluation := node.eval s
  match evaluation.result with
  | .error (.error e) =>
    { evaluation with
      journal := evaluation.journal ++ [.failed node.label e.kind e.message] }
  | _ => evaluation

end LineShell
