import LineShell.Proofs.Session.Path

/-!
# Evaluation in two phases

Evaluation goes down a chain of declarations and assignments and comes back up: on the way down it
refuses what cannot be written, on the way up it writes. Here the two ways are pulled apart.
`Node.inPhases` takes the chain as a list of levels around a leaf. It checks all levels from the
outside in, then gives the leaf its value, and then does the writes from the inside out, each with
the display of what the one before it gave. Only the last phase touches the store.

Main statement: this is what evaluation comes to, in every store (`evalRecorded_eq_inPhases`). The
induction is on the chain; one more level outside is one more write at the end
(`Write.performAll_concat`).
-/

namespace LineShell

/-- What evaluation gives: a value or a failure, and the store afterwards. -/
abbrev Effect := Except (Failure EvalError) Value × Store

/-- What an evaluation gives, without its journal. -/
def Evaluation.effect (evaluation : Evaluation) : Effect :=
  (evaluation.result, evaluation.store)

/-! ## Levels and their leaf -/

/-- A declaration or an assignment without what it writes. -/
inductive Level where
  | declare (typeName x : Text)
  | declareBare (typeName x : Text)
  | assign (target : Expr) (op : AssignOp)

/-- The levels of an expression, the outermost one first. -/
def Expr.levels : Expr → List Level
  | .declare typeName x initializer => .declare typeName x :: initializer.levels
  | .declareBare typeName x => [.declareBare typeName x]
  | .assign target op value => .assign target op :: value.levels
  | _ => []

/-- What stands inside all levels. Inside a declaration without initializer there is nothing; it
stands for its own leaf, and is refused as a level before its leaf is asked for. -/
def Expr.leaf : Expr → Expr
  | .declare _ _ initializer => initializer.leaf
  | .assign _ _ value => value.leaf
  | e => e

/-- The levels of a node. An expression with a semicolon has those of the expression, all other
statements have none. -/
def Node.levels : Node → List Level
  | .expr e => e.levels
  | .stmt (.expr e) => e.levels
  | .stmt _ => []

/-- The leaf of a node. A statement that is no expression is its own leaf. -/
def Node.leaf : Node → Node
  | .expr e => .expr e.leaf
  | .stmt (.expr e) => .expr e.leaf
  | .stmt other => .stmt other

/-! ## The three steps -/

/-- A write that nothing speaks against but the store. -/
inductive Write where
  | declare (typeName x : Text)
  | assign (x : Text)

/-- The write of a level, or why it is refused. An initializer has to be there, the operator has to
be plain and the target a variable. -/
def Level.check : Level → Except EvalError Write
  | .declare typeName x => .ok (.declare typeName x)
  | .declareBare typeName x => .error (.missingInitializer typeName x)
  | .assign target op =>
    if op = .set then
      match target with
      | .name x => .ok (.assign x)
      | target => .error (.invalidTarget target)
    else .error (.unsupportedAssignment op)

/-- The value of a leaf in a store. Literals, variables and operations have one. -/
def Node.leafValue (leaf : Node) (s : Store) : Except (Failure EvalError) Value :=
  match leaf with
  | .expr (.literal l) => l.eval
  | .expr (.name x) => s.read x
  | .expr (.binary op left right) => do
    let a ← left.operand s
    let b ← right.operand s
    op.apply a b
  | other => .error (.error (.unsupportedNode other))

namespace Write

/-- Does a write with a text. The declaration of a variable that exists writes nothing and gives
the value of the variable. -/
def perform (s : Store) (text : Text) : Write → Except (Failure EvalError) (Value × Store)
  | declare typeName x =>
    match s.find? x with
    | some b => .ok (b.value, s)
    | none => s.declare x typeName text
  | assign x => s.assign x text

/-- Does writes in order, each with the display of the value before it, and stops at the first one
that fails. Those done before it stay. -/
def performAll : List Write → Value → Store → Effect
  | [], v, s => (.ok v, s)
  | w :: rest, v, s =>
    match w.perform s v.display with
    | .error failure => (.error failure, s)
    | .ok (v', s') => performAll rest v' s'

end Write

/-- Evaluation in two phases: checks from the outside in, then the leaf, then writes from the
inside out. -/
def Node.inPhases (node : Node) (s : Store) : Effect :=
  match node.levels.mapM Level.check with
  | .error refusal => (.error (.error refusal), s)
  | .ok writes =>
    match node.leaf.leafValue s with
    | .error failure => (.error failure, s)
    | .ok v => Write.performAll writes.reverse v s

/-! ## One more level -/

/-- Goes on with the value of an effect, if it has one. -/
def Effect.andThen (first : Effect) (next : Value → Store → Effect) : Effect :=
  match first with
  | (.error failure, s) => (.error failure, s)
  | (.ok v, s) => next v s

namespace Write

/-- The effect of a single write. -/
def effect (w : Write) (v : Value) (s : Store) : Effect :=
  performAll [w] v s

/-- A write at the end works on what those before it leave. -/
lemma performAll_concat (ws : List Write) (w : Write) (v : Value) (s : Store) :
    performAll (ws ++ [w]) v s = Effect.andThen (performAll ws v s) w.effect := by
  induction ws generalizing v s with
  | nil => rfl
  | cons first rest ih =>
      rw [List.cons_append, performAll, performAll]
      rcases first.perform s v.display with failure | ⟨v', s'⟩
      · rfl
      · exact ih v' s'

lemma effect_declare (typeName x : Text) (v : Value) (s : Store) :
    (declare typeName x).effect v s = (Evaluation.declare typeName x v s).effect := by
  unfold Evaluation.declare
  simp only [effect, performAll, perform]
  rcases s.find? x with _ | b
  · rcases s.declare x typeName v.display with failure | ⟨w, t⟩
    · rfl
    · rfl
  · rfl

lemma effect_assign (x : Text) (v : Value) (s : Store) :
    (assign x).effect v s = (Evaluation.assign x v s).effect := by
  unfold Evaluation.assign
  simp only [effect, performAll, perform]
  rcases s.assign x v.display with failure | ⟨w, t⟩
  · rfl
  · rfl

end Write

namespace Node

/-- A refused level stops all that is inside it. -/
lemma inPhases_of_refused {node : Node} {level : Level} {levels : List Level} {refusal : EvalError}
    (hlevels : node.levels = level :: levels) (hcheck : level.check = .error refusal)
    (s : Store) : node.inPhases s = (.error (.error refusal), s) := by
  unfold inPhases
  rw [hlevels, List.mapM_cons, hcheck]
  rfl

/-- A level that passes its check adds its write behind all that is inside it. -/
lemma inPhases_of_level {node inner : Node} {level : Level} {w : Write}
    (hlevels : node.levels = level :: inner.levels) (hleaf : node.leaf = inner.leaf)
    (hcheck : level.check = .ok w) (s : Store) :
    node.inPhases s = Effect.andThen (inner.inPhases s) w.effect := by
  unfold inPhases
  rw [hlevels, hleaf, List.mapM_cons, hcheck]
  rcases inner.levels.mapM Level.check with refusal | writes
  · rfl
  · rcases inner.leaf.leafValue s with failure | v
    · rfl
    · have hconcat := Write.performAll_concat writes.reverse w v s
      rw [← List.reverse_cons] at hconcat
      exact hconcat

/-- Without levels only the leaf is evaluated. -/
lemma inPhases_of_leaf {node : Node} (hlevels : node.levels = []) (s : Store) :
    node.inPhases s = (node.leaf.leafValue s, s) := by
  unfold inPhases
  rw [hlevels]
  rcases node.leaf.leafValue s with failure | v
  · rfl
  · rfl

end Node

/-! ## Evaluation -/

namespace Evaluation

lemma effect_andThen (first : Evaluation) {next : Value → Store → Evaluation} {w : Write}
    (hnext : ∀ v s, w.effect v s = (next v s).effect) :
    (first.andThen next).effect = Effect.andThen first.effect w.effect := by
  rcases hresult : first.result with failure | v
  · rw [andThen_of_error hresult, effect, hresult]
    rfl
  · rw [andThen_of_ok hresult]
    simp only [effect, hresult]
    exact (hnext v first.store).symm

end Evaluation

/-- Evaluation of an expression is evaluation in two phases. -/
lemma Expr.effect_eval (e : Expr) (s : Store) : (e.eval s).effect = (Node.expr e).inPhases s := by
  induction e using Expr.induction_on_writes with
  | still e h =>
      cases e with
      | declare typeName x initializer => cases h
      | declareBare typeName x =>
          rw [Node.inPhases_of_refused rfl rfl]
          rfl
      | assign target op value =>
          by_cases hset : op = .set
          · subst hset
            cases target with
            | name x => cases h
            | _ =>
                rw [Node.inPhases_of_refused rfl rfl]
                rfl
          · have hcheck : (Level.assign target op).check = .error (.unsupportedAssignment op) :=
              if_neg hset
            rw [Node.inPhases_of_refused rfl hcheck, Expr.eval.eq_def]
            dsimp only
            rw [if_neg hset]
            rfl
      | _ =>
          rw [Node.inPhases_of_leaf rfl]
          rfl
  | declare typeName x initializer ih =>
      have hinner : (Node.expr (.declare typeName x initializer)).levels
          = .declare typeName x :: (Node.expr initializer).levels := by
        rw [Node.levels, Expr.levels]
        rfl
      have hleaf : (Node.expr (.declare typeName x initializer)).leaf
          = (Node.expr initializer).leaf := by
        rw [Node.leaf, Expr.leaf]
        rfl
      rw [eval_declare, Node.inPhases_of_level hinner hleaf rfl,
        Evaluation.effect_andThen _ (Write.effect_declare typeName x), ih]
  | assign x value ih =>
      have hinner : (Node.expr (.assign (.name x) .set value)).levels
          = .assign (.name x) .set :: (Node.expr value).levels := by
        rw [Node.levels, Expr.levels]
        rfl
      have hleaf : (Node.expr (.assign (.name x) .set value)).leaf = (Node.expr value).leaf := by
        rw [Node.leaf, Expr.leaf]
        rfl
      rw [eval_assign, Node.inPhases_of_level hinner hleaf rfl,
        Evaluation.effect_andThen _ (Write.effect_assign x), ih]

/-- **Evaluation works in two phases.** For every node and every store it comes to the same value or
failure, and leaves the same store, as checking the levels of the node from the outside in,
evaluating its leaf in the store at the start, and doing the writes of the levels from the inside
out. -/
theorem evalRecorded_eq_inPhases (node : Node) (s : Store) :
    (node.evalRecorded s).effect = node.inPhases s := by
  rw [Evaluation.effect, node.result_evalRecorded s, node.store_evalRecorded s]
  cases node with
  | expr e => exact e.effect_eval s
  | stmt statement =>
      cases statement with
      | expr e => exact e.effect_eval s
      | _ =>
          rw [Node.inPhases_of_leaf rfl]
          rfl

end LineShell
