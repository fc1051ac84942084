import LineShell.Proofs.Session.Path

/-!
# What can be run

Trees cover more than evaluation runs. The part that runs is said here by rules of its own
(`Expr.Runnable`, `Node.Runnable`): variables, literals of three kinds, sums and differences of two
such operands, and declarations and plain assignments of what runs.

Main statement (`runnable_subset`): only what is runnable has a value, and everything else leaves
the store as it is, however deep the part stands that cannot be run. What is runnable can fail for
four kinds of reason only, which all lie in the store or in the values. No node at all declares a
name twice, because an initializer cannot bind a name between the look-up and the declaration.
-/

namespace LineShell

/-! ## The runnable part -/

/-- The literals that have a value. -/
def Literal.Runnable (l : Literal) : Prop :=
  l.kind = .int ∨ l.kind = .string ∨ l.kind = .boolean

/-- What can stand beside an operator that runs. -/
inductive Expr.Operand : Expr → Prop
  | name (x : Text) : Operand (.name x)
  | literal {l : Literal} (h : l.Runnable) : Operand (.literal l)

/-- The expressions that can be run, one rule for each form. -/
inductive Expr.Runnable : Expr → Prop
  /-- A variable or a literal can. -/
  | operand {e : Expr} (h : e.Operand) : Runnable e
  /-- A sum or a difference of two of them can. -/
  | binary {op : BinaryOp} {left right : Expr} (hop : op = .add ∨ op = .sub)
      (hleft : left.Operand) (hright : right.Operand) : Runnable (.binary op left right)
  /-- A declaration can be run if its initializer can. -/
  | declare {typeName x : Text} {initializer : Expr} (h : initializer.Runnable) :
      Runnable (.declare typeName x initializer)
  /-- A plain assignment to a variable can be run if the value can. -/
  | assign {x : Text} {value : Expr} (h : value.Runnable) : Runnable (.assign (.name x) .set value)

/-- The nodes that can be run: runnable expressions, with a semicolon or without. -/
def Node.Runnable (node : Node) : Prop :=
  ∃ e, node.expr? = some e ∧ e.Runnable

/-! ## Only what is runnable has a value -/

lemma Literal.runnable_of_eval {l : Literal} {v : Value} (h : l.eval = .ok v) : l.Runnable := by
  unfold Literal.eval at h
  split at h
  · next hkind => exact .inl hkind
  · next hkind => exact .inr (.inl hkind)
  · next hkind => exact .inr (.inr hkind)
  · cases h

lemma BinaryOp.eq_of_apply {op : BinaryOp} {left right v : Value}
    (h : op.apply left right = .ok v) : op = .add ∨ op = .sub := by
  unfold BinaryOp.apply at h
  split at h
  all_goals first | exact .inl rfl | exact .inr rfl | cases h

namespace Expr

variable {s : Store}

lemma operand_of_ok {e : Expr} {v : Value} (h : e.operand s = .ok v) : e.Operand := by
  cases e with
  | literal l => exact .literal (Literal.runnable_of_eval h)
  | name x => exact .name x
  | _ => cases h

/-- An expression that has a value is runnable. -/
lemma runnable_of_eval {e : Expr} {v : Value} (h : (e.eval s).result = .ok v) : e.Runnable := by
  induction e using Expr.induction_on_writes generalizing v with
  | still e hwritten =>
      cases e with
      | literal l => exact .operand (.literal (Literal.runnable_of_eval h))
      | name x => exact .operand (.name x)
      | binary op left right =>
          rw [Expr.eval] at h
          rcases hleft : left.operand s with failure | a
          · simp [Evaluation.still, hleft, bind, Except.bind] at h
          rcases hright : right.operand s with failure | b
          · simp [Evaluation.still, hleft, hright, bind, Except.bind] at h
          have happly : op.apply a b = .ok v := by
            simpa [Evaluation.still, hleft, hright, bind, Except.bind] using h
          exact .binary (BinaryOp.eq_of_apply happly) (operand_of_ok hleft) (operand_of_ok hright)
      | declare typeName x initializer => cases hwritten
      | assign target op value =>
          obtain ⟨error, heval⟩ := exists_eval_eq_refuse hwritten
          rw [heval] at h
          cases h
      | _ => cases h
  | declare typeName x initializer ih =>
      rcases hinner : (initializer.eval s).result with failure | w
      · rw [eval_declare, Evaluation.andThen_of_error hinner, hinner] at h
        cases h
      · exact .declare (ih hinner)
  | assign x value ih =>
      rcases hinner : (value.eval s).result with failure | w
      · rw [eval_assign, Evaluation.andThen_of_error hinner, hinner] at h
        cases h
      · exact .assign (ih hinner)

lemma exists_error_of_not_runnable {e : Expr} (h : ¬ e.Runnable) :
    ∃ failure, (e.eval s).result = .error failure := by
  rcases hresult : (e.eval s).result with failure | v
  · exact ⟨failure, rfl⟩
  · exact absurd (runnable_of_eval hresult) h

/-- An expression that is not runnable writes nothing: what stands inside its writes is not
runnable either, and fails before them. -/
lemma store_eval_of_not_runnable {e : Expr} (h : ¬ e.Runnable) : (e.eval s).store = s := by
  induction e using Expr.induction_on_writes with
  | still e hwritten => exact store_of_written?_eq_none hwritten s
  | declare typeName x initializer ih =>
      have hinner : ¬ initializer.Runnable := fun hrun => h (.declare hrun)
      obtain ⟨failure, hfailed⟩ := exists_error_of_not_runnable (s := s) hinner
      rw [eval_declare, Evaluation.andThen_of_error hfailed, ih hinner]
  | assign x value ih =>
      have hinner : ¬ value.Runnable := fun hrun => h (.assign hrun)
      obtain ⟨failure, hfailed⟩ := exists_error_of_not_runnable (s := s) hinner
      rw [eval_assign, Evaluation.andThen_of_error hfailed, ih hinner]

end Expr

/-! ## Kinds of errors -/

/-- If the result is an error, it is of one of these kinds. A fault is no error. -/
def FailsWithin {α : Type} (kinds : ErrorKind → Prop) (result : Except (Failure EvalError) α) :
    Prop :=
  ∀ e, result = .error (.error e) → kinds e.kind

/-- The kinds of errors that a runnable node can end in. -/
def ErrorKind.FromRunning (kind : ErrorKind) : Prop :=
  kind = .coercion ∨ kind = .undefinedVariable ∨ kind = .unknownType ∨
    kind = .unsupportedOperandTypes

/-- The kinds of errors that evaluation can end in at all. -/
def ErrorKind.FromEvaluation (kind : ErrorKind) : Prop :=
  kind ≠ .duplicateName ∧ kind ≠ .syntactic

instance : DecidablePred ErrorKind.FromEvaluation :=
  fun kind => inferInstanceAs (Decidable (kind ≠ .duplicateName ∧ kind ≠ .syntactic))

lemma ErrorKind.FromRunning.fromEvaluation {kind : ErrorKind} (h : kind.FromRunning) :
    kind.FromEvaluation := by
  rcases h with rfl | rfl | rfl | rfl
  all_goals decide

namespace FailsWithin

variable {α β : Type} {kinds kinds' : ErrorKind → Prop}

lemma mono {result : Except (Failure EvalError) α} (h : FailsWithin kinds result)
    (hle : ∀ kind, kinds kind → kinds' kind) : FailsWithin kinds' result :=
  fun e he => hle e.kind (h e he)

lemma ok (a : α) : FailsWithin kinds (.ok a) := by
  intro e he
  cases he

lemma error {e : EvalError} (h : kinds e.kind) :
    FailsWithin kinds (.error (.error e) : Except (Failure EvalError) α) := by
  intro e' he'
  cases he'
  exact h

lemma bind {x : Except (Failure EvalError) α} {f : α → Except (Failure EvalError) β}
    (hx : FailsWithin kinds x) (hf : ∀ a, FailsWithin kinds (f a)) :
    FailsWithin kinds (x >>= f) := by
  rcases x with failure | a
  · intro e he
    cases he
    exact hx e rfl
  · exact hf a

lemma andThen {first : Evaluation} {next : Value → Store → Evaluation}
    (hfirst : FailsWithin kinds first.result) (hnext : ∀ v s, FailsWithin kinds (next v s).result) :
    FailsWithin kinds (first.andThen next).result := by
  rcases hresult : first.result with failure | v
  · rw [Evaluation.andThen_of_error hresult]
    exact hfirst
  · rw [Evaluation.andThen_of_ok hresult]
    exact hnext v first.store

end FailsWithin

/-! ## Errors of what runs -/

namespace Store

lemma failsWithin_coerced (type : VarType) (text : Text) :
    FailsWithin ErrorKind.FromRunning (coerced type text) := by
  unfold coerced
  rcases type.tag.coerce text with (e | f) | v
  · exact .error (.inl rfl)
  · intro e he
    cases he
  · exact .ok v

lemma failsWithin_binding (s : Store) (x : Text) :
    FailsWithin ErrorKind.FromRunning (s.binding x) := by
  unfold binding
  rcases s.find? x with _ | b
  · exact .error (.inr (.inl rfl))
  · exact .ok b

lemma failsWithin_read (s : Store) (x : Text) : FailsWithin ErrorKind.FromRunning (s.read x) := by
  unfold read binding
  rcases s.find? x with _ | b
  · exact .error (.inr (.inl rfl))
  · exact .ok b.value

/-- A declaration of a new name fails for its type or its text, and not for the name. -/
lemma failsWithin_declare {s : Store} {x : Text} (hx : s.find? x = none) (typeName text : Text) :
    FailsWithin ErrorKind.FromRunning (s.declare x typeName text) := by
  unfold declare
  rw [contains_eq_false_iff.mpr hx, if_neg Bool.false_ne_true]
  refine .bind ?_ fun type => .bind (failsWithin_coerced type text) fun _ => .ok _
  unfold typeOf
  rcases VarType.ofName? typeName with _ | type
  · exact .error (.inr (.inr (.inl rfl)))
  · exact .ok type

lemma failsWithin_assign (s : Store) (x text : Text) :
    FailsWithin ErrorKind.FromRunning (s.assign x text) :=
  .bind (s.failsWithin_binding x) fun b => .bind (failsWithin_coerced b.type text) fun _ => .ok _

end Store

namespace Evaluation

lemma failsWithin_declare (typeName x : Text) (v : Value) (s : Store) :
    FailsWithin ErrorKind.FromRunning (declare typeName x v s).result := by
  unfold declare
  rcases hfind : s.find? x with _ | b
  · rcases hdeclare : s.declare x typeName v.display with failure | ⟨w, t⟩
    · intro e he
      cases he
      exact Store.failsWithin_declare hfind typeName v.display e hdeclare
    · exact .ok w
  · exact .ok b.value

lemma failsWithin_assign (x : Text) (v : Value) (s : Store) :
    FailsWithin ErrorKind.FromRunning (assign x v s).result := by
  unfold assign
  rcases hassign : s.assign x v.display with failure | ⟨w, t⟩
  · intro e he
    cases he
    exact s.failsWithin_assign x v.display e hassign
  · exact .ok w

end Evaluation

lemma Literal.failsWithin_eval {l : Literal} (h : l.Runnable) :
    FailsWithin ErrorKind.FromRunning l.eval := by
  unfold Literal.eval
  rcases h with hkind | hkind | hkind
  · rw [hkind]
    exact Store.failsWithin_coerced .int l.text
  · rw [hkind]
    exact .ok _
  · rw [hkind]
    exact .ok _

lemma BinaryOp.failsWithin_apply {op : BinaryOp} (hop : op = .add ∨ op = .sub)
    (left right : Value) : FailsWithin ErrorKind.FromRunning (op.apply left right) := by
  rcases hop with rfl | rfl
  · cases left <;> cases right
    all_goals first | exact .ok _ | exact .error (.inr (.inr (.inr rfl)))
  · cases left <;> cases right
    all_goals first | exact .ok _ | exact .error (.inr (.inr (.inr rfl)))

namespace Expr

lemma Operand.failsWithin {e : Expr} (h : e.Operand) (s : Store) :
    FailsWithin ErrorKind.FromRunning (e.operand s) := by
  cases h with
  | name x => exact s.failsWithin_read x
  | literal hl => exact Literal.failsWithin_eval hl

/-- What is runnable fails because of the store or the values only. -/
lemma Runnable.failsWithin {e : Expr} (h : e.Runnable) (s : Store) :
    FailsWithin ErrorKind.FromRunning (e.eval s).result := by
  induction h with
  | operand h =>
      cases h with
      | name x => exact s.failsWithin_read x
      | literal hl => exact Literal.failsWithin_eval hl
  | binary hop hleft hright =>
      exact .bind (hleft.failsWithin s) fun a =>
        .bind (hright.failsWithin s) fun b => BinaryOp.failsWithin_apply hop a b
  | @declare typeName x initializer _ ih =>
      rw [eval_declare]
      exact .andThen ih (Evaluation.failsWithin_declare typeName x)
  | @assign x value _ ih =>
      rw [eval_assign]
      exact .andThen ih (Evaluation.failsWithin_assign x)

end Expr

/-! ## Errors of all expressions -/

lemma Literal.failsWithin_fromEvaluation (l : Literal) :
    FailsWithin ErrorKind.FromEvaluation l.eval := by
  by_cases h : l.Runnable
  · exact (Literal.failsWithin_eval h).mono fun _ => ErrorKind.FromRunning.fromEvaluation
  · unfold Literal.eval
    split
    · next hkind => exact absurd (.inl hkind) h
    · next hkind => exact absurd (.inr (.inl hkind)) h
    · next hkind => exact absurd (.inr (.inr hkind)) h
    · exact .error (of_decide_eq_true rfl)

lemma BinaryOp.failsWithin_fromEvaluation (op : BinaryOp) (left right : Value) :
    FailsWithin ErrorKind.FromEvaluation (op.apply left right) := by
  unfold BinaryOp.apply
  split
  all_goals first | exact .ok _ | exact .error (of_decide_eq_true rfl)

namespace Expr

lemma failsWithin_operand (e : Expr) (s : Store) :
    FailsWithin ErrorKind.FromEvaluation (e.operand s) := by
  cases e with
  | literal l => exact l.failsWithin_fromEvaluation
  | name x => exact (s.failsWithin_read x).mono fun _ => ErrorKind.FromRunning.fromEvaluation
  | _ => exact .error (of_decide_eq_true rfl)

/-- No expression fails because a name is declared twice. -/
lemma failsWithin_eval (e : Expr) (s : Store) :
    FailsWithin ErrorKind.FromEvaluation (e.eval s).result := by
  induction e using Expr.induction_on_writes with
  | still e hwritten =>
      cases e with
      | literal l => exact l.failsWithin_fromEvaluation
      | name x => exact (s.failsWithin_read x).mono fun _ => ErrorKind.FromRunning.fromEvaluation
      | binary op left right =>
          exact .bind (left.failsWithin_operand s) fun a =>
            .bind (right.failsWithin_operand s) fun b => op.failsWithin_fromEvaluation a b
      | declare typeName x initializer => cases hwritten
      | assign target op value =>
          by_cases hset : op = .set
          · subst hset
            cases target with
            | name x => cases hwritten
            | _ => exact .error (of_decide_eq_true rfl)
          · rw [Expr.eval.eq_def]
            dsimp only
            rw [if_neg hset]
            exact .error (of_decide_eq_true rfl)
      | _ => exact .error (of_decide_eq_true rfl)
  | declare typeName x initializer ih =>
      rw [eval_declare]
      exact .andThen ih fun v s => (Evaluation.failsWithin_declare typeName x v s).mono
        fun _ => ErrorKind.FromRunning.fromEvaluation
  | assign x value ih =>
      rw [eval_assign]
      exact .andThen ih fun v s => (Evaluation.failsWithin_assign x v s).mono
        fun _ => ErrorKind.FromRunning.fromEvaluation

end Expr

/-! ## Nodes -/

/-- **The runnable subset.** In every store a node that is not runnable fails and leaves the store
as it is; a node that is runnable fails with an error of one of four kinds only; and no node fails
with an error of the kinds for a name declared twice or for a text without a tree. -/
theorem runnable_subset (node : Node) (s : Store) :
    (¬ node.Runnable → (∃ failure, (node.evalRecorded s).result = .error failure) ∧
      (node.evalRecorded s).store = s) ∧
    (node.Runnable → ∀ e, (node.evalRecorded s).result = .error (.error e) →
      e.kind = .coercion ∨ e.kind = .undefinedVariable ∨ e.kind = .unknownType ∨
        e.kind = .unsupportedOperandTypes) ∧
    ∀ e, (node.evalRecorded s).result = .error (.error e) →
      e.kind ≠ .duplicateName ∧ e.kind ≠ .syntactic := by
  simp only [Node.result_evalRecorded, Node.store_evalRecorded]
  rcases hexpr : node.expr? with _ | expr
  · rw [Node.eval_of_expr?_eq_none hexpr]
    have hwithin : FailsWithin ErrorKind.FromEvaluation
        (Evaluation.refuse s (.unsupportedNode node)).result := .error (of_decide_eq_true rfl)
    refine ⟨fun _ => ⟨⟨_, rfl⟩, rfl⟩, ?_, hwithin⟩
    rintro ⟨expr, hsome, -⟩
    rw [hexpr] at hsome
    cases hsome
  · rw [Node.eval_of_expr?_eq_some hexpr]
    refine ⟨?_, ?_, expr.failsWithin_eval s⟩
    · intro hnot
      have hexprNot : ¬ expr.Runnable := fun hrun => hnot ⟨expr, hexpr, hrun⟩
      exact ⟨Expr.exists_error_of_not_runnable hexprNot, Expr.store_eval_of_not_runnable hexprNot⟩
    · rintro ⟨other, hother, hrun⟩
      rw [hexpr] at hother
      cases hother
      exact hrun.failsWithin s

/-- The assignment `a = b = (true)`, whose innermost value cannot be run. -/
def buried : Node :=
  .expr (.assign (.name "a") .set
    (.assign (.name "b") .set (.enclosed (.literal ⟨.boolean, "true"⟩))))

/-- What cannot be run leaves `b` as it is, although `b` could be assigned to; and what can be run
fails because there is no variable `a`. -/
theorem runnable_subset_buried :
    (¬ buried.Runnable ∧ (buried.evalRecorded halfway.store).store = halfway.store) ∧
      ∃ e, ((Node.stmt (.expr (.name "a"))).evalRecorded halfway.store).result
        = .error (.error e) ∧ e.kind = .undefinedVariable ∧ e.kind ≠ .duplicateName := by
  have hnot : ¬ buried.Runnable := by
    rintro ⟨e, he, hrun⟩
    cases he
    cases hrun with
    | operand h => cases h
    | assign hrun =>
        cases hrun with
        | operand h => cases h
        | assign hrun =>
            cases hrun with
            | operand h => cases h
  refine ⟨⟨hnot, ((runnable_subset buried halfway.store).1 hnot).2⟩, _, rfl, rfl, ?_⟩
  exact ((runnable_subset (.stmt (.expr (.name "a"))) halfway.store).2.2 _ rfl).1

end LineShell
