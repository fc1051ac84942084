import LineShell.Proofs.FailedLine

/-!
# Runs as paths of writes

A store changes by declarations and assignments that succeed, and by nothing else. Each of them
leaves a record. `Store.Step` ties a record to the stores on both sides of it, and `Store.Path` does
so for a list of records.

Main statement: the journal of a run is a path from the store before the run to the store behind
it, for expressions (`Expr.path_eval`), for lines (`Session.path_run`) and for any number of lines
(`Session.path_runAll`). This holds of lines that fail halfway too. What a run can do to a store
therefore follows from what a step can do, as here that variables are added at the end and keep
their types (`Path.declared_eq`).
-/

namespace LineShell

/-! ## Steps and paths -/

/-- The variable that a record declares, with its type. -/
def Record.declaration? : Record → Option (Text × VarType)
  | declared typeName x _ => (VarType.ofName? typeName).map fun type => (x, type)
  | _ => none

namespace Store

/-- A record of a write stands between the stores before and behind the write. Any other record
stands between a store and itself. -/
inductive Step : Store → Record → Store → Prop
  /-- A declaration that succeeds is recorded with the display of its value. -/
  | declare {s t : Store} {x typeName text : Text} {v : Value}
      (h : s.declare x typeName text = .ok (v, t)) : Step s (.declared typeName x v.display) t
  /-- An assignment that succeeds is recorded with the display of its value. -/
  | assign {s t : Store} {x text : Text} {v : Value} (h : s.assign x text = .ok (v, t)) :
      Step s (.assigned x v.display) t
  /-- What another part of the shell records is no write. -/
  | other {s : Store} {r : Record} (h : r.channel ≠ .store) : Step s r s

/-- Records that lead from one store to another, one step after the other. -/
inductive Path : Store → List Record → Store → Prop
  | nil (s : Store) : Path s [] s
  | cons {s t u : Store} {r : Record} {rs : List Record} (hstep : Step s r t)
      (hrest : Path t rs u) : Path s (r :: rs) u

lemma Step.path {s t : Store} {r : Record} (h : Step s r t) : Path s [r] t :=
  .cons h (.nil t)

lemma Path.append {s t u : Store} {rs rs' : List Record} (h : Path s rs t) (h' : Path t rs' u) :
    Path s (rs ++ rs') u := by
  induction h with
  | nil s => exact h'
  | cons hstep _ ih => exact .cons hstep (ih h')

/-- What every step keeps, every path keeps. -/
lemma Path.keeps {p : Store → Prop} (hp : ∀ {s t r}, Step s r t → p s → p t) {s t : Store}
    {rs : List Record} (h : Path s rs t) (hs : p s) : p t := by
  induction h with
  | nil s => exact hs
  | cons hstep _ ih => exact ih (hp hstep hs)

lemma declared_push (s : Store) (b : Binding) :
    (s.push b).declared = s.declared ++ [(b.name, b.type)] := by
  simp [declared, push]

/-- A step adds the variable that its record declares, and changes no other name or type. -/
lemma Step.declared_eq {s t : Store} {r : Record} (h : Step s r t) :
    t.declared = s.declared ++ r.declaration?.toList := by
  cases h with
  | declare hdeclare =>
      obtain ⟨-, type, htype, -, rfl⟩ := declare_eq_ok_iff.mp hdeclare
      simp [declared_push, Record.declaration?, htype]
  | assign hassign =>
      obtain ⟨b, -, -, rfl⟩ := assign_eq_ok_iff.mp hassign
      simp [declared_set, Record.declaration?]
  | other hchannel =>
      have hnone : r.declaration? = none := by
        cases r with
        | declared typeName x display => exact absurd rfl hchannel
        | _ => rfl
      simp [hnone]

/-- A path adds the variables that its records declare, in order, and changes no other name or
type. -/
lemma Path.declared_eq {s t : Store} {rs : List Record} (h : Path s rs t) :
    t.declared = s.declared ++ rs.filterMap Record.declaration? := by
  induction h with
  | nil s => simp
  | @cons s t u r rs hstep _ ih =>
      rw [ih, hstep.declared_eq, List.append_assoc]
      rcases hr : r.declaration? with _ | declaration
      · simp [hr]
      · simp [hr]

lemma names_eq_map_declared (s : Store) : s.names = s.declared.map Prod.fst := by
  simp [names, declared, Function.comp_def]

end Store

open Store (Path)

/-! ## Evaluation -/

namespace Evaluation

lemma path_declare (typeName x : Text) (v : Value) (s : Store) :
    Path s (declare typeName x v s).journal (declare typeName x v s).store := by
  unfold declare
  rcases s.find? x with _ | b
  · rcases hdeclare : s.declare x typeName v.display with failure | ⟨w, t⟩
    · exact .nil s
    · exact (Store.Step.declare hdeclare).path
  · exact (Store.Step.other (by simp [Record.channel])).path

lemma path_assign (x : Text) (v : Value) (s : Store) :
    Path s (assign x v s).journal (assign x v s).store := by
  unfold assign
  rcases hassign : s.assign x v.display with failure | ⟨w, t⟩
  · exact .nil s
  · exact (Store.Step.assign hassign).path

/-- The path of an evaluation is continued by what comes behind it. -/
lemma path_andThen {s : Store} {first : Evaluation} {next : Value → Store → Evaluation}
    (hfirst : Path s first.journal first.store)
    (hnext : ∀ v t, Path t (next v t).journal (next v t).store) :
    Path s (first.andThen next).journal (first.andThen next).store := by
  rcases hresult : first.result with failure | v
  · rw [andThen_of_error hresult]
    exact hfirst
  · rw [andThen_of_ok hresult]
    exact hfirst.append (hnext v first.store)

end Evaluation

/-- Induction along the writes nested in an expression. Evaluation goes into nothing else. -/
@[elab_as_elim]
lemma Expr.induction_on_writes {motive : Expr → Prop}
    (still : ∀ e : Expr, e.written? = none → motive e)
    (declare : ∀ typeName x initializer, motive initializer →
      motive (.declare typeName x initializer))
    (assign : ∀ x value, motive value → motive (.assign (.name x) .set value)) (e : Expr) :
    motive e := by
  rcases hwritten : e.written? with _ | inner
  · exact still e hwritten
  · have ih : motive inner := induction_on_writes still declare assign inner
    unfold written? at hwritten
    split at hwritten
    · cases hwritten
      exact declare _ _ _ ih
    · cases hwritten
      exact assign _ _ ih
    · cases hwritten
termination_by sizeOf e
decreasing_by exact sizeOf_lt_of_written? hwritten

/-- An assignment that writes nothing is refused, in every store for the same reason. -/
lemma Expr.exists_eval_eq_refuse {target value : Expr} {op : AssignOp}
    (h : (assign target op value).written? = none) :
    ∃ error, ∀ s, (assign target op value).eval s = .refuse s error := by
  by_cases hset : op = .set
  · subst hset
    cases target with
    | name x => cases h
    | _ => exact ⟨.invalidTarget _, fun s => rfl⟩
  · refine ⟨.unsupportedAssignment op, ?_⟩
    intro s
    rw [Expr.eval.eq_def]
    exact if_neg hset

/-- An expression that writes nothing leaves no record. -/
lemma Expr.journal_of_written?_eq_none {e : Expr} (h : e.written? = none) (s : Store) :
    (e.eval s).journal = [] := by
  cases e with
  | declare typeName x initializer => cases h
  | assign target op value =>
      obtain ⟨error, heval⟩ := exists_eval_eq_refuse h
      rw [heval]
      rfl
  | _ => rfl

lemma Expr.eval_declare (typeName x : Text) (initializer : Expr) (s : Store) :
    (declare typeName x initializer).eval s
      = (initializer.eval s).andThen (Evaluation.declare typeName x) := by
  rw [Expr.eval]

lemma Expr.eval_assign (x : Text) (value : Expr) (s : Store) :
    (assign (name x) .set value).eval s = (value.eval s).andThen (Evaluation.assign x) := by
  rw [Expr.eval, if_pos rfl]

/-- The journal of an evaluation leads to the store behind it. -/
lemma Expr.path_eval (e : Expr) (s : Store) : Path s (e.eval s).journal (e.eval s).store := by
  induction e using Expr.induction_on_writes with
  | still e h =>
      rw [e.journal_of_written?_eq_none h, e.store_of_written?_eq_none h]
      exact .nil s
  | declare typeName x initializer ih =>
      rw [eval_declare]
      exact Evaluation.path_andThen ih (Evaluation.path_declare typeName x)
  | assign x value ih =>
      rw [eval_assign]
      exact Evaluation.path_andThen ih (Evaluation.path_assign x)

lemma Node.path_eval (node : Node) (s : Store) :
    Path s (node.eval s).journal (node.eval s).store := by
  fun_cases Node.eval node s with
  | case1 e => exact e.path_eval s
  | case2 e => exact e.path_eval s
  | case3 other => exact .nil s

/-- The record of a failure adds no write. -/
lemma Node.path_evalRecorded (node : Node) (s : Store) :
    Path s (node.evalRecorded s).journal (node.evalRecorded s).store := by
  have heval := node.path_eval s
  unfold Node.evalRecorded
  dsimp only
  split
  · exact heval.append (Store.Step.other (by simp [Record.channel])).path
  · exact heval

/-! ## Sessions -/

lemma Line.path_parse (line : Text) (s : Store) : Path s (Line.parse line).journal s := by
  unfold Line.parse
  split
  · exact .nil s
  · exact .nil s
  · exact (Store.Step.other (by simp [Record.channel])).path

/-- The node that is evaluated for a line. A line that asks to end the session, that is blank or
that cannot be parsed has none. -/
def Line.node? (line : Text) : Option Node :=
  if isExit line || isBlank line then none else (parse line).result.toOption

lemma Line.parse_of_node?_eq_some {line : Text} {node : Node} (h : node? line = some node) :
    (parse line).result = .ok node := by
  unfold node? at h
  split at h
  · cases h
  · rcases hparse : (parse line).result with failure | other
    · rw [hparse] at h
      cases h
    · rw [hparse] at h
      cases h
      rfl

namespace Session

/-- A line without a node is answered the same way in every session, and leaves the store as it
is. -/
lemma run_of_node?_eq_none {line : Text} (h : Line.node? line = none) :
    ∃ answer journal, (∀ s, Path s journal s) ∧ ∀ session : Session, session.run line =
      ⟨answer, ⟨session.store, Line.isExit line || session.finished⟩, journal⟩ := by
  by_cases hexit : Line.isExit line = true
  · refine ⟨.ok .exit, [], .nil, ?_⟩
    intro session
    rw [run, if_pos hexit, hexit, Bool.true_or]
  by_cases hblank : Line.isBlank line = true
  · refine ⟨.ok .blank, [], .nil, ?_⟩
    intro session
    rw [run, if_neg hexit, if_pos hblank, Bool.eq_false_iff.mpr hexit, Bool.false_or]
  unfold Line.node? at h
  rw [Bool.eq_false_iff.mpr hexit, Bool.eq_false_iff.mpr hblank] at h
  rcases hparse : (Line.parse line).result with (e | f) | node
  · refine ⟨.ok (.failed .syntactic (Line.errorMessage e)), (Line.parse line).journal,
      Line.path_parse line, ?_⟩
    intro session
    rw [run, if_neg hexit, if_neg hblank, Bool.eq_false_iff.mpr hexit, Bool.false_or]
    simp only [hparse]
  · refine ⟨.error f, (Line.parse line).journal, Line.path_parse line, ?_⟩
    intro session
    rw [run, if_neg hexit, if_neg hblank, Bool.eq_false_iff.mpr hexit, Bool.false_or]
    simp only [hparse]
  · rw [hparse] at h
    cases h

/-- A line with a node is answered by the evaluation of the node. -/
lemma run_of_node?_eq_some {line : Text} {node : Node} (h : Line.node? line = some node)
    (session : Session) :
    session.run line = ⟨answerOf (node.evalRecorded session.store).result,
      ⟨(node.evalRecorded session.store).store, Line.isExit line || session.finished⟩,
      (Line.parse line).journal ++ (node.evalRecorded session.store).journal⟩ := by
  have hparse := Line.parse_of_node?_eq_some h
  unfold Line.node? at h
  rw [Option.ite_none_left_eq_some, Bool.or_eq_true, not_or] at h
  obtain ⟨⟨hexit, hblank⟩, -⟩ := h
  rw [run, if_neg hexit, if_neg hblank, Bool.eq_false_iff.mpr hexit, Bool.false_or]
  simp only [hparse]

/-- The journal of a line leads to the store behind it. -/
lemma path_run (session : Session) (line : Text) :
    Path session.store (session.run line).journal (session.run line).session.store := by
  rcases hnode : Line.node? line with _ | node
  · obtain ⟨answer, journal, hpath, hrun⟩ := run_of_node?_eq_none hnode
    rw [hrun session]
    exact hpath session.store
  · rw [run_of_node?_eq_some hnode session]
    exact (Line.path_parse line session.store).append (node.path_evalRecorded session.store)

/-- The session behind lines that are run one after the other. -/
def after (session : Session) (lines : List Text) : Session :=
  lines.foldl (fun current line => (current.run line).session) session

/-- Every line is run in the session that the lines before it leave. -/
lemma runAll_append_cons (session : Session) (before : List Text) (line : Text)
    (rest : List Text) :
    session.runAll (before ++ line :: rest) = session.runAll before ++
      (session.after before).run line :: ((session.after before).run line).session.runAll rest := by
  induction before generalizing session with
  | nil => rfl
  | cons first before ih => exact congrArg (_ :: ·) (ih (session.run first).session)

/-- The records of a run, in order. -/
def journalOf (session : Session) (lines : List Text) : List Record :=
  (session.runAll lines).flatMap Report.journal

/-- The journal of a run leads to the store behind it. -/
lemma path_runAll (session : Session) (lines : List Text) :
    Path session.store (session.journalOf lines) (session.after lines).store := by
  induction lines generalizing session with
  | nil => exact .nil _
  | cons line rest ih => exact (session.path_run line).append (ih (session.run line).session)

end Session

end LineShell
