import LineShell.Proofs.Session.Path
import LineShell.Proofs.Tree.Drift
import Mathlib.Data.List.Lattice

/-!
# Lines that mention different variables

A line mentions the names that stand in its node as variables, read, declared or assigned to. It
has to do with no other variable, however it ends:

* **What is read** (`Expr.alike_eval`): on two stores that agree on the names that an expression
  mentions, the expression has the same result, leaves the same records, and leaves stores that
  still agree on these names.
* **What is written** (`Expr.find?_eval`): every other variable is as it was.

Main statement: two lines that mention different names can be run in either order
(`run_comm_of_disjoint`). Each is answered the same way, and the variables are the same at the end;
only the order of those that the lines declare depends on the order of the lines.
-/

namespace LineShell

/-! ## Mentioned names -/

/-- The name of the variable that an expression is or declares, without what stands inside it. -/
def Expr.named? : Expr → Option Text
  | name x | declare _ x _ | declareBare _ x => some x
  | _ => none

/-- The names of the variables in an expression. -/
def Expr.mentioned (e : Expr) : List Text :=
  e.parts.filterMap Expr.named?

/-- The names of the variables in a node. -/
def Node.mentioned : Node → List Text
  | .expr e => e.mentioned
  | .stmt s => s.parts.filterMap Expr.named?

/-- The names of the variables in the node of a line. A line without a node mentions none. -/
def Line.mentioned (line : Text) : List Text :=
  (Line.node? line).elim [] Node.mentioned

namespace Expr

@[simp] lemma mentioned_name (x : Text) : (name x).mentioned = [x] := by
  simp [mentioned, parts, named?]

@[simp] lemma mentioned_binary (op : BinaryOp) (left right : Expr) :
    (binary op left right).mentioned = left.mentioned ++ right.mentioned := by
  unfold mentioned
  rw [parts, List.filterMap_cons_none rfl, List.filterMap_append]

@[simp] lemma mentioned_declare (typeName x : Text) (initializer : Expr) :
    (declare typeName x initializer).mentioned = x :: initializer.mentioned := by
  simp [mentioned, parts, named?]

@[simp] lemma mentioned_assign (target : Expr) (op : AssignOp) (value : Expr) :
    (assign target op value).mentioned = target.mentioned ++ value.mentioned := by
  unfold mentioned
  rw [parts, List.filterMap_cons_none rfl, List.filterMap_append]

end Expr

/-! ## Stores that agree on some names -/

namespace Store

/-- Both stores have the same variables of these names, or none. -/
def AgreeOn (names : List Text) (s t : Store) : Prop :=
  ∀ x ∈ names, s.find? x = t.find? x

variable {names : List Text} {s t : Store} {x : Text}

lemma AgreeOn.read_eq (h : AgreeOn names s t) (hx : x ∈ names) : s.read x = t.read x := by
  unfold read binding
  rw [h x hx]

lemma AgreeOn.push (h : AgreeOn names s t) (b : Binding) : AgreeOn names (s.push b) (t.push b) := by
  intro y hy
  rw [find?_push, find?_push, h y hy]

lemma AgreeOn.set (h : AgreeOn names s t) (x : Text) (v : Value) :
    AgreeOn names (s.set x v) (t.set x v) := by
  intro y hy
  rw [find?_set, find?_set, h y hy]

/-- A declaration fails alike in both stores, or succeeds with the same value. -/
lemma AgreeOn.declare (h : AgreeOn names s t) (hx : x ∈ names) (typeName text : Text) :
    (∃ failure, s.declare x typeName text = .error failure ∧
      t.declare x typeName text = .error failure) ∨
    ∃ v s' t', s.declare x typeName text = .ok (v, s') ∧
      t.declare x typeName text = .ok (v, t') ∧ AgreeOn names s' t' := by
  unfold Store.declare contains
  rw [h x hx]
  by_cases hfree : (t.find? x).isSome = true
  · rw [if_pos hfree, if_pos hfree]
    exact .inl ⟨_, rfl, rfl⟩
  · rw [if_neg hfree, if_neg hfree]
    rcases typeOf typeName with failure | type
    · exact .inl ⟨failure, rfl, rfl⟩
    · rcases hv : coerced type text with failure | v
      · exact .inl ⟨failure, by simp [bind, Except.bind, hv]⟩
      · refine .inr ⟨v, _, _, ?_, ?_, h.push ⟨x, type, v⟩⟩
        · simp [bind, Except.bind, hv]
        · simp [bind, Except.bind, hv]

/-- An assignment fails alike in both stores, or succeeds with the same value. -/
lemma AgreeOn.assign (h : AgreeOn names s t) (hx : x ∈ names) (text : Text) :
    (∃ failure, s.assign x text = .error failure ∧ t.assign x text = .error failure) ∨
    ∃ v s' t', s.assign x text = .ok (v, s') ∧ t.assign x text = .ok (v, t') ∧
      AgreeOn names s' t' := by
  unfold Store.assign binding
  rw [h x hx]
  rcases t.find? x with _ | b
  · exact .inl ⟨_, rfl, rfl⟩
  · rcases hv : coerced b.type text with failure | v
    · exact .inl ⟨failure, by simp [bind, Except.bind, hv]⟩
    · refine .inr ⟨v, _, _, ?_, ?_, h.set x v⟩
      · simp [bind, Except.bind, hv]
      · simp [bind, Except.bind, hv]

lemma find?_push_of_ne {b : Binding} (h : b.name ≠ x) : (s.push b).find? x = s.find? x := by
  rw [find?_push, if_neg h, Option.or_none]

lemma find?_set_of_ne {y : Text} (h : x ≠ y) (v : Value) : (s.set x v).find? y = s.find? y := by
  rw [find?_set]
  rcases hfind : s.find? y with _ | b
  · rfl
  · have hne : b.name ≠ x := by
      rw [name_of_find? hfind]
      exact h.symm
    simp [hne]

end Store

/-! ## Evaluations on such stores -/

namespace Evaluation

/-- Both evaluations have the same result and the same records, and leave stores that agree on some
names. -/
structure Alike (names : List Text) (a b : Evaluation) : Prop where
  /-- The results are the same. -/
  result_eq : a.result = b.result
  /-- The records are the same. -/
  journal_eq : a.journal = b.journal
  /-- The stores agree. -/
  agreeOn : Store.AgreeOn names a.store b.store

variable {names : List Text} {s t : Store} {x : Text}

lemma alike_declare (h : Store.AgreeOn names s t) (hx : x ∈ names) (typeName : Text)
    (v : Value) : Alike names (declare typeName x v s) (declare typeName x v t) := by
  unfold declare
  rw [h x hx]
  rcases t.find? x with _ | b
  · rcases h.declare hx typeName v.display with ⟨failure, hs, ht⟩ | ⟨w, s', t', hs, ht, h'⟩
    · rw [hs, ht]
      exact ⟨rfl, rfl, h⟩
    · rw [hs, ht]
      exact ⟨rfl, rfl, h'⟩
  · exact ⟨rfl, rfl, h⟩

lemma alike_assign (h : Store.AgreeOn names s t) (hx : x ∈ names) (v : Value) :
    Alike names (assign x v s) (assign x v t) := by
  unfold assign
  rcases h.assign hx v.display with ⟨failure, hs, ht⟩ | ⟨w, s', t', hs, ht, h'⟩
  · rw [hs, ht]
    exact ⟨rfl, rfl, h⟩
  · rw [hs, ht]
    exact ⟨rfl, rfl, h'⟩

lemma Alike.andThen {a b : Evaluation} (h : Alike names a b) {next : Value → Store → Evaluation}
    (hnext : ∀ v {s t}, Store.AgreeOn names s t → Alike names (next v s) (next v t)) :
    Alike names (a.andThen next) (b.andThen next) := by
  rcases ha : a.result with failure | v
  · rw [andThen_of_error ha, andThen_of_error (h.result_eq ▸ ha)]
    exact h
  · rw [andThen_of_ok ha, andThen_of_ok (h.result_eq ▸ ha)]
    obtain ⟨hresult, hjournal, hstore⟩ := hnext v h.agreeOn
    exact ⟨hresult, congrArg₂ (· ++ ·) h.journal_eq hjournal, hstore⟩

/-- A declaration leaves all other variables as they are. -/
lemma find?_declare {y : Text} (h : x ≠ y) (typeName : Text) (v : Value) (s : Store) :
    (declare typeName x v s).store.find? y = s.find? y := by
  unfold declare
  rcases s.find? x with _ | b
  · rcases hdeclare : s.declare x typeName v.display with failure | ⟨w, t⟩
    · rfl
    · obtain ⟨-, type, -, -, rfl⟩ := Store.declare_eq_ok_iff.mp hdeclare
      exact Store.find?_push_of_ne h
  · rfl

/-- An assignment leaves all other variables as they are. -/
lemma find?_assign {y : Text} (h : x ≠ y) (v : Value) (s : Store) :
    (assign x v s).store.find? y = s.find? y := by
  unfold assign
  rcases hassign : s.assign x v.display with failure | ⟨w, t⟩
  · rfl
  · obtain ⟨b, -, -, rfl⟩ := Store.assign_eq_ok_iff.mp hassign
    exact Store.find?_set_of_ne h w

lemma find?_andThen {y : Text} {a : Evaluation} {next : Value → Store → Evaluation}
    (ha : a.store.find? y = s.find? y) (hnext : ∀ v t, (next v t).store.find? y = t.find? y) :
    (a.andThen next).store.find? y = s.find? y := by
  rcases hresult : a.result with failure | v
  · rw [andThen_of_error hresult, ha]
  · rw [andThen_of_ok hresult, hnext v a.store, ha]

end Evaluation

namespace Expr

variable {names : List Text} {s t : Store}

lemma operand_eq_of_agreeOn {e : Expr} (h : Store.AgreeOn names s t) (he : e.mentioned ⊆ names) :
    e.operand s = e.operand t := by
  cases e with
  | name x => exact h.read_eq (he (by simp))
  | _ => rfl

/-- An expression is evaluated alike on stores that agree on the names it mentions. -/
lemma alike_eval {e : Expr} (he : e.mentioned ⊆ names) (h : Store.AgreeOn names s t) :
    Evaluation.Alike names (e.eval s) (e.eval t) := by
  induction e using Expr.induction_on_writes with
  | still e hwritten =>
      cases e with
      | name x => exact ⟨h.read_eq (he (by simp)), rfl, h⟩
      | binary op left right =>
          rw [mentioned_binary, List.append_subset] at he
          rw [Expr.eval, Expr.eval, operand_eq_of_agreeOn h he.1, operand_eq_of_agreeOn h he.2]
          exact ⟨rfl, rfl, h⟩
      | declare typeName x initializer => cases hwritten
      | assign target op value =>
          obtain ⟨error, heval⟩ := exists_eval_eq_refuse hwritten
          rw [heval, heval]
          exact ⟨rfl, rfl, h⟩
      | _ => exact ⟨rfl, rfl, h⟩
  | declare typeName x initializer ih =>
      rw [mentioned_declare, List.cons_subset] at he
      rw [eval_declare, eval_declare]
      exact (ih he.2).andThen fun v _ _ h => Evaluation.alike_declare h he.1 typeName v
  | assign x value ih =>
      rw [mentioned_assign, mentioned_name, List.singleton_append, List.cons_subset] at he
      rw [eval_assign, eval_assign]
      exact (ih he.2).andThen fun v _ _ h => Evaluation.alike_assign h he.1 v

/-- An expression leaves the variables that it does not mention as they are. -/
lemma find?_eval {e : Expr} {y : Text} (hy : y ∉ e.mentioned) (s : Store) :
    (e.eval s).store.find? y = s.find? y := by
  induction e using Expr.induction_on_writes with
  | still e hwritten => rw [store_of_written?_eq_none hwritten]
  | declare typeName x initializer ih =>
      rw [mentioned_declare, List.mem_cons, not_or] at hy
      rw [eval_declare]
      exact Evaluation.find?_andThen (ih hy.2)
        (Evaluation.find?_declare (Ne.symm hy.1) typeName)
  | assign x value ih =>
      rw [mentioned_assign, mentioned_name, List.singleton_append, List.mem_cons, not_or] at hy
      rw [eval_assign]
      exact Evaluation.find?_andThen (ih hy.2) (Evaluation.find?_assign (Ne.symm hy.1))

end Expr

namespace Node

variable {names : List Text} {s t : Store}

lemma alike_eval {node : Node} (hnode : node.mentioned ⊆ names) (h : Store.AgreeOn names s t) :
    Evaluation.Alike names (node.eval s) (node.eval t) := by
  cases node with
  | expr e => exact Expr.alike_eval hnode h
  | stmt st =>
      cases st with
      | expr e => exact Expr.alike_eval hnode h
      | _ => exact ⟨rfl, rfl, h⟩

lemma alike_evalRecorded {node : Node} (hnode : node.mentioned ⊆ names)
    (h : Store.AgreeOn names s t) :
    Evaluation.Alike names (node.evalRecorded s) (node.evalRecorded t) := by
  obtain ⟨hresult, hjournal, hstore⟩ := alike_eval hnode h
  unfold evalRecorded
  dsimp only
  rw [hresult]
  split
  · exact ⟨rfl, congrArg (· ++ _) hjournal, hstore⟩
  · exact ⟨hresult, hjournal, hstore⟩

lemma find?_evalRecorded {node : Node} {y : Text} (hy : y ∉ node.mentioned) (s : Store) :
    (node.evalRecorded s).store.find? y = s.find? y := by
  rw [store_evalRecorded]
  cases node with
  | expr e => exact Expr.find?_eval hy s
  | stmt st =>
      cases st with
      | expr e => exact Expr.find?_eval hy s
      | _ => rfl

end Node

/-! ## Lines -/

namespace Session

lemma mentioned_of_node?_eq_some {line : Text} {node : Node} (h : Line.node? line = some node) :
    Line.mentioned line = node.mentioned := by
  unfold Line.mentioned
  rw [h, Option.elim_some]

/-- A line is run alike in sessions that agree on the names it mentions. -/
lemma run_alike {session other : Session} {line : Text}
    (h : Store.AgreeOn (Line.mentioned line) session.store other.store) :
    (session.run line).answer = (other.run line).answer ∧
      (session.run line).journal = (other.run line).journal ∧
      Store.AgreeOn (Line.mentioned line) (session.run line).session.store
        (other.run line).session.store := by
  rcases hnode : Line.node? line with _ | node
  · obtain ⟨answer, journal, -, hrun⟩ := run_of_node?_eq_none hnode
    rw [hrun session, hrun other]
    exact ⟨rfl, rfl, h⟩
  · rw [run_of_node?_eq_some hnode session, run_of_node?_eq_some hnode other]
    rw [mentioned_of_node?_eq_some hnode] at h ⊢
    obtain ⟨hresult, hjournal, hstore⟩ := Node.alike_evalRecorded (List.Subset.refl _) h
    exact ⟨congrArg answerOf hresult, congrArg (_ ++ ·) hjournal, hstore⟩

/-- A line leaves the variables that it does not mention as they are. -/
lemma find?_run (session : Session) {line y : Text} (hy : y ∉ Line.mentioned line) :
    (session.run line).session.store.find? y = session.store.find? y := by
  rcases hnode : Line.node? line with _ | node
  · obtain ⟨answer, journal, -, hrun⟩ := run_of_node?_eq_none hnode
    rw [hrun session]
  · rw [mentioned_of_node?_eq_some hnode] at hy
    rw [run_of_node?_eq_some hnode session]
    exact Node.find?_evalRecorded hy session.store

lemma finished_run (session : Session) (line : Text) :
    (session.run line).session.finished = (Line.isExit line || session.finished) := by
  rcases hnode : Line.node? line with _ | node
  · obtain ⟨answer, journal, -, hrun⟩ := run_of_node?_eq_none hnode
    rw [hrun session]
  · rw [run_of_node?_eq_some hnode session]

/-- Another line that mentions other names changes nothing that a line depends on. -/
lemma agreeOn_run (session : Session) {line other : Text}
    (h : (Line.mentioned line).Disjoint (Line.mentioned other)) :
    Store.AgreeOn (Line.mentioned line) (session.run other).session.store session.store :=
  fun _ hx => session.find?_run fun hother => h hx hother

/-- The names that a line declares, in order. -/
def declaredBy (session : Session) (line : Text) : List Text :=
  ((session.run line).journal.filterMap Record.declaration?).map Prod.fst

lemma names_run_eq (session : Session) (line : Text) :
    (session.run line).session.store.names = session.store.names ++ session.declaredBy line := by
  unfold declaredBy
  rw [Store.names_eq_map_declared, (session.path_run line).declared_eq, List.map_append,
    ← Store.names_eq_map_declared]

/-- What a variable is after two lines that mention different names, if the first of them does not
mention it. -/
lemma find?_run_run (session : Session) {a b : Text} {x : Text}
    (h : (Line.mentioned b).Disjoint (Line.mentioned a)) (hx : x ∉ Line.mentioned a) :
    ((session.run a).session.run b).session.store.find? x
      = (session.run b).session.store.find? x := by
  by_cases hb : x ∈ Line.mentioned b
  · exact (run_alike (session.agreeOn_run h)).2.2 x hb
  · rw [find?_run _ hb, find?_run _ hx, find?_run _ hb]

end Session

/-- **Independent lines commute.** Two lines that mention different names are each answered the same
way in either order. The variables are the same at the end, and so is whether the session was asked
to end; only the names that the two lines declare stand in the order of the lines. -/
theorem run_comm_of_disjoint (session : Session) (a b : Text)
    (h : (Line.mentioned a).Disjoint (Line.mentioned b)) :
    let ab := (session.run a).session.run b
    let ba := (session.run b).session.run a
    (session.run a).answer = ba.answer ∧ ab.answer = (session.run b).answer ∧
      (∀ x, ab.session.store.find? x = ba.session.store.find? x) ∧
      ab.session.finished = ba.session.finished ∧
      ∃ newA newB, ab.session.store.names = session.store.names ++ newA ++ newB ∧
        ba.session.store.names = session.store.names ++ newB ++ newA := by
  intro ab ba
  obtain ⟨hanswerA, hjournalA, -⟩ := Session.run_alike (session.agreeOn_run h)
  obtain ⟨hanswerB, hjournalB, -⟩ := Session.run_alike (session.agreeOn_run h.symm)
  refine ⟨hanswerA.symm, hanswerB, ?_, ?_, session.declaredBy a, session.declaredBy b, ?_, ?_⟩
  · intro x
    by_cases hx : x ∈ Line.mentioned a
    · have hxb : x ∉ Line.mentioned b := fun hb => h hx hb
      have hab : ab.session.store.find? x = (session.run a).session.store.find? x :=
        Session.find?_run _ hxb
      rw [hab]
      exact (session.find?_run_run h hxb).symm
    · have hba : ba.session.store.find? x = (session.run b).session.store.find? x :=
        Session.find?_run _ hx
      rw [hba]
      exact session.find?_run_run h.symm hx
  · simp only [ab, ba, Session.finished_run]
    exact Bool.or_left_comm _ _ _
  · simp only [ab, Session.names_run_eq]
    unfold Session.declaredBy
    rw [hjournalB]
  · simp only [ba, Session.names_run_eq]
    unfold Session.declaredBy
    rw [hjournalA]

/-! ## A failing line and a declaration -/

lemma node?_halfway : Line.node? "a = b = true" =
    some (.stmt (.expr (.assign (.name "a") .set
      (.assign (.name "b") .set (.literal ⟨.boolean, "true"⟩))))) := by
  unfold Line.node?
  rw [if_neg (by decide), parse_halfway]
  rfl

lemma node?_declaration : Line.node? "boolean c = true" =
    some (.stmt (.expr (.declare "boolean" "c" (.literal ⟨.boolean, "true"⟩)))) := by
  have hclosed : Line.closed (Text.trim "boolean c = true") = "boolean c = true;" := by decide
  have hvalue : Scan.Splits "true;" [.literal ⟨.boolean, "true"⟩, .symbol .semicolon] :=
    .lexeme ⟨_, _, 4, rfl, by decide, by decide, rfl, rfl⟩
      (.lexeme ⟨_, _, 1, rfl, by decide, by decide, rfl, rfl⟩ .nil)
  have hset : Scan.Splits "= true;" [.symbol (.assign .set), .literal ⟨.boolean, "true"⟩,
      .symbol .semicolon] :=
    .lexeme ⟨_, _, 1, rfl, by decide, by decide, rfl, rfl⟩ (.spacing (by decide) hvalue)
  have hname : Scan.Splits "c = true;" [.name "c", .symbol (.assign .set),
      .literal ⟨.boolean, "true"⟩, .symbol .semicolon] :=
    .lexeme ⟨_, _, 1, rfl, by decide, by decide, rfl, rfl⟩ (.spacing (by decide) hset)
  have hsource : Stmt.ofSource "boolean c = true;"
      = .ok (.expr (.declare "boolean" "c" (.literal ⟨.boolean, "true"⟩))) := by
    rw [Stmt.ofSource_eq_ok_iff]
    refine ⟨.expr (.declare (.literal _)), ?_⟩
    exact .lexeme ⟨_, _, 7, rfl, by decide, by decide, rfl, rfl⟩ (.spacing (by decide) hname)
  unfold Line.node? Line.parse
  rw [if_neg (by decide), hclosed, hsource]
  rfl

/-- A line that fails halfway and a declaration. The declaration can come first or last. -/
theorem run_comm_of_disjoint_halfway :
    (Line.mentioned "a = b = true").Disjoint (Line.mentioned "boolean c = true") ∧
      ((halfway.run "boolean c = true").session.run "a = b = true").answer
        = .ok (.failed .undefinedVariable "Variable a does not exist") ∧
      ((halfway.run "boolean c = true").session.run "a = b = true").session.store.find? "b"
        = some ⟨"b", .boolean, .bool true⟩ := by
  have hfails : Line.mentioned "a = b = true" = [("a" : Text), "b"] := by
    rw [Line.mentioned, node?_halfway]
    rfl
  have hdeclares : Line.mentioned "boolean c = true" = [("c" : Text)] := by
    rw [Line.mentioned, node?_declaration]
    rfl
  have hdisjoint : (Line.mentioned "a = b = true").Disjoint
      (Line.mentioned "boolean c = true") := by
    rw [hfails, hdeclares, List.disjoint_singleton]
    decide
  obtain ⟨hanswer, -, hfind, -⟩ :=
    run_comm_of_disjoint halfway "a = b = true" "boolean c = true" hdisjoint
  refine ⟨hdisjoint, ?_, ?_⟩
  · rw [← hanswer]
    exact run_halfway.1
  · rw [← hfind, Session.run_of_node?_eq_some node?_declaration, run_halfway.2]
    rfl

end LineShell
