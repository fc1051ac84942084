import LineShell.Proofs.Source
import LineShell.Session

/-!
# What a failed line leaves behind

Evaluation writes from the inside out and takes nothing back. A line can therefore fail after
writes nested in it were done, as `a = b = true` does when there is no variable `a`: the value of
`b` has changed (`failed_line_changes_store`). Nothing else can remain. The store behind a failure
is the store before it or the one that a nested write, evaluated by itself, leaves behind
(`failure_keeps_nested_writes`), and a failure without nested writes leaves the store as it is. The
writes nested in a line are assignments, so no failed line changes which variables there are, their
order or their types.
-/

namespace LineShell

/-! ## Nested writes -/

namespace Expr

/-- The expression whose value a declaration or an assignment writes. -/
def written? : Expr → Option Expr
  | declare _ _ initializer => some initializer
  | assign (name _) .set value => some value
  | _ => none

/-- The expression is evaluated inside a write, as what it writes or deeper. -/
inductive NestedIn : Expr → Expr → Prop
  /-- What a write writes is nested in it. -/
  | value {e inner : Expr} (h : e.written? = some inner) : NestedIn inner e
  /-- What is nested in what a write writes is nested in the write. -/
  | deeper {e inner w : Expr} (h : e.written? = some inner) (hw : NestedIn w inner) : NestedIn w e

/-- What a failing evaluation of the expression can make of a store: nothing, or what a write
nested in the expression makes of it when it succeeds. -/
def Remains (e : Expr) (s s' : Store) : Prop :=
  s' = s ∨ ∃ w : Expr, w.NestedIn e ∧ w.written?.isSome = true ∧ (∃ v, (w.eval s).result = .ok v) ∧
    s' = (w.eval s).store

lemma sizeOf_lt_of_written? {e inner : Expr} (h : e.written? = some inner) :
    sizeOf inner < sizeOf e := by
  unfold written? at h
  split at h
  · cases h
    simp only [declare.sizeOf_spec]
    omega
  · cases h
    simp only [assign.sizeOf_spec]
    omega
  · cases h

/-- An expression that writes nothing leaves the store as it is. -/
lemma store_of_written?_eq_none {e : Expr} (h : e.written? = none) (s : Store) :
    (e.eval s).store = s := by
  cases e with
  | declare typeName x initializer => cases h
  | assign target op value =>
      rw [Expr.eval.eq_def]
      dsimp only
      split
      · next hset =>
        subst hset
        split
        · cases h
        · rfl
      · rfl
  | _ => rfl

/-- A write evaluates what it writes and then writes, and a write that fails leaves the store as it
is. -/
lemma eval_of_written? {e inner : Expr} (h : e.written? = some inner) :
    ∃ next : Value → Store → Evaluation, (∀ s, e.eval s = (inner.eval s).andThen next) ∧
      ∀ v s failure, (next v s).result = .error failure → (next v s).store = s := by
  unfold written? at h
  split at h
  · next typeName x initializer =>
    cases h
    refine ⟨Evaluation.declare typeName x, fun s => by rw [Expr.eval], ?_⟩
    intro v s failure hfailed
    unfold Evaluation.declare at hfailed ⊢
    split
    · rfl
    · split
      · rfl
      · simp_all
  · next x value =>
    cases h
    refine ⟨Evaluation.assign x, fun s => by rw [Expr.eval, if_pos rfl], ?_⟩
    intro v s failure hfailed
    unfold Evaluation.assign at hfailed ⊢
    split
    · rfl
    · simp_all
  · cases h

/-- A failing evaluation leaves the store as it was, or as a nested write left it. -/
lemma remains_of_error {e : Expr} {s : Store} {failure : Failure EvalError}
    (h : (e.eval s).result = .error failure) : e.Remains s (e.eval s).store := by
  cases hwritten : e.written? with
  | none => exact .inl (store_of_written?_eq_none hwritten s)
  | some inner =>
      obtain ⟨next, heval, hnext⟩ := eval_of_written? hwritten
      rw [heval] at h ⊢
      cases hinner : (inner.eval s).result with
      | error failure' =>
          -- What is written failed first, so the write was not tried.
          rw [Evaluation.andThen_of_error hinner]
          rcases remains_of_error hinner with hsame | ⟨w, hnested, hwrite, hok, hstore⟩
          · exact .inl hsame
          · exact .inr ⟨w, .deeper hwritten hnested, hwrite, hok, hstore⟩
      | ok v =>
          -- The write itself failed, so the store is what its value left.
          rw [Evaluation.andThen_of_ok hinner] at h ⊢
          have hstore := hnext v (inner.eval s).store failure h
          by_cases hwrite : inner.written?.isSome = true
          · exact .inr ⟨inner, .value hwritten, hwrite, ⟨v, hinner⟩, hstore⟩
          · rw [Option.not_isSome_iff_eq_none] at hwrite
            exact .inl (hstore.trans (store_of_written?_eq_none hwrite s))
termination_by sizeOf e
decreasing_by exact sizeOf_lt_of_written? hwritten

end Expr

/-! ## Declared variables -/

namespace Store

/-- The names and the types of the variables, in the order of their declaration. -/
def declared (s : Store) : List (Text × VarType) :=
  s.bindings.map fun b => (b.name, b.type)

lemma declared_set (s : Store) (x : Text) (v : Value) : (s.set x v).declared = s.declared := by
  unfold declared set
  rw [List.map_map]
  apply List.map_congr_left
  intro b _
  by_cases h : b.name = x
  · simp [h]
  · simp [h]

end Store

/-- A successful assignment sets the value of the variable. -/
lemma Store.eq_set_of_assign {s t : Store} {x text : Text} {v : Value}
    (h : s.assign x text = .ok (v, t)) : t = s.set x v := by
  unfold Store.assign at h
  cases hbinding : s.binding x with
  | error failure =>
      rw [hbinding] at h
      cases h
  | ok b =>
      rw [hbinding] at h
      cases hcoerced : Store.coerced b.type text with
      | error failure => simp [bind, Except.bind, hcoerced] at h
      | ok w =>
          simp only [bind, Except.bind, hcoerced, Except.ok.injEq, Prod.mk.injEq] at h
          obtain ⟨rfl, rfl⟩ := h
          rfl

/-- An assignment changes no variable but its value, whether it fails or not. -/
lemma Evaluation.declared_assign (x : Text) (v : Value) (s : Store) :
    (Evaluation.assign x v s).store.declared = s.declared := by
  unfold Evaluation.assign
  cases hassign : s.assign x v.display with
  | error failure => rfl
  | ok result =>
      obtain ⟨w, t⟩ := result
      rw [Store.eq_set_of_assign hassign]
      exact s.declared_set x w

lemma Evaluation.declared_andThen {s : Store} {first : Evaluation}
    {next : Value → Store → Evaluation} (hfirst : first.store.declared = s.declared)
    (hnext : ∀ v t, (next v t).store.declared = t.declared) :
    (first.andThen next).store.declared = s.declared := by
  cases hresult : first.result with
  | error failure => rw [Evaluation.andThen_of_error hresult, hfirst]
  | ok v => rw [Evaluation.andThen_of_ok hresult, hnext v first.store, hfirst]

/-- No declaration is nested in an expression of the grammar, so it declares nothing. -/
lemma Expr.WellFormed.declared_eval {e : Expr} (he : e.WellFormed) (s : Store) :
    (e.eval s).store.declared = s.declared := by
  induction he with
  | @assign x op value hvalue ih =>
      rw [Expr.eval]
      by_cases hset : op = .set
      · rw [if_pos hset]
        exact Evaluation.declared_andThen ih fun v t => Evaluation.declared_assign x v t
      · rw [if_neg hset]
        rfl
  | _ => rfl

/-- What a write of the grammar writes is an expression of the grammar. -/
lemma Expr.Declarative.wellFormed_of_written? {e inner : Expr} (he : e.Declarative)
    (h : e.written? = some inner) : inner.WellFormed := by
  cases he with
  | expr he =>
      cases he with
      | @assign x op value hvalue =>
          unfold Expr.written? at h
          split at h
          · next heq => cases heq
          · next heq =>
            cases heq
            cases h
            exact hvalue
          · cases h
      | _ => cases h
  | declare hvalue =>
      cases h
      exact hvalue
  | declareBare type x => cases h

lemma Expr.NestedIn.wellFormed {e w : Expr} (h : w.NestedIn e) (he : e.Declarative) :
    w.WellFormed := by
  induction h with
  | value hwritten => exact he.wellFormed_of_written? hwritten
  | deeper hwritten _ ih => exact ih (.expr (he.wellFormed_of_written? hwritten))

/-- What remains of a store has the same variables, if the expression is one of the grammar. -/
lemma Expr.Remains.declared_eq {e : Expr} {s s' : Store} (h : e.Remains s s')
    (he : e.Declarative) : s'.declared = s.declared := by
  rcases h with rfl | ⟨w, hnested, -, -, rfl⟩
  · rfl
  · exact (hnested.wellFormed he).declared_eval s

/-! ## Nodes and lines -/

/-- The expression of a node that has a value. -/
def Node.expr? : Node → Option Expr
  | .expr e => some e
  | .stmt (.expr e) => some e
  | .stmt _ => none

/-- A node without an expression to evaluate is refused. -/
lemma Node.eval_of_expr?_eq_none {node : Node} (h : node.expr? = none) (s : Store) :
    node.eval s = .refuse s (.unsupportedNode node) := by
  unfold Node.expr? at h
  split at h
  · cases h
  · cases h
  · next hne => exact Node.eval.eq_3 s _ hne

lemma Node.eval_of_expr?_eq_some {node : Node} {e : Expr} (h : node.expr? = some e) (s : Store) :
    node.eval s = e.eval s := by
  unfold Node.expr? at h
  split at h
  · cases h
    rfl
  · cases h
    rfl
  · cases h

/-- What a failing evaluation of the node can make of a store. -/
def Node.Remains (node : Node) (s s' : Store) : Prop :=
  s' = s ∨ ∃ e, node.expr? = some e ∧ e.Remains s s'

/-- No write is nested in the node, so that it writes once at most. -/
def Node.Flat (node : Node) : Prop :=
  ∀ e, node.expr? = some e → ∀ w : Expr, w.NestedIn e → w.written? = none

/-- Where no write is nested, nothing remains but the store as it was. -/
lemma Node.Remains.eq_of_flat {node : Node} {s s' : Store} (h : node.Remains s s')
    (hflat : node.Flat) : s' = s := by
  rcases h with hsame | ⟨e, he, hsame | ⟨w, hnested, hwrite, -⟩⟩
  · exact hsame
  · exact hsame
  · rw [hflat e he w hnested] at hwrite
    cases hwrite

lemma Node.result_evalRecorded (node : Node) (s : Store) :
    (node.evalRecorded s).result = (node.eval s).result := by
  unfold Node.evalRecorded
  dsimp only
  split <;> rfl

lemma Node.store_evalRecorded (node : Node) (s : Store) :
    (node.evalRecorded s).store = (node.eval s).store := by
  unfold Node.evalRecorded
  dsimp only
  split <;> rfl

lemma Node.remains_of_error {node : Node} {s : Store} {failure : Failure EvalError}
    (h : (node.evalRecorded s).result = .error failure) :
    node.Remains s (node.evalRecorded s).store := by
  rw [node.result_evalRecorded] at h
  rw [node.store_evalRecorded]
  cases node with
  | expr e => exact .inr ⟨e, rfl, Expr.remains_of_error h⟩
  | stmt st =>
      cases st with
      | expr e => exact .inr ⟨e, rfl, Expr.remains_of_error h⟩
      | _ => exact .inl rfl

/-- The node of a line is a statement of the grammar. -/
lemma Line.exists_wellFormed {line : Text} {node : Node} (h : (Line.parse line).result = .ok node) :
    ∃ st : Stmt, node = .stmt st ∧ st.WellFormed := by
  unfold Line.parse at h
  split at h
  · next st hsource =>
    cases h
    exact ⟨st, rfl, (Stmt.ofSource_eq_ok_iff.mp hsource).1⟩
  · cases h
  · cases hsource : Expr.ofSource line.trim with
    | error failure =>
        rw [hsource] at h
        cases h
    | ok e =>
        rw [hsource] at h
        cases h
        exact ⟨.expr e, rfl, .expr (Expr.ofSource_eq_ok_iff.mp hsource).1⟩

/-- What remains of a store after the node of a line has the same variables. -/
lemma Node.Remains.declared_eq {node : Node} {s s' : Store} {line : Text}
    (h : node.Remains s s') (hparse : (Line.parse line).result = .ok node) :
    s'.declared = s.declared := by
  obtain ⟨st, rfl, hst⟩ := Line.exists_wellFormed hparse
  rcases h with rfl | ⟨e, he, hremains⟩
  · rfl
  · cases hst with
    | expr hdeclarative =>
        cases he
        exact hremains.declared_eq hdeclarative
    | _ => cases he

/-- A line without an ok answer left the store as it was, or had a node whose evaluation failed. -/
lemma Session.run_of_not_ok {session : Session} {line : Text}
    (h : ∀ answer, (session.run line).answer = .ok answer → answer.isOk = false) :
    (session.run line).session.store = session.store ∨
      ∃ node failure, (Line.parse line).result = .ok node ∧
        (node.evalRecorded session.store).result = .error failure ∧
        (session.run line).session.store = (node.evalRecorded session.store).store := by
  unfold Session.run at h ⊢
  split
  · exact .inl rfl
  · split
    · exact .inl rfl
    · next hexit hblank =>
      rw [if_neg hexit, if_neg hblank] at h
      dsimp only at h ⊢
      cases hparse : (Line.parse line).result with
      | error failure =>
          cases failure with
          | fault f => exact .inl rfl
          | error e => exact .inl rfl
      | ok node =>
          simp only [hparse] at h
          cases hresult : (node.evalRecorded session.store).result with
          | error failure => exact .inr ⟨node, failure, rfl, hresult, rfl⟩
          | ok v =>
              have hok := h (.value v.display) (by rw [hresult]; rfl)
              cases hok

/-- **Failures keep nested writes and nothing else.** A failing evaluation of a node leaves the
store as it was or as a write nested in the node left it; so does a line without an ok answer, which
changes no name, no order and no type either. Where no write is nested, and where a line has no
node, the store is as it was. -/
theorem failure_keeps_nested_writes :
    (∀ (node : Node) (s : Store) (failure : Failure EvalError),
      (node.evalRecorded s).result = .error failure →
        node.Remains s (node.evalRecorded s).store ∧
          (node.Flat → (node.evalRecorded s).store = s)) ∧
    ∀ (session : Session) (line : Text),
      (∀ answer, (session.run line).answer = .ok answer → answer.isOk = false) →
        (session.run line).session.store.declared = session.store.declared ∧
          ((session.run line).session.store = session.store ∨
            ∃ node, (Line.parse line).result = .ok node ∧
              node.Remains session.store (session.run line).session.store) ∧
          ((∀ node, (Line.parse line).result = .ok node → node.Flat) →
            (session.run line).session.store = session.store) := by
  constructor
  · intro node s failure h
    have hremains := Node.remains_of_error h
    exact ⟨hremains, hremains.eq_of_flat⟩
  · intro session line h
    rcases Session.run_of_not_ok h with hsame | ⟨node, failure, hparse, hresult, hstore⟩
    · exact ⟨by rw [hsame], .inl hsame, fun _ => hsame⟩
    · rw [hstore]
      have hremains := Node.remains_of_error hresult
      exact ⟨hremains.declared_eq hparse, .inr ⟨node, hparse, hremains⟩,
        fun hflat => hremains.eq_of_flat (hflat node hparse)⟩

/-! ## A line that fails halfway -/

/-- A session with the variable `b` only. -/
def halfway : Session := ⟨⟨[⟨"b", .boolean, .bool false⟩]⟩, false⟩

lemma parse_halfway : (Line.parse "a = b = true").result =
    .ok (.stmt (.expr (.assign (.name "a") .set
      (.assign (.name "b") .set (.literal ⟨.boolean, "true"⟩))))) := by
  have hclosed : Line.closed (Text.trim "a = b = true") = "a = b = true;" := by decide
  have hinner : Scan.Splits "b = true;" [.name "b", .symbol (.assign .set),
      .literal ⟨.boolean, "true"⟩, .symbol .semicolon] := by
    have hvalue : Scan.Splits "true;" [.literal ⟨.boolean, "true"⟩, .symbol .semicolon] :=
      .lexeme ⟨_, _, 4, rfl, by decide, by decide, rfl, rfl⟩
        (.lexeme ⟨_, _, 1, rfl, by decide, by decide, rfl, rfl⟩ .nil)
    have hset : Scan.Splits "= true;" [.symbol (.assign .set), .literal ⟨.boolean, "true"⟩,
        .symbol .semicolon] :=
      .lexeme ⟨_, _, 1, rfl, by decide, by decide, rfl, rfl⟩ (.spacing (by decide) hvalue)
    exact .lexeme ⟨_, _, 1, rfl, by decide, by decide, rfl, rfl⟩ (.spacing (by decide) hset)
  have hset : Scan.Splits "= b = true;" (.symbol (.assign .set) :: [.name "b",
      .symbol (.assign .set), .literal ⟨.boolean, "true"⟩, .symbol .semicolon]) :=
    .lexeme ⟨_, _, 1, rfl, by decide, by decide, rfl, rfl⟩ (.spacing (by decide) hinner)
  have hsource : Stmt.ofSource "a = b = true;" = .ok (.expr (.assign (.name "a") .set
      (.assign (.name "b") .set (.literal ⟨.boolean, "true"⟩)))) := by
    rw [Stmt.ofSource_eq_ok_iff]
    refine ⟨.expr (.expr (.assign (.assign (.literal _)))), ?_⟩
    exact .lexeme ⟨_, _, 1, rfl, by decide, by decide, rfl, rfl⟩ (.spacing (by decide) hset)
  unfold Line.parse
  rw [hclosed, hsource]

lemma run_halfway :
    (halfway.run "a = b = true").answer
      = .ok (.failed .undefinedVariable "Variable a does not exist") ∧
    (halfway.run "a = b = true").session.store = ⟨[⟨"b", .boolean, .bool true⟩]⟩ := by
  have hexit : Line.isExit "a = b = true" = false := by decide
  have hblank : Line.isBlank "a = b = true" = false := by decide
  unfold Session.run
  rw [if_neg (by simp [hexit]), if_neg (by simp [hblank])]
  simp only [parse_halfway]
  exact ⟨rfl, rfl⟩

/-- The line fails because there is no variable `a`, and `b` has a new value all the same. -/
theorem failed_line_changes_store :
    (halfway.run "a = b = true").answer
      = .ok (.failed .undefinedVariable "Variable a does not exist") ∧
    (halfway.run "a = b = true").session.store ≠ halfway.store := by
  refine ⟨run_halfway.1, ?_⟩
  rw [run_halfway.2]
  decide

/-- A line that fails halfway, and a node that no line has: it fails behind a nested declaration. -/
theorem failure_keeps_nested_writes_halfway :
    ((∀ answer, (halfway.run "a = b = true").answer = .ok answer → answer.isOk = false) ∧
      (halfway.run "a = b = true").session.store.declared = halfway.store.declared) ∧
    ((∃ failure, ((Node.expr (.declare "int" "c" (.declare "boolean" "d"
        (.literal ⟨.boolean, "true"⟩)))).evalRecorded .empty).result = .error failure) ∧
      (Node.expr (.declare "int" "c" (.declare "boolean" "d"
        (.literal ⟨.boolean, "true"⟩)))).Remains .empty ⟨[⟨"d", .boolean, .bool true⟩]⟩) := by
  have hfailed : ∀ answer, (halfway.run "a = b = true").answer = .ok answer →
      answer.isOk = false := by
    intro answer hanswer
    rw [run_halfway.1] at hanswer
    cases hanswer
    rfl
  constructor
  · exact ⟨hfailed, (failure_keeps_nested_writes.2 halfway "a = b = true" hfailed).1⟩
  · exact ⟨⟨_, rfl⟩, (failure_keeps_nested_writes.1 _ .empty _ rfl).1⟩

end LineShell
