import LineShell.Proofs.Session.Independence

/-!
# Declarations of variables that exist

The declaration of a variable that exists writes nothing. Its initializer is evaluated all the same,
before the variable is looked up, and may assign to variables: `int x = x = 5` changes `x` and shows
the new value (`redeclaration_changes_variable`). What a declaration of an existing variable does is
therefore what its initializer does (`redeclaration_eq_initializer`). Two frame lemmas say how much
that is: a variable that exists keeps its type, and its value too unless it is assigned to
(`Expr.find?_eval_of_bound`, `Expr.find?_eval_of_not_assigned`), and the whole store stays as it is
unless something is assigned or newly declared (`Expr.store_eval_of_unassigned`).
-/

namespace LineShell

/-! ## What an expression writes to -/

namespace Expr

/-- The variables that evaluation of the expression can assign to. -/
def assignees : Expr → List Text
  | declare _ _ initializer => initializer.assignees
  | assign (name x) .set value => x :: value.assignees
  | _ => []

/-- The variables that evaluation of the expression can declare. -/
def declarees : Expr → List Text
  | declare _ x initializer => x :: initializer.declarees
  | assign (name _) .set value => value.declarees
  | _ => []

@[simp] lemma assignees_declare (typeName x : Text) (initializer : Expr) :
    (declare typeName x initializer).assignees = initializer.assignees := by
  rw [assignees]

@[simp] lemma assignees_assign (x : Text) (value : Expr) :
    (assign (name x) .set value).assignees = x :: value.assignees := by
  rw [assignees]

@[simp] lemma declarees_declare (typeName x : Text) (initializer : Expr) :
    (declare typeName x initializer).declarees = x :: initializer.declarees := by
  rw [declarees]

@[simp] lemma declarees_assign (x : Text) (value : Expr) :
    (assign (name x) .set value).declarees = value.declarees := by
  rw [declarees]

end Expr

/-! ## What becomes of a variable that exists -/

namespace Evaluation

variable {s : Store} {x y : Text} {b : Binding}

/-- A declaration of a variable that exists gives its value and leaves the store as it is. -/
lemma declare_of_bound (h : s.find? x = some b) (typeName : Text) (v : Value) :
    declare typeName x v s = ⟨.ok b.value, s, [.redeclared x]⟩ := by
  simp only [declare, h]

/-- No declaration touches a variable that exists, its own one included. -/
lemma find?_declare_of_bound (h : s.find? y = some b) (typeName x : Text) (v : Value) :
    (declare typeName x v s).store.find? y = some b := by
  by_cases hxy : x = y
  · subst hxy
    rw [declare_of_bound h, h]
  · rw [find?_declare hxy, h]

/-- An assignment can change the value of a variable that exists, and nothing else of it. -/
lemma find?_assign_of_bound (h : s.find? y = some b) (x : Text) (v : Value) :
    ∃ w, (assign x v s).store.find? y = some { b with value := w } := by
  by_cases hxy : x = y
  · subst hxy
    unfold assign
    rcases hassign : s.assign x v.display with failure | ⟨w, t⟩
    · exact ⟨b.value, h⟩
    · obtain ⟨_, -, -, rfl⟩ := Store.assign_eq_ok_iff.mp hassign
      have hname := Store.name_of_find? h
      exact ⟨w, by simp [Store.find?_set, h, hname]⟩
  · exact ⟨b.value, by rw [find?_assign hxy, h]⟩

end Evaluation

namespace Expr

variable {s : Store} {y : Text} {b : Binding}

/-- Evaluation keeps what its declarations and its assignments keep. -/
lemma keeps_eval {p : Store → Prop} {e : Expr} (hs : p s)
    (hdeclare : ∀ x ∈ e.declarees, ∀ typeName v t, p t →
      p (Evaluation.declare typeName x v t).store)
    (hassign : ∀ x ∈ e.assignees, ∀ v t, p t → p (Evaluation.assign x v t).store) :
    p (e.eval s).store := by
  -- A write inside a sequence is done on what the expression in front of it leaves.
  have handThen : ∀ (inner : Expr) (next : Value → Store → Evaluation), p (inner.eval s).store →
      (∀ v t, p t → p (next v t).store) → p ((inner.eval s).andThen next).store := by
    intro inner next hinner hnext
    rcases hresult : (inner.eval s).result with failure | v
    · rw [Evaluation.andThen_of_error hresult]
      exact hinner
    · rw [Evaluation.andThen_of_ok hresult]
      exact hnext v _ hinner
  induction e using Expr.induction_on_writes with
  | still e hwritten =>
      rw [store_of_written?_eq_none hwritten]
      exact hs
  | declare typeName x initializer ih =>
      rw [declarees_declare, List.forall_mem_cons] at hdeclare
      rw [assignees_declare] at hassign
      rw [eval_declare]
      exact handThen initializer _ (ih hdeclare.2 hassign) (hdeclare.1 typeName)
  | assign x value ih =>
      rw [declarees_assign] at hdeclare
      rw [assignees_assign, List.forall_mem_cons] at hassign
      rw [eval_assign]
      exact handThen value _ (ih hdeclare hassign.2) hassign.1

/-- A variable that exists stays and keeps its type. -/
lemma find?_eval_of_bound (e : Expr) (h : s.find? y = some b) :
    ∃ v, (e.eval s).store.find? y = some { b with value := v } := by
  refine keeps_eval (p := fun t => ∃ v, t.find? y = some { b with value := v }) ⟨b.value, h⟩ ?_ ?_
  · rintro x - typeName v t ⟨w, hw⟩
    exact ⟨w, Evaluation.find?_declare_of_bound hw typeName x v⟩
  · rintro x - v t ⟨w, hw⟩
    exact Evaluation.find?_assign_of_bound hw x v

/-- A variable that exists keeps its value too, unless it is assigned to. -/
lemma find?_eval_of_not_assigned {e : Expr} (h : s.find? y = some b) (hy : y ∉ e.assignees) :
    (e.eval s).store.find? y = some b := by
  refine keeps_eval (p := fun t => t.find? y = some b) h ?_ ?_
  · intro x _ typeName v t ht
    exact Evaluation.find?_declare_of_bound ht typeName x v
  · intro x hx v t ht
    have hne : x ≠ y := by
      rintro rfl
      exact hy hx
    rw [Evaluation.find?_assign hne, ht]

/-- The store stays as it is, unless something is assigned to or newly declared. -/
lemma store_eval_of_unassigned {e : Expr} (hassigned : e.assignees = [])
    (hdeclared : ∀ x ∈ e.declarees, x ∈ s.names) : (e.eval s).store = s := by
  refine keeps_eval (p := fun t => t = s) rfl ?_ ?_
  · rintro x hx typeName v t rfl
    rcases hfind : t.find? x with _ | b
    · exact absurd (hdeclared x hx) (Store.find?_eq_none_iff.mp hfind)
    · rw [Evaluation.declare_of_bound hfind]
  · intro x hx
    rw [hassigned] at hx
    cases hx

/-- The value of a declaration of an existing variable is the one that the variable has behind the
initializer. -/
lemma eval_declare_of_bound (h : s.find? y = some b) (typeName : Text) (e : Expr) :
    ((declare typeName y e).eval s).store = (e.eval s).store ∧
      (∀ failure, ((declare typeName y e).eval s).result = .error failure ↔
        (e.eval s).result = .error failure) ∧
      ∀ v, ((declare typeName y e).eval s).result = .ok v ↔
        (∃ w, (e.eval s).result = .ok w) ∧ (e.eval s).store.read y = .ok v := by
  obtain ⟨w, hw⟩ := find?_eval_of_bound e h
  have hread : (e.eval s).store.read y = .ok w := by
    unfold Store.read Store.binding
    rw [hw]
    rfl
  rw [eval_declare]
  rcases hresult : (e.eval s).result with failure | v
  · rw [Evaluation.andThen_of_error hresult, hresult]
    simp
  · rw [Evaluation.andThen_of_ok hresult, Evaluation.declare_of_bound hw, hread]
    simp

end Expr

/-! ## Re-declaration -/

/-- **A declaration of a variable that exists does what its initializer does.** It leaves the store
that the initializer leaves, fails if the initializer does and in the same way, and otherwise gives
the value that the variable has behind the initializer. The variable keeps its type. It keeps its
value, which is then the one shown, unless the initializer assigns to it. And the whole store is as
it was, unless the initializer assigns to some variable or declares a new one. -/
theorem redeclaration_eq_initializer (s : Store) (x typeName : Text) (b : Binding) (e : Expr)
    (node : Node) (hbound : s.find? x = some b)
    (hnode : node.expr? = some (.declare typeName x e)) :
    (node.evalRecorded s).store = ((Node.expr e).evalRecorded s).store ∧
    (∀ failure, (node.evalRecorded s).result = .error failure ↔
      ((Node.expr e).evalRecorded s).result = .error failure) ∧
    (∀ v, (node.evalRecorded s).result = .ok v ↔
      (∃ w, ((Node.expr e).evalRecorded s).result = .ok w) ∧
        ((Node.expr e).evalRecorded s).store.read x = .ok v) ∧
    (∃ v, (node.evalRecorded s).store.find? x = some { b with value := v }) ∧
    (x ∉ e.assignees → (node.evalRecorded s).store.find? x = some b ∧
      ∀ v, (node.evalRecorded s).result = .ok v → v.display = b.value.display) ∧
    (e.assignees = [] → (∀ y ∈ e.declarees, y ∈ s.names) → (node.evalRecorded s).store = s) := by
  have heval := Node.eval_of_expr?_eq_some hnode s
  have hinner : (Node.expr e).eval s = e.eval s := rfl
  simp only [Node.result_evalRecorded, Node.store_evalRecorded, heval, hinner]
  obtain ⟨hstore, herror, hok⟩ := Expr.eval_declare_of_bound hbound typeName e
  refine ⟨hstore, herror, hok, ?_, ?_, ?_⟩
  · rw [hstore]
    exact e.find?_eval_of_bound hbound
  · intro hx
    have hkept := Expr.find?_eval_of_not_assigned hbound hx
    refine ⟨hstore ▸ hkept, ?_⟩
    intro v hv
    have hread := ((hok v).mp hv).2
    unfold Store.read Store.binding at hread
    rw [hkept] at hread
    cases hread
    rfl
  · intro hassigned hdeclared
    rw [hstore]
    exact Expr.store_eval_of_unassigned hassigned hdeclared

/-- A store with the variable `x` only. -/
def single : Store := ⟨[⟨"x", .int, .int32 1⟩]⟩

/-- The declaration `int x = x = 5`. -/
def selfAssigning : Node :=
  .expr (.declare "int" "x" (.assign (.name "x") .set (.literal ⟨.int, "5"⟩)))

/-- A declaration of `x` changes `x` by its initializer, and shows the new value. -/
theorem redeclaration_changes_variable :
    single.find? "x" = some ⟨"x", .int, .int32 1⟩ ∧
      (selfAssigning.evalRecorded single).result.toOption.map Value.display = some "5" ∧
      (selfAssigning.evalRecorded single).store ≠ single := by
  decide +kernel

/-- The same declaration, and one of another type whose initializer assigns to nothing. -/
theorem redeclaration_eq_initializer_single :
    single.find? "x" = some ⟨"x", .int, .int32 1⟩ ∧
      (selfAssigning.evalRecorded single).store = ⟨[⟨"x", .int, .int32 5⟩]⟩ ∧
      ((Node.expr (.declare "String" "x" (.literal ⟨.string, "a"⟩))).evalRecorded single).store
        = single := by
  have hbound : single.find? "x" = some ⟨"x", .int, .int32 1⟩ := by decide
  refine ⟨hbound, ?_, ?_⟩
  · rw [(redeclaration_eq_initializer single "x" "int" _ _ selfAssigning hbound rfl).1]
    decide +kernel
  · exact (redeclaration_eq_initializer single "x" "String" _ _ _ hbound rfl).2.2.2.2.2 rfl
      (by simp [Expr.declarees])

end LineShell
