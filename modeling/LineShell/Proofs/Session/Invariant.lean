import LineShell.Proofs.Binary.Rounding
import LineShell.Proofs.Session.Path

/-!
# What holds of the store after every line

* **Consistency** (`Store.Consistent`): no name is there twice, and every value is of the kind of
  its variable's type and in the range of this kind. Every write keeps this
  (`Step.consistent`), so every run does.
* **Growth** (`Session.names_run`): a line adds one variable at most. It does so at the end, and
  only if it is a declaration of this variable that succeeds. Types do not change.

Main statement: both hold after every line of every run of a new session
(`store_after_every_line`). Lines that fail, that end in a fault or that come behind the end of the
session are no exception.
-/

namespace LineShell

/-- The value is in the range of its kind. A number of type `float` is kept as a `double` that
holds it exactly. -/
def Value.InDomain : Value → Prop
  | int32 n => -2147483648 ≤ n.toInt ∧ n.toInt ≤ 2147483647
  | int64 n => -9223372036854775808 ≤ n.toInt ∧ n.toInt ≤ 9223372036854775807
  | float32 x => (x.convert Format.double).convert Format.single = x
  | bool _ | float64 _ | str _ => True

lemma Value.inDomain (v : Value) : v.InDomain := by
  cases v with
  | int32 n => exact ⟨n.le_toInt, Int.le_of_lt_add_one n.toInt_lt⟩
  | int64 n => exact ⟨n.le_toInt, Int.le_of_lt_add_one n.toInt_lt⟩
  | float32 x => exact Binary.convert_convert Format.single_fitsIn_double x
  | _ => trivial

/-! ## Consistency -/

namespace Store

/-- Names are unique, and values keep to the types of their variables. -/
structure Consistent (s : Store) : Prop where
  /-- No name is there twice. -/
  distinct : s.names.Nodup
  /-- Every value is of the kind of its variable and in the range of this kind. -/
  typed : ∀ b ∈ s.bindings, b.value.tag = b.type.tag ∧ b.value.InDomain

lemma consistent_empty : empty.Consistent := by
  refine ⟨List.nodup_nil, ?_⟩
  intro b hb
  cases hb

/-- Every write keeps a store consistent. -/
lemma Step.consistent {s t : Store} {r : Record} (h : Step s r t) (hs : s.Consistent) :
    t.Consistent := by
  cases h with
  | declare hdeclare =>
      obtain ⟨hfree, type, -, hv, rfl⟩ := declare_eq_ok_iff.mp hdeclare
      refine ⟨nodup_names_push hs.distinct hfree, ?_⟩
      rw [forall_mem_push]
      exact ⟨hs.typed, tag_of_coerced hv, Value.inDomain _⟩
  | assign hassign =>
      obtain ⟨old, hfind, hv, rfl⟩ := assign_eq_ok_iff.mp hassign
      refine ⟨?_, ?_⟩
      · rw [names_set]
        exact hs.distinct
      · apply forall_mem_set
        · rintro b hb rfl
          have hfound := find?_of_mem hs.distinct hb
          rw [hfind, Option.some.injEq] at hfound
          subst hfound
          exact ⟨tag_of_coerced hv, Value.inDomain _⟩
        · intro b hb _
          exact hs.typed b hb
  | other _ => exact hs

end Store

lemma Session.consistent_after (lines : List Text) :
    (Session.new.after lines).store.Consistent :=
  (Session.new.path_runAll lines).keeps Store.Step.consistent Store.consistent_empty

/-! ## Growth -/

/-- A declaration or assignment of the grammar, or any other expression of it, adds no name, or is
a declaration that succeeds and adds its name. -/
lemma Expr.Declarative.names_eval {e : Expr} (he : e.Declarative) (s : Store) :
    (e.eval s).store.names = s.names ∨
      ∃ typeName x initializer v, e = .declare typeName x initializer ∧
        (e.eval s).result = .ok v ∧ (e.eval s).store.names = s.names ++ [x] := by
  have hkept : ∀ {t : Store}, t.declared = s.declared → t.names = s.names := by
    intro t ht
    rw [t.names_eq_map_declared, ht, s.names_eq_map_declared]
  cases he with
  | expr he => exact .inl (hkept (he.declared_eval s))
  | @declare typeName x initializer hinitializer =>
      -- The initializer is no declaration, so only the declaration itself can add a name.
      have hnames := hkept (hinitializer.declared_eval s)
      rw [Expr.eval]
      rcases hresult : (initializer.eval s).result with failure | v
      · rw [Evaluation.andThen_of_error hresult]
        exact .inl hnames
      · rw [Evaluation.andThen_of_ok hresult, Evaluation.declare]
        rcases (initializer.eval s).store.find? x with _ | b
        · rcases hdeclare : (initializer.eval s).store.declare x typeName v.display with
            failure | ⟨w, t⟩
          · exact .inl hnames
          · obtain ⟨-, type, -, -, rfl⟩ := Store.declare_eq_ok_iff.mp hdeclare
            refine .inr ⟨typeName, x, initializer, w, rfl, rfl, ?_⟩
            simp only [Store.names_push, hnames]
        · exact .inl hnames
  | declareBare typeName x => exact .inl rfl

/-- A line adds no name, or is a declaration that succeeds and adds its name at the end. -/
lemma Session.names_run (session : Session) (line : Text) :
    (session.run line).session.store.names = session.store.names ∨
      ∃ typeName x initializer display,
        (Line.parse line).result = .ok (.stmt (.expr (.declare typeName x initializer))) ∧
        (session.run line).answer = .ok (.value display) ∧
        (session.run line).session.store.names = session.store.names ++ [x] := by
  rcases hnode : Line.node? line with _ | node
  · obtain ⟨answer, journal, -, hrun⟩ := run_of_node?_eq_none hnode
    rw [hrun session]
    exact .inl rfl
  · have hparse := Line.parse_of_node?_eq_some hnode
    obtain ⟨st, rfl, hst⟩ := Line.exists_wellFormed hparse
    rw [run_of_node?_eq_some hnode session, Node.store_evalRecorded, Node.result_evalRecorded]
    cases hst with
    | @expr e he =>
        rcases he.names_eval session.store with hsame | ⟨typeName, x, initializer, v, rfl, hv, hx⟩
        · exact .inl hsame
        · refine .inr ⟨typeName, x, initializer, v.display, hparse, ?_, hx⟩
          exact congrArg answerOf hv
    | _ => exact .inl rfl

/-- **The store of a session.** After every line of a run of a new session, no name is there twice;
the names are those before the line, or one more that stands at the end and that the line, a
declaration of it, has declared with success; the variables before the line have kept their types;
and every value is of the kind of its variable's type and in the range of this kind. -/
theorem store_after_every_line (before : List Text) (line : Text) (rest : List Text) :
    let session := Session.new.after before
    let report := session.run line
    Session.new.runAll (before ++ line :: rest)
        = Session.new.runAll before ++ report :: report.session.runAll rest ∧
      report.session.store.names.Nodup ∧
      (report.session.store.names = session.store.names ∨
        ∃ typeName x initializer display,
          (Line.parse line).result = .ok (.stmt (.expr (.declare typeName x initializer))) ∧
          report.answer = .ok (.value display) ∧
          report.session.store.names = session.store.names ++ [x]) ∧
      session.store.declared <+: report.session.store.declared ∧
      ∀ b ∈ report.session.store.bindings, b.value.tag = b.type.tag ∧ b.value.InDomain := by
  intro session report
  have hpath := session.path_run line
  have hconsistent : report.session.store.Consistent :=
    hpath.keeps Store.Step.consistent (Session.consistent_after before)
  refine ⟨Session.runAll_append_cons .new before line rest, hconsistent.distinct,
    session.names_run line, ?_, hconsistent.typed⟩
  rw [hpath.declared_eq]
  exact List.prefix_append _ _

end LineShell
