import LineShell.Store
import Mathlib.Data.List.Basic
import Mathlib.Data.List.Induction
import Mathlib.Tactic.Lemma

/-!
# The store is a function of its history

A history lists the operations that were tried on a store, each with the response to it. It says
all that the store knows, without looking into the store:

* **Declarations** (`History.declarations`): the variables, in the order of the declarations that
  succeeded, and their types.
* **Writes** (`History.lastText?`): the value of a variable is what the text of its last successful
  write denotes in its type (`History.bindings`).
* **Responses** (`History.response`): how the next operation ends.

Main statement: whatever is tried on the empty store, the store holds what its history says, and
responds as its history says (`performAll_empty_refines`).
-/

namespace LineShell

namespace Store

/-! ## Operations -/

/-- What can be asked of a store. -/
inductive Operation where
  | declare (x typeName text : Text)
  | assign (x text : Text)
  | read (x : Text)
  | binding (x : Text)
  | snapshot

/-- What a store replies. -/
inductive Reply where
  | value (v : Value)
  | binding (b : Binding)
  | snapshot (entries : List (Text × Text))

/-- A reply, or why there is none. -/
abbrev Response := Except (Failure EvalError) Reply

/-- The response to a write, and the store behind it. A write that fails has no store of its
own. -/
def afterWrite (s : Store) : Except (Failure EvalError) (Value × Store) → Response × Store
  | .ok (v, t) => (.ok (.value v), t)
  | .error failure => (.error failure, s)

/-- The response to an operation, and the store behind it. -/
def perform (s : Store) : Operation → Response × Store
  | .declare x typeName text => s.afterWrite (s.declare x typeName text)
  | .assign x text => s.afterWrite (s.assign x text)
  | .read x => ((s.read x).map .value, s)
  | .binding x => ((s.binding x).map .binding, s)
  | .snapshot => (.ok (.snapshot s.snapshot), s)

/-- The store behind operations. -/
def performAll (s : Store) (ops : List Operation) : Store :=
  ops.foldl (fun t op => (t.perform op).2) s

/-! ## Histories -/

/-- The operations that were tried, each with the response to it, in order. -/
abbrev History := List (Operation × Response)

/-- The history of operations that are tried on a store. -/
def history (s : Store) : List Operation → History
  | [] => []
  | op :: rest => (op, (s.perform op).1) :: history (s.perform op).2 rest

namespace History

/-- The name and the name of the type, if the entry is a declaration that succeeded. -/
def declaration? : Operation × Response → Option (Text × Text)
  | (.declare x typeName _, .ok _) => some (x, typeName)
  | _ => none

/-- The name and the text, if the entry is a write that succeeded. -/
def write? : Operation × Response → Option (Text × Text)
  | (.declare x _ text, .ok _) => some (x, text)
  | (.assign x text, .ok _) => some (x, text)
  | _ => none

/-- The declarations that succeeded, in order. -/
def declarations (h : History) : List (Text × Text) :=
  h.filterMap declaration?

/-- The text of the last successful write to a name. -/
def lastText? (h : History) (x : Text) : Option Text :=
  (h.filterMap write?).reverse.lookup x

/-- The variable of a declaration, with the value that the text of its last write denotes. -/
def binding? (h : History) (declaration : Text × Text) : Option Binding := do
  let type ← VarType.ofName? declaration.2
  let text ← h.lastText? declaration.1
  let v ← (type.tag.coerce text).toOption
  some ⟨declaration.1, type, v⟩

/-- The variables, in the order of their declarations. -/
def bindings (h : History) : List Binding :=
  h.declarations.filterMap h.binding?

/-- The value that a text denotes in the type of a name. -/
def coercion (typeName text : Text) : Response :=
  match VarType.ofName? typeName with
  | none => .error (.error (.unknownType typeName))
  | some type => (coerced type text).map .value

/-- The variable of a name. -/
def find? (h : History) (x : Text) : Option Binding :=
  h.bindings.find? fun b => b.name = x

/-- The response to a look-up of a variable, of which `reply` is wanted. -/
def lookUp (h : History) (x : Text) (reply : Binding → Reply) : Response :=
  match h.find? x with
  | some b => .ok (reply b)
  | none => .error (.error (.undefinedVariable x))

/-- The response to the next operation. -/
def response (h : History) : Operation → Response
  | .declare x typeName text =>
    if x ∈ h.declarations.map Prod.fst then .error (.error (.duplicateName x))
    else coercion typeName text
  | .assign x text =>
    match h.declarations.lookup x with
    | none => .error (.error (.undefinedVariable x))
    | some typeName => coercion typeName text
  | .read x => h.lookUp x fun b => .value b.value
  | .binding x => h.lookUp x .binding
  | .snapshot => .ok (.snapshot (h.bindings.map fun b => (b.name, b.value.display)))

lemma declarations_append_singleton (h : History) (entry : Operation × Response) :
    declarations (h ++ [entry]) = h.declarations ++ (declaration? entry).toList := by
  unfold declarations
  rw [List.filterMap_append]
  rcases hentry : declaration? entry with _ | declaration
  · simp [hentry]
  · simp [hentry]

/-- An entry that writes nothing leaves the last texts as they are. -/
lemma lastText?_append_of_none (h : History) {entry : Operation × Response}
    (hentry : write? entry = none) (x : Text) : lastText? (h ++ [entry]) x = h.lastText? x := by
  unfold lastText?
  rw [List.filterMap_append, List.filterMap_cons_none hentry, List.filterMap_nil, List.append_nil]

/-- A write is the last one to its name, and leaves the last texts of other names as they are. -/
lemma lastText?_append_of_some (h : History) {entry : Operation × Response} {y text : Text}
    (hentry : write? entry = some (y, text)) (x : Text) :
    lastText? (h ++ [entry]) x = if x = y then some text else h.lastText? x := by
  unfold lastText?
  rw [List.filterMap_append, List.filterMap_cons_some hentry, List.filterMap_nil,
    List.reverse_append, List.reverse_singleton, List.singleton_append, List.lookup_cons]
  by_cases hxy : x = y
  · rw [if_pos hxy, beq_iff_eq.mpr hxy]
  · rw [if_neg hxy, beq_false_of_ne hxy]

end History

lemma performAll_append_singleton (s : Store) (ops : List Operation) (op : Operation) :
    s.performAll (ops ++ [op]) = ((s.performAll ops).perform op).2 := by
  unfold performAll
  rw [List.foldl_append]
  rfl

lemma history_append_singleton (s : Store) (ops : List Operation) (op : Operation) :
    s.history (ops ++ [op]) = s.history ops ++ [(op, ((s.performAll ops).perform op).1)] := by
  induction ops generalizing s with
  | nil => rfl
  | cons first rest ih => exact congrArg (_ :: ·) (ih (s.perform first).2)

/-! ## What a store knows -/

/-- The store holds what the history says. -/
structure Refines (s : Store) (h : History) : Prop where
  /-- The variables are the declared ones, in order, with their types. -/
  declared : s.bindings.map (fun b => (b.name, b.type.name)) = h.declarations
  /-- No variable is there twice. -/
  distinct : s.names.Nodup
  /-- A variable has the value that the text of the last write denotes in its type. -/
  current : ∀ b ∈ s.bindings, ∃ text, h.lastText? b.name = some text ∧
    b.type.tag.coerce text = .ok b.value

namespace Refines

variable {s : Store} {h : History}

lemma empty : Refines .empty [] where
  declared := rfl
  distinct := List.nodup_nil
  current := by
    intro b hb
    cases hb

lemma names_eq (hs : Refines s h) : s.names = h.declarations.map Prod.fst := by
  rw [← hs.declared, List.map_map]
  rfl

/-- An entry that neither declares nor writes says nothing new. -/
lemma idle (hs : Refines s h) {entry : Operation × Response}
    (hdeclaration : History.declaration? entry = none) (hwrite : History.write? entry = none) :
    Refines s (h ++ [entry]) where
  declared := by
    rw [History.declarations_append_singleton, hdeclaration, hs.declared]
    simp
  distinct := hs.distinct
  current := by
    intro b hb
    rw [History.lastText?_append_of_none h hwrite]
    exact hs.current b hb

/-- A declaration that succeeds adds its variable to both. -/
lemma declare (hs : Refines s h) {t : Store} {x typeName text : Text} {v : Value}
    (hok : s.declare x typeName text = .ok (v, t)) (reply : Reply) :
    Refines t (h ++ [(.declare x typeName text, .ok reply)]) := by
  obtain ⟨hfree, type, htype, hv, rfl⟩ := declare_eq_ok_iff.mp hok
  refine ⟨?_, ?_, ?_⟩
  · rw [History.declarations_append_singleton, ← hs.declared]
    simp [push, History.declaration?, VarType.name_of_ofName? htype]
  · exact nodup_names_push hs.distinct hfree
  · rw [forall_mem_push]
    constructor
    · intro b hb
      have hne : b.name ≠ x := by
        rintro rfl
        exact find?_eq_none_iff.mp hfree (List.mem_map_of_mem hb)
      rw [History.lastText?_append_of_some h rfl, if_neg hne]
      exact hs.current b hb
    · rw [History.lastText?_append_of_some h rfl, if_pos rfl]
      exact ⟨text, rfl, coerced_eq_ok_iff.mp hv⟩

/-- An assignment that succeeds gives its variable another last text, and the value of it. -/
lemma assign (hs : Refines s h) {t : Store} {x text : Text} {v : Value}
    (hok : s.assign x text = .ok (v, t)) (reply : Reply) :
    Refines t (h ++ [(.assign x text, .ok reply)]) := by
  obtain ⟨old, hfind, hv, rfl⟩ := assign_eq_ok_iff.mp hok
  refine ⟨?_, ?_, ?_⟩
  · rw [History.declarations_append_singleton, ← hs.declared]
    have hsame : ∀ b ∈ s.bindings, ((fun b : Binding => (b.name, b.type.name)) ∘
        fun b => if b.name = x then { b with value := v } else b) b = (b.name, b.type.name) := by
      intro b _
      by_cases hx : b.name = x
      · simp [hx]
      · simp [hx]
    simpa [set, History.declaration?] using hsame
  · rw [names_set]
    exact hs.distinct
  · apply forall_mem_set
    · rintro b hb rfl
      have hfound := find?_of_mem hs.distinct hb
      rw [hfind, Option.some.injEq] at hfound
      subst hfound
      rw [History.lastText?_append_of_some h rfl, if_pos rfl]
      exact ⟨text, rfl, coerced_eq_ok_iff.mp hv⟩
    · intro b hb hne
      rw [History.lastText?_append_of_some h rfl, if_neg hne]
      exact hs.current b hb

/-- One operation: the store behind it holds what the history with it says. -/
lemma perform (hs : Refines s h) (op : Operation) :
    Refines (s.perform op).2 (h ++ [(op, (s.perform op).1)]) := by
  cases op with
  | declare x typeName text =>
      rcases hok : s.declare x typeName text with failure | ⟨v, t⟩
      · simp only [Store.perform, hok, afterWrite]
        exact hs.idle rfl rfl
      · simp only [Store.perform, hok, afterWrite]
        exact hs.declare hok _
  | assign x text =>
      rcases hok : s.assign x text with failure | ⟨v, t⟩
      · simp only [Store.perform, hok, afterWrite]
        exact hs.idle rfl rfl
      · simp only [Store.perform, hok, afterWrite]
        exact hs.assign hok _
  | read x => exact hs.idle rfl rfl
  | binding x => exact hs.idle rfl rfl
  | snapshot => exact hs.idle rfl rfl

/-- The variables are what the history says. -/
lemma bindings_eq (hs : Refines s h) : s.bindings = h.bindings := by
  have hsome : ∀ b ∈ s.bindings, h.binding? (b.name, b.type.name) = some b := by
    intro b hb
    obtain ⟨text, htext, hvalue⟩ := hs.current b hb
    simp [History.binding?, VarType.ofName?_name, htext, hvalue, Except.toOption]
  unfold History.bindings
  rw [← hs.declared, List.filterMap_map]
  calc s.bindings = s.bindings.filterMap some := List.filterMap_some.symm
    _ = s.bindings.filterMap (h.binding? ∘ fun b => (b.name, b.type.name)) :=
      List.filterMap_congr fun b hb => (hsome b hb).symm

/-- The type of a variable is the one of its declaration. -/
lemma lookup_declarations (hs : Refines s h) (x : Text) :
    h.declarations.lookup x = (s.find? x).map fun b => b.type.name := by
  unfold find?
  rw [← hs.declared]
  generalize s.bindings = bs
  induction bs with
  | nil => rfl
  | cons b bs ih =>
      rw [List.map_cons, List.lookup_cons, List.find?_cons, ih]
      by_cases hx : b.name = x
      · simp [hx]
      · rw [beq_false_of_ne fun heq => hx heq.symm, decide_eq_false hx]

lemma response_lookUp (hs : Refines s h) (x : Text) (reply : Binding → Reply) :
    (s.binding x).map reply = h.lookUp x reply := by
  have hfind : s.find? x = h.find? x := by
    unfold Store.find? History.find?
    rw [hs.bindings_eq]
  unfold Store.binding History.lookUp
  rw [hfind]
  rcases h.find? x with _ | b
  · rfl
  · rfl

/-- The store responds as the history says. -/
lemma response_eq (hs : Refines s h) (op : Operation) : (s.perform op).1 = h.response op := by
  cases op with
  | declare x typeName text =>
      have hdeclared : s.contains x = decide (x ∈ h.declarations.map Prod.fst) := by
        rw [← hs.names_eq, Bool.eq_iff_iff, contains_iff, decide_eq_true_iff]
      rw [Store.perform, Store.declare, History.response, History.coercion, typeOf, hdeclared]
      by_cases hx : x ∈ h.declarations.map Prod.fst
      · simp [hx, afterWrite]
      · rcases VarType.ofName? typeName with _ | type
        · simp [hx, bind, Except.bind, afterWrite]
        · rcases hv : coerced type text with failure | v
          · simp [hx, bind, Except.bind, afterWrite, hv, Except.map]
          · simp [hx, bind, Except.bind, afterWrite, hv, Except.map]
  | assign x text =>
      rw [Store.perform, Store.assign, Store.binding, History.response, hs.lookup_declarations x]
      rcases s.find? x with _ | b
      · rfl
      · rcases hv : coerced b.type text with failure | v
        · simp [bind, Except.bind, afterWrite, hv, History.coercion, VarType.ofName?_name,
            Except.map]
        · simp [bind, Except.bind, afterWrite, hv, History.coercion, VarType.ofName?_name,
            Except.map]
  | read x =>
      have hread := hs.response_lookUp x fun b => .value b.value
      rw [History.response, ← hread, Store.perform, Store.read]
      rcases s.binding x with failure | b
      · rfl
      · rfl
  | binding x => exact hs.response_lookUp x .binding
  | snapshot =>
      rw [Store.perform, Store.snapshot, History.response, hs.bindings_eq]

end Refines

/-- Any operations: the store behind them holds what their history says. -/
lemma refines_performAll (ops : List Operation) :
    Refines (empty.performAll ops) (empty.history ops) := by
  induction ops using List.reverseRecOn with
  | nil => exact .empty
  | append_singleton ops op ih =>
      rw [performAll_append_singleton, history_append_singleton]
      exact ih.perform op

/-- An operation that fails leaves the store as it is. -/
lemma perform_of_error {s : Store} {op : Operation} {failure : Failure EvalError}
    (h : (s.perform op).1 = .error failure) : (s.perform op).2 = s := by
  have hwrite : ∀ result, (s.afterWrite result).1 = .error failure →
      (s.afterWrite result).2 = s := by
    rintro (failure' | ⟨v, t⟩) hresult
    · rfl
    · cases hresult
  cases op with
  | declare x typeName text => exact hwrite _ h
  | assign x text => exact hwrite _ h
  | read x => rfl
  | binding x => rfl
  | snapshot => rfl

/-- **The store refines its history.** Whatever is tried on the empty store, the names are those of
the declarations that succeeded, in order and each declared once; a variable has the type of its
declaration and the value that the text of its last successful write denotes in this type; the next
operation ends as the history says, and leaves the store as it is if it fails. -/
theorem performAll_empty_refines (ops : List Operation) :
    (empty.performAll ops).names = (empty.history ops).declarations.map Prod.fst ∧
    (empty.performAll ops).names.Nodup ∧
    (∀ b ∈ (empty.performAll ops).bindings,
      (b.name, b.type.name) ∈ (empty.history ops).declarations ∧
        ∃ text, (empty.history ops).lastText? b.name = some text ∧
          b.type.tag.coerce text = .ok b.value) ∧
    (empty.performAll ops).bindings = (empty.history ops).bindings ∧
    ∀ op, ((empty.performAll ops).perform op).1 = (empty.history ops).response op ∧
      ∀ failure, ((empty.performAll ops).perform op).1 = .error failure →
        ((empty.performAll ops).perform op).2 = empty.performAll ops := by
  have hs := refines_performAll ops
  refine ⟨hs.names_eq, hs.distinct, ?_, hs.bindings_eq, ?_⟩
  · intro b hb
    refine ⟨?_, hs.current b hb⟩
    rw [← hs.declared]
    exact List.mem_map_of_mem hb
  · intro op
    exact ⟨hs.response_eq op, fun failure => perform_of_error⟩

end Store

end LineShell
