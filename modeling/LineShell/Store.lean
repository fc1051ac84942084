import LineShell.Error

/-!
# The store of variables

Variables are kept in the order of their declaration. A write is given as text and coerced to the
type of the variable; a write that fails gives no new store. Of several reasons to refuse a
declaration the first counts: the name is taken, the type is unknown, the text does not fit.
Main statements: when a write succeeds, and with which store (`declare_eq_ok_iff`,
`assign_eq_ok_iff`).
-/

namespace LineShell

/-- A variable: its name, its declared type and its value. -/
structure Binding where
  /-- The name of the variable. -/
  name : Text
  /-- The type it was declared with. -/
  type : VarType
  /-- The value it holds. -/
  value : Value
deriving DecidableEq

/-- The variables of a session in the order of their declaration. -/
structure Store where
  /-- The variables. -/
  bindings : List Binding
deriving DecidableEq

namespace Store

/-- The store without variables. -/
def empty : Store := ⟨[]⟩

/-- The names of the variables. -/
def names (s : Store) : List Text :=
  s.bindings.map Binding.name

/-- The variable of a name. -/
def find? (s : Store) (x : Text) : Option Binding :=
  s.bindings.find? fun b => b.name = x

/-- Whether there is a variable of a name. -/
def contains (s : Store) (x : Text) : Bool :=
  (s.find? x).isSome

/-- The number of variables. -/
def size (s : Store) : Nat :=
  s.bindings.length

/-- The variable of a name, which has to exist. -/
def binding (s : Store) (x : Text) : Except (Failure EvalError) Binding :=
  match s.find? x with
  | some b => .ok b
  | none => .error (.error (.undefinedVariable x))

/-- The value of a variable. -/
def read (s : Store) (x : Text) : Except (Failure EvalError) Value :=
  (s.binding x).map Binding.value

/-- The name and the text of the value of every variable. -/
def snapshot (s : Store) : List (Text × Text) :=
  s.bindings.map fun b => (b.name, b.value.display)

/-- The store with another value for a variable. -/
def set (s : Store) (x : Text) (v : Value) : Store :=
  ⟨s.bindings.map fun b => if b.name = x then { b with value := v } else b⟩

/-- The store with one more variable. -/
def push (s : Store) (b : Binding) : Store :=
  ⟨s.bindings ++ [b]⟩

/-- The type of a name, which has to exist. -/
def typeOf (name : Text) : Except (Failure EvalError) VarType :=
  match VarType.ofName? name with
  | some type => .ok type
  | none => .error (.error (.unknownType name))

/-- The value of a type that a text denotes. -/
def coerced (type : VarType) (text : Text) : Except (Failure EvalError) Value :=
  match type.tag.coerce text with
  | .ok v => .ok v
  | .error failure => .error (failure.map .coercion)

/-- Declares a variable. Gives its value and the new store. -/
def declare (s : Store) (x typeName text : Text) :
    Except (Failure EvalError) (Value × Store) :=
  if s.contains x then .error (.error (.duplicateName x))
  else do
    let type ← typeOf typeName
    let v ← coerced type text
    .ok (v, s.push ⟨x, type, v⟩)

/-- Assigns to a variable. Gives its value and the new store. -/
def assign (s : Store) (x text : Text) : Except (Failure EvalError) (Value × Store) := do
  let b ← s.binding x
  let v ← coerced b.type text
  .ok (v, s.set x v)

@[simp] theorem names_push (s : Store) (b : Binding) : (s.push b).names = s.names ++ [b.name] := by
  simp [push, names]

@[simp] theorem names_set (s : Store) (x : Text) (v : Value) : (s.set x v).names = s.names := by
  simp only [set, names, List.map_map]
  apply List.map_congr_left
  intro b _
  simp only [Function.comp_apply]
  split <;> rfl

theorem name_of_find? {s : Store} {x : Text} {b : Binding} (h : s.find? x = some b) :
    b.name = x := by
  have := List.find?_some h
  simpa using this

/-- A new variable is found behind all others. -/
theorem find?_push (s : Store) (b : Binding) (x : Text) :
    (s.push b).find? x = (s.find? x).or (if b.name = x then some b else none) := by
  simp only [push, find?, List.find?_append, List.find?_singleton, decide_eq_true_eq]

/-- Another value for `x` changes what is found for `x` and nothing else. -/
theorem find?_set (s : Store) (x y : Text) (v : Value) :
    (s.set x v).find? y =
      (s.find? y).map fun b => if b.name = x then { b with value := v } else b := by
  have hname : ∀ b : Binding, (if b.name = x then { b with value := v } else b).name = b.name :=
    fun b => by split <;> rfl
  simp only [set, find?, List.find?_map]
  congr 2
  funext b
  simp only [Function.comp_apply, hname]

theorem contains_iff {s : Store} {x : Text} : s.contains x = true ↔ x ∈ s.names := by
  simp [contains, find?, names]

theorem contains_eq_false_iff {s : Store} {x : Text} :
    s.contains x = false ↔ s.find? x = none := by
  simp [contains]

theorem find?_eq_none_iff {s : Store} {x : Text} : s.find? x = none ↔ x ∉ s.names := by
  rw [← contains_eq_false_iff, ← contains_iff, Bool.not_eq_true]

/-- A store without repetition has none with a new variable. -/
theorem nodup_names_push {s : Store} {b : Binding} (h : s.names.Nodup)
    (hb : s.find? b.name = none) : (s.push b).names.Nodup := by
  rw [names_push, List.nodup_append]
  refine ⟨h, by simp, ?_⟩
  intro x hx y hy heq
  rw [heq, List.mem_singleton.mp hy] at hx
  exact find?_eq_none_iff.mp hb hx

/-- In a store without repetition a variable is found where it stands. -/
theorem find?_of_mem {s : Store} (h : s.names.Nodup) {b : Binding} (hb : b ∈ s.bindings) :
    s.find? b.name = some b := by
  unfold find?
  obtain ⟨before, behind, hsplit⟩ := List.append_of_mem hb
  unfold names at h
  rw [hsplit] at h ⊢
  rw [List.find?_append, List.find?_cons_of_pos (by simp), Option.or_eq_some_iff]
  refine .inr ⟨?_, rfl⟩
  rw [List.find?_eq_none]
  intro other hother
  rw [List.map_append, List.nodup_append] at h
  have hne := h.2.2 other.name (List.mem_map_of_mem hother) b.name (by simp)
  simpa using hne

/-- What holds of every variable of a store holds after a value is set, if it holds of the variables
with the new value. -/
theorem forall_mem_set {s : Store} {x : Text} {v : Value} {p : Binding → Prop}
    (hset : ∀ b ∈ s.bindings, b.name = x → p { b with value := v })
    (hother : ∀ b ∈ s.bindings, b.name ≠ x → p b) : ∀ b ∈ (s.set x v).bindings, p b := by
  unfold set
  intro b' hb'
  obtain ⟨b, hb, rfl⟩ := List.mem_map.mp hb'
  by_cases hx : b.name = x
  · rw [if_pos hx]
    exact hset b hb hx
  · rw [if_neg hx]
    exact hother b hb hx

theorem forall_mem_push {s : Store} {b : Binding} {p : Binding → Prop} :
    (∀ b' ∈ (s.push b).bindings, p b') ↔ (∀ b' ∈ s.bindings, p b') ∧ p b := by
  simp [push, or_imp, forall_and]

/-! ## When a write succeeds -/

theorem coerced_eq_ok_iff {type : VarType} {text : Text} {v : Value} :
    coerced type text = .ok v ↔ type.tag.coerce text = .ok v := by
  unfold coerced
  split
  · next w hw => simp [hw]
  · next failure hfailure => simp [hfailure]

/-- A value of a type has the kind of the type. -/
theorem tag_of_coerced {type : VarType} {text : Text} {v : Value}
    (h : coerced type text = .ok v) : v.tag = type.tag :=
  Tag.tag_of_coerce (coerced_eq_ok_iff.mp h)

/-- A declaration succeeds for a new name, a known type and a text of that type. It adds the
variable at the end. -/
theorem declare_eq_ok_iff {s t : Store} {x typeName text : Text} {v : Value} :
    s.declare x typeName text = .ok (v, t) ↔
      s.find? x = none ∧ ∃ type, VarType.ofName? typeName = some type ∧
        coerced type text = .ok v ∧ t = s.push ⟨x, type, v⟩ := by
  unfold declare typeOf
  by_cases hx : s.contains x = true
  · have hfind : s.find? x ≠ none := by
      intro hnone
      rw [contains_eq_false_iff.mpr hnone] at hx
      contradiction
    simp [hx, hfind]
  · rw [Bool.not_eq_true] at hx
    rw [hx, contains_eq_false_iff.mp hx]
    rcases VarType.ofName? typeName with _ | type
    · simp [bind, Except.bind]
    · rcases hv : coerced type text with failure | w
      · simp [bind, Except.bind, hv]
      · simp only [bind, Except.bind, hv, Bool.false_eq_true, if_false, Except.ok.injEq,
          Prod.mk.injEq, true_and, Option.some.injEq, exists_eq_left']
        constructor
        · rintro ⟨rfl, rfl⟩
          exact ⟨rfl, rfl⟩
        · rintro ⟨rfl, rfl⟩
          exact ⟨rfl, rfl⟩

/-- An assignment succeeds for a declared name and a text of its type. It sets the value. -/
theorem assign_eq_ok_iff {s t : Store} {x text : Text} {v : Value} :
    s.assign x text = .ok (v, t) ↔
      ∃ b, s.find? x = some b ∧ coerced b.type text = .ok v ∧ t = s.set x v := by
  unfold assign binding
  rcases s.find? x with _ | b
  · simp [bind, Except.bind]
  · rcases hv : coerced b.type text with failure | w
    · simp [bind, Except.bind, hv]
    · simp only [bind, Except.bind, hv, Except.ok.injEq, Prod.mk.injEq, Option.some.injEq,
        exists_eq_left']
      constructor
      · rintro ⟨rfl, rfl⟩
        exact ⟨rfl, rfl⟩
      · rintro ⟨rfl, rfl⟩
        exact ⟨rfl, rfl⟩

end Store

end LineShell
