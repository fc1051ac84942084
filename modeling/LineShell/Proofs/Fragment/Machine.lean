import LineShell.Proofs.Lexeme.Spelling
import LineShell.Tree.Render
import LineShell.VarType
import Mathlib.Data.List.Nodup

/-!
# A reference machine for integers and texts

The fragment has lines of three forms: a declaration, an assignment, and an expression. An
expression is an operand or the sum or difference of two operands, and an operand is a number, a
text or a variable. The machine here says what a program of such lines comes to, with no parser, no
store and no coercion in between.

* **Programs** (`Command`) and how they are written (`Command.line`).
* **The machine** (`Command.step`, `run`). It keeps integers in the range of 32 bits, with sums and
  differences taken modulo `2 ^ 32`, and texts as they are. A variable that is declared again keeps
  its value.
* **Typing** (`Command.Typed`, `WellTyped`). A sum has two integers or two texts and a difference
  two integers; a variable is declared and assigned with its own type. Well-typed programs do not
  get stuck (`Command.Typed.exists_step`).
-/

namespace LineShell

namespace Fragment

/-! ## Programs -/

/-- The types of the fragment. -/
inductive Ty where
  | int | text
deriving DecidableEq

/-- The type with which a variable is declared. -/
def Ty.varType : Ty → VarType
  | int => .int
  | text => .string

/-- A name of a variable: a word that is no keyword. -/
structure Ident where
  /-- The word. -/
  word : Text
  /-- The word is a name. -/
  spelled : (Lexeme.name word).Spelled

/-- What can be added and subtracted. -/
inductive Operand where
  /-- A number that fits into 32 bits with its sign. -/
  | number (n : Nat) (le : n ≤ 2147483647)
  /-- A text of any code points. -/
  | text (t : Text)
  /-- A variable. -/
  | var (x : Ident)

/-- What is assigned or shown. -/
inductive Term where
  | operand (a : Operand)
  | add (a b : Operand)
  | sub (a b : Operand)

/-- One line of a program. -/
inductive Command where
  | declare (type : Ty) (x : Ident) (e : Term)
  | assign (x : Ident) (e : Term)
  | term (e : Term)

/-- The tree of an operand. -/
def Operand.expr : Operand → Expr
  | number n _ => .literal ⟨.int, Text.ofNat n⟩
  | text t => .literal ⟨.string, t⟩
  | var x => .name x.word

/-- The tree of a term. -/
def Term.expr : Term → Expr
  | operand a => a.expr
  | add a b => .binary .add a.expr b.expr
  | sub a b => .binary .sub a.expr b.expr

/-- The tree of a line. -/
def Command.expr : Command → Expr
  | declare type x e => .declare type.varType.name x.word e.expr
  | assign x e => .assign (.name x.word) .set e.expr
  | term e => e.expr

/-- The line as it is typed, with its semicolon. -/
def Command.line (c : Command) : Text :=
  (Stmt.expr c.expr).render

/-! ## The machine -/

/-- An integer of 32 bits with its sign. -/
structure Word where
  /-- The integer. -/
  val : Int
  /-- It is not too small. -/
  low : -2147483648 ≤ val
  /-- It is not too large. -/
  high : val ≤ 2147483647

/-- The integer of 32 bits that is congruent to `n` modulo `2 ^ 32`. -/
def Word.wrap (n : Int) : Word :=
  ⟨(n + 2147483648) % 4294967296 - 2147483648, by omega, by omega⟩

/-- What a variable holds. -/
inductive Datum where
  | int (w : Word)
  | text (t : Text)

/-- The type of a datum. -/
def Datum.ty : Datum → Ty
  | int _ => .int
  | text _ => .text

/-- How a datum is shown: an integer as its decimal numeral, a text as it is. -/
def Datum.display : Datum → Text
  | int w => Text.ofInt w.val
  | text t => t

/-- The variables with what they hold, in the order of their declaration. -/
abbrev Env := List (Text × Datum)

/-- The environment with another datum for a variable. -/
def Env.update (env : Env) (x : Text) (d : Datum) : Env :=
  env.map fun entry => if entry.1 = x then (x, d) else entry

/-- What an operand stands for; nothing, if it is a variable that was not declared. -/
def Operand.value (env : Env) : Operand → Option Datum
  | number n le => some (.int ⟨n, by omega, by omega⟩)
  | text t => some (.text t)
  | var x => env.lookup x.word

/-- What a term stands for. -/
def Term.value (env : Env) : Term → Option Datum
  | operand a => a.value env
  | add a b =>
    match a.value env, b.value env with
    | some (.int m), some (.int n) => some (.int (.wrap (m.val + n.val)))
    | some (.text t), some (.text u) => some (.text (t ++ u))
    | _, _ => none
  | sub a b =>
    match a.value env, b.value env with
    | some (.int m), some (.int n) => some (.int (.wrap (m.val - n.val)))
    | _, _ => none

/-- What a line comes to: the datum it shows, and the environment behind it. -/
def Command.step (env : Env) : Command → Option (Datum × Env)
  | declare type x e => do
    let d ← e.value env
    match env.lookup x.word with
    | some old => some (old, env)
    | none => if d.ty = type then some (d, env ++ [(x.word, d)]) else none
  | assign x e => do
    let d ← e.value env
    let old ← env.lookup x.word
    if d.ty = old.ty then some (d, env.update x.word d) else none
  | term e => do
    let d ← e.value env
    some (d, env)

/-- What a program comes to: the data its lines show, and the environment at its end. -/
def run (env : Env) : List Command → Option (List Datum × Env)
  | [] => some ([], env)
  | c :: rest => do
    let (d, next) ← c.step env
    let (ds, last) ← run next rest
    some (d :: ds, last)

/-! ## Typing -/

/-- The types of the declared variables. -/
abbrev Context := List (Text × Ty)

/-- An operand of a type. -/
inductive Operand.HasType (Γ : Context) : Operand → Ty → Prop
  | number {n : Nat} {le : n ≤ 2147483647} : HasType Γ (.number n le) .int
  | text {t : Text} : HasType Γ (.text t) .text
  | var {x : Ident} {type : Ty} (h : Γ.lookup x.word = some type) : HasType Γ (.var x) type

/-- A term of a type. -/
inductive Term.HasType (Γ : Context) : Term → Ty → Prop
  | operand {a : Operand} {type : Ty} (ha : a.HasType Γ type) : HasType Γ (.operand a) type
  | add {a b : Operand} {type : Ty} (ha : a.HasType Γ type) (hb : b.HasType Γ type) :
      HasType Γ (.add a b) type
  | sub {a b : Operand} (ha : a.HasType Γ .int) (hb : b.HasType Γ .int) :
      HasType Γ (.sub a b) .int

/-- A line that is allowed with some variables declared, and the variables declared behind it. -/
inductive Command.Typed (Γ : Context) : Command → Context → Prop
  /-- A variable is declared with a term of its type. -/
  | declare {type : Ty} {x : Ident} {e : Term} (hx : Γ.lookup x.word = none)
      (he : e.HasType Γ type) : Typed Γ (.declare type x e) (Γ ++ [(x.word, type)])
  /-- A variable can be declared again with any type and any term. -/
  | redeclare {type old other : Ty} {x : Ident} {e : Term} (hx : Γ.lookup x.word = some old)
      (he : e.HasType Γ other) : Typed Γ (.declare type x e) Γ
  /-- A variable is assigned a term of its type. -/
  | assign {type : Ty} {x : Ident} {e : Term} (hx : Γ.lookup x.word = some type)
      (he : e.HasType Γ type) : Typed Γ (.assign x e) Γ
  /-- Every term can be shown. -/
  | term {type : Ty} {e : Term} (he : e.HasType Γ type) : Typed Γ (.term e) Γ

/-- A program that is allowed with some variables declared. -/
inductive WellTyped : Context → List Command → Prop
  | nil {Γ : Context} : WellTyped Γ []
  | cons {Γ Δ : Context} {c : Command} {rest : List Command} (hc : c.Typed Γ Δ)
      (hrest : WellTyped Δ rest) : WellTyped Γ (c :: rest)

/-! ## Well-typed programs do not get stuck -/

namespace Env

/-- The types of the variables of an environment. -/
def context (env : Env) : Context :=
  env.map fun entry => (entry.1, entry.2.ty)

/-- No name is declared twice. -/
def Distinct (env : Env) : Prop :=
  (env.map Prod.fst).Nodup

lemma lookup_context (env : Env) (x : Text) :
    env.context.lookup x = (env.lookup x).map Datum.ty := by
  induction env with
  | nil => rfl
  | cons entry env ih =>
      obtain ⟨y, d⟩ := entry
      unfold context at ih ⊢
      rw [List.map_cons, List.lookup_cons, List.lookup_cons, ih]
      cases x == y with
      | true => rfl
      | false => rfl

/-- A variable with a type holds a datum of that type. -/
lemma exists_of_lookup_context {env : Env} {x : Text} {type : Ty}
    (h : env.context.lookup x = some type) : ∃ d, env.lookup x = some d ∧ d.ty = type := by
  rw [lookup_context] at h
  exact Option.map_eq_some_iff.mp h

lemma lookup_eq_none_of_context {env : Env} {x : Text} (h : env.context.lookup x = none) :
    env.lookup x = none := by
  rw [lookup_context] at h
  exact Option.map_eq_none_iff.mp h

lemma not_mem_of_lookup_eq_none {env : Env} {x : Text} (h : env.lookup x = none) :
    x ∉ env.map Prod.fst := by
  intro hx
  obtain ⟨entry, hentry, rfl⟩ := List.mem_map.mp hx
  have hne := List.lookup_eq_none_iff.mp h entry hentry
  simp at hne

lemma map_fst_update (env : Env) (x : Text) (d : Datum) :
    (env.update x d).map Prod.fst = env.map Prod.fst := by
  unfold update
  rw [List.map_map]
  apply List.map_congr_left
  intro entry _
  by_cases h : entry.1 = x
  · simp [h]
  · simp [h]

/-- In an environment without repetition a variable is found where it stands. -/
lemma Distinct.lookup_of_mem {env : Env} (h : env.Distinct) {entry : Text × Datum}
    (hentry : entry ∈ env) : env.lookup entry.1 = some entry.2 := by
  induction env with
  | nil => cases hentry
  | cons first env ih =>
      unfold Distinct at h ih
      rw [List.map_cons, List.nodup_cons] at h
      rw [List.lookup_cons]
      rcases List.mem_cons.mp hentry with rfl | hentry
      · simp
      · have hne : entry.1 ≠ first.1 := fun heq =>
          h.1 (heq ▸ List.mem_map_of_mem hentry)
        rw [beq_false_of_ne hne]
        exact ih h.2 hentry

/-- Another datum of the same type leaves the types as they are. -/
lemma context_update {env : Env} (h : env.Distinct) {x : Text} {old d : Datum}
    (hx : env.lookup x = some old) (hty : d.ty = old.ty) :
    (env.update x d).context = env.context := by
  unfold context update
  rw [List.map_map]
  apply List.map_congr_left
  intro entry hentry
  by_cases heq : entry.1 = x
  · have hold := h.lookup_of_mem hentry
    rw [heq, hx, Option.some.injEq] at hold
    simp [heq, hty, hold]
  · simp [heq]

end Env

/-- An operand of a type stands for a datum of that type. -/
lemma Operand.HasType.exists_value {env : Env} {a : Operand} {type : Ty}
    (h : a.HasType env.context type) : ∃ d, a.value env = some d ∧ d.ty = type := by
  cases h with
  | number => exact ⟨_, rfl, rfl⟩
  | text => exact ⟨_, rfl, rfl⟩
  | var hx => exact Env.exists_of_lookup_context hx

/-- A term of a type stands for a datum of that type. -/
lemma Term.HasType.exists_value {env : Env} {e : Term} {type : Ty}
    (h : e.HasType env.context type) : ∃ d, e.value env = some d ∧ d.ty = type := by
  cases h with
  | operand ha => exact ha.exists_value
  | @add a b _ ha hb =>
      obtain ⟨d, hd, rfl⟩ := ha.exists_value
      obtain ⟨d', hd', hty⟩ := hb.exists_value
      rw [Term.value, hd, hd']
      cases d with
      | int m =>
          cases d' with
          | int n => exact ⟨_, rfl, rfl⟩
          | text t => cases hty
      | text t =>
          cases d' with
          | int n => cases hty
          | text u => exact ⟨_, rfl, rfl⟩
  | @sub a b ha hb =>
      obtain ⟨d, hd, hty⟩ := ha.exists_value
      obtain ⟨d', hd', hty'⟩ := hb.exists_value
      rw [Term.value, hd, hd']
      cases d with
      | int m =>
          cases d' with
          | int n => exact ⟨_, rfl, rfl⟩
          | text t => cases hty'
      | text t => cases hty

/-- A line that is allowed comes to something, and the variables behind it are the expected ones. -/
lemma Command.Typed.exists_step {env : Env} (hdistinct : env.Distinct) {c : Command} {Δ : Context}
    (h : c.Typed env.context Δ) :
    ∃ d next, c.step env = some (d, next) ∧ next.context = Δ ∧ next.Distinct := by
  cases h with
  | @declare type x e hx he =>
      obtain ⟨d, hd, hty⟩ := he.exists_value
      have hnone := Env.lookup_eq_none_of_context hx
      refine ⟨d, env ++ [(x.word, d)], ?_, ?_, ?_⟩
      · simp [Command.step, hd, hnone, hty]
      · simp [Env.context, hty]
      · unfold Env.Distinct
        rw [List.map_append, List.map_singleton, ← List.concat_eq_append, List.nodup_concat]
        exact ⟨Env.not_mem_of_lookup_eq_none hnone, hdistinct⟩
  | @redeclare type old other x e hx he =>
      obtain ⟨d, hd, -⟩ := he.exists_value
      obtain ⟨w, hw, -⟩ := Env.exists_of_lookup_context hx
      exact ⟨w, env, by simp [Command.step, hd, hw], rfl, hdistinct⟩
  | @assign type x e hx he =>
      obtain ⟨d, hd, hty⟩ := he.exists_value
      obtain ⟨w, hw, hty'⟩ := Env.exists_of_lookup_context hx
      have hsame : d.ty = w.ty := by rw [hty, hty']
      refine ⟨d, env.update x.word d, ?_, Env.context_update hdistinct hw hsame, ?_⟩
      · simp [Command.step, hd, hw, hsame]
      · unfold Env.Distinct
        rw [Env.map_fst_update]
        exact hdistinct
  | @term type e he =>
      obtain ⟨d, hd, -⟩ := he.exists_value
      exact ⟨d, env, by simp [Command.step, hd], rfl, hdistinct⟩

/-- A well-typed program comes to something. -/
lemma WellTyped.exists_run {env : Env} (hdistinct : env.Distinct) {p : List Command}
    (h : WellTyped env.context p) : ∃ ds last, run env p = some (ds, last) := by
  induction p generalizing env with
  | nil => exact ⟨[], env, rfl⟩
  | cons c rest ih =>
      cases h with
      | cons hc hrest =>
          obtain ⟨d, next, hstep, rfl, hnext⟩ := hc.exists_step hdistinct
          obtain ⟨ds, last, hrun⟩ := ih hnext hrest
          exact ⟨d :: ds, last, by simp [run, hstep, hrun]⟩

end Fragment

end LineShell
