import LineShell.Proofs.Tree.Plan

/-!
# How far parsers look ahead

A parser decides by the lexemes up to the one at which it stops, and by no later one: with other
lexemes behind that one it does the same. Such a plan is called prompt (`Plan.Prompt`). Each step of
a plan is prompt, so every parser is, by one induction on the number of lexemes over all parsers at
once.

One error comes a lexeme late. That a member access is no call is known at the lexeme behind the
word, while the error stands at the word (`GrammarIssue.lookahead`). And one parser looks at two
lexemes before it takes the first, the one that tells declarations from expressions. It is prompt
all the same: a single name with anything behind it is taken as an expression, so nothing fails at
the first of the two.
-/

namespace LineShell

/-- How many lexemes, from the offending one on, are known to make the error. -/
def GrammarIssue.lookahead : GrammarIssue → Nat
  | .memberAccess _ => 2
  | _ => 1

lemma GrammarIssue.lookahead_pos (issue : GrammarIssue) : 0 < issue.lookahead := by
  unfold lookahead
  split <;> decide

/-- The number of lexemes from the one at which the error is known to the end, `0` for the end
itself. -/
def GrammarError.decided (e : GrammarError) : Nat :=
  e.left + 1 - e.issue.lookahead

lemma GrammarError.decided_le (e : GrammarError) : e.decided ≤ e.left := by
  have hpos := e.issue.lookahead_pos
  unfold decided
  omega

namespace Parser

variable {α β : Type} {n : Nat}

/-- The number of lexemes from the one at which the result is known to the end. -/
def reach : Except GrammarError (α × List Lexeme) → Nat
  | .ok (_, rest) => rest.length
  | .error e => e.decided

/-- The results of one plan on `us ++ w` and on `us ++ w'`: the first is known in `w` or at its end,
or both are successes that stop in `us` at the same place, or both are errors. -/
inductive Lockstep (us w w' : List Lexeme) :
    Except GrammarError (α × List Lexeme) → Except GrammarError (α × List Lexeme) → Prop
  | late {result result'} (h : reach result ≤ w.length) : Lockstep us w w' result result'
  | ok (a : α) {vs : List Lexeme} (hne : vs ≠ []) (hle : vs.length ≤ us.length) :
      Lockstep us w w' (.ok (a, vs ++ w)) (.ok (a, vs ++ w'))
  | error (e e' : GrammarError) (hne : us ≠ []) : Lockstep us w w' (.error e) (.error e')

namespace Lockstep

variable {us vs w w' : List Lexeme} {result result' : Except GrammarError (α × List Lexeme)}

lemma mono (h : Lockstep vs w w' result result') (hle : vs.length ≤ us.length) :
    Lockstep us w w' result result' := by
  cases h with
  | late h => exact .late h
  | ok a hne hshort => exact .ok a hne (Nat.le_trans hshort hle)
  | error e e' hne =>
      refine .error e e' ?_
      rintro rfl
      exact hne (List.length_eq_zero_iff.mp (Nat.le_zero.mp hle))

/-- Where nothing comes before `w`, the result is known in `w`. -/
lemma reach_le (h : Lockstep [] w w' result result') : reach result ≤ w.length := by
  cases h with
  | late h => exact h
  | ok a hne hle => exact absurd (List.length_eq_zero_iff.mp (Nat.le_zero.mp hle)) hne
  | error e e' hne => exact absurd rfl hne

end Lockstep

namespace Plan

/-- What the plan does on `ts` depends on no lexeme behind the one at which it stops. -/
def PromptAt (F : Plan α) (ts : List Lexeme) : Prop :=
  ∀ us w w', ts = us ++ w → Lockstep us w w' (F ts) (F (us ++ w'))

/-- The plan is prompt on fewer than `n` lexemes. -/
def Prompt (n : Nat) (F : Plan α) : Prop :=
  ∀ ts : List Lexeme, ts.length < n → F.PromptAt ts

lemma PromptAt.reach_le {F : Plan α} {ts : List Lexeme} (h : F.PromptAt ts) :
    reach (F ts) ≤ ts.length :=
  (h [] ts [] rfl).reach_le

/-- An error stays an error, whatever comes behind the lexeme at which it is known. -/
lemma PromptAt.exists_error {F : Plan α} {us w : List Lexeme} (h : F.PromptAt (us ++ w))
    {e : GrammarError} (he : F (us ++ w) = .error e) (hlt : w.length < e.decided)
    (w' : List Lexeme) : ∃ e', F (us ++ w') = .error e' := by
  have hstep := h us w w' rfl
  rw [he] at hstep
  generalize F (us ++ w') = result' at hstep ⊢
  cases hstep with
  | late hle => exact absurd hle (Nat.not_le.mpr hlt)
  | error _ e' _ => exact ⟨e', rfl⟩

/-! ## Every step is prompt -/

lemma promptAt_done (a : α) (ts : List Lexeme) : (done a).PromptAt ts := by
  rintro us w w' rfl
  cases us with
  | nil => exact .late (Nat.le_refl _)
  | cons x us => exact .ok a (List.cons_ne_nil x us) (Nat.le_refl _)

lemma promptAt_fail (issue : GrammarIssue) (ts : List Lexeme) :
    (fail issue : Plan α).PromptAt ts := by
  rintro us w w' rfl
  cases us with
  | nil => exact .late (GrammarError.decided_le _)
  | cons x us => exact .error _ _ (List.cons_ne_nil x us)

lemma promptAt_refuseMember (word : Text) (ts : List Lexeme) :
    (refuseMember word : Plan α).PromptAt ts := by
  rintro us w w' rfl
  cases us with
  | nil => exact .late (Nat.le_refl _)
  | cons x us => exact .error _ _ (List.cons_ne_nil x us)

lemma PromptAt.look {next : Option Lexeme → Plan α} {ts : List Lexeme}
    (h : (next ts.head?).PromptAt ts) : (look next).PromptAt ts := by
  rintro us w w' rfl
  cases us with
  | nil => exact .late h.reach_le
  | cons x us => exact h (x :: us) w w' rfl

lemma PromptAt.advance {next : Plan α} {x : Lexeme} {ts : List Lexeme} (h : next.PromptAt ts) :
    (advance next).PromptAt (x :: ts) := by
  intro us w w' hts
  cases us with
  | nil =>
      refine .late ?_
      rw [← hts.trans (List.nil_append w), List.length_cons]
      exact Nat.le_trans h.reach_le (Nat.le_succ _)
  | cons y us =>
      rw [List.cons_append, List.cons.injEq] at hts
      exact (h us w w' hts.2).mono (Nat.le_succ _)

lemma PromptAt.andThen {first : Plan α} {next : α → Plan β} {ts : List Lexeme}
    (hfirst : first.PromptAt ts)
    (hnext : ∀ a rest, first ts = .ok (a, rest) → (next a).PromptAt rest) :
    (first.andThen next).PromptAt ts := by
  intro us w w' hts
  have hstep := hfirst us w w' hts
  unfold Plan.andThen
  generalize first ts = result at hstep hnext
  generalize first (us ++ w') = result' at hstep
  cases hstep with
  | late hle =>
      refine .late ?_
      rcases result with e | ⟨a, rest⟩
      · exact hle
      · exact Nat.le_trans (hnext a rest rfl).reach_le hle
  | @ok a vs hne hshort => exact (hnext a (vs ++ w) rfl vs w w' rfl).mono hshort
  | error e e' hne => exact .error e e' hne

lemma prompt_zero {F : Plan α} : Prompt 0 F :=
  fun ts hts => absurd hts (Nat.not_lt_zero ts.length)

lemma prompt_done {a : α} : Prompt n (done a) :=
  fun ts _ => promptAt_done a ts

lemma prompt_fail {issue : GrammarIssue} : Prompt n (fail issue : Plan α) :=
  fun ts _ => promptAt_fail issue ts

lemma prompt_refuseMember {word : Text} : Prompt n (refuseMember word : Plan α) :=
  fun ts _ => promptAt_refuseMember word ts

namespace Prompt

variable {m : Nat} {F found other : Plan α}

lemma mono (h : Prompt n F) (hle : m ≤ n) : Prompt m F :=
  fun ts hts => h ts (Nat.lt_of_lt_of_le hts hle)

lemma look {next : Option Lexeme → Plan α} (h : ∀ head, Prompt n (next head)) :
    Prompt n (look next) :=
  fun ts hts => PromptAt.look (h ts.head? ts hts)

lemma advance (h : Prompt n F) : Prompt (n + 1) (advance F) := by
  intro ts hts
  cases ts with
  | nil =>
      rintro us w w' hnil
      obtain ⟨rfl, rfl⟩ := List.append_eq_nil_iff.mp hnil.symm
      exact .late (Nat.le_refl _)
  | cons x ts => exact PromptAt.advance (h ts (Nat.lt_of_succ_lt_succ hts))

/-- The bound is kept where it need not grow. -/
lemma stay (h : Prompt n F) : Prompt n (F.advance) :=
  h.advance.mono (Nat.le_succ n)

lemma andThen {first : Plan α} {next : α → Plan β} (hfirst : Prompt n first)
    (hnext : ∀ a, Prompt n (next a)) : Prompt n (first.andThen next) := by
  intro ts hts
  refine (hfirst ts hts).andThen fun a rest heq => hnext a rest ?_
  have hle := (hfirst ts hts).reach_le
  rw [heq] at hle
  exact Nat.lt_of_le_of_lt hle hts

lemma peek {x : Lexeme} (hfound : Prompt n found) (hother : Prompt n other) :
    Prompt n (peek x found other) := by
  refine look fun head => ?_
  split
  · exact hfound
  · exact hother

lemma choice {x : Lexeme} (hfound : Prompt n found.advance) (hother : Prompt n other) :
    Prompt n (choice x found other) :=
  peek hfound hother

lemma expecting {s : Symbol} (h : Prompt n F.advance) : Prompt n (expecting s F) :=
  choice h (look fun _ => prompt_fail)

lemma expectingName {next : Text → Plan α} (h : ∀ x, Prompt n (next x).advance) :
    Prompt n (expectingName next) := by
  refine look fun head => ?_
  split
  · exact h _
  · exact prompt_fail

lemma refusingComma (h : Prompt n F) : Prompt n (refusingComma F) :=
  peek prompt_fail h

end Prompt

end Plan

open Plan

/-! ## Expressions -/

/-- The parsers of expressions that call each other behind a lexeme are prompt on fewer than `n`
lexemes. -/
structure ExprPrompt (n : Nat) : Prop where
  /-- On arguments in their parentheses. -/
  arguments : Prompt n (plan arguments)
  /-- On the arguments behind the first. -/
  moreArguments : Prompt n (plan moreArguments)
  /-- On calls and qualifications. -/
  members : ∀ e, Prompt n (plan (members e))
  /-- On unary operations. -/
  unary : Prompt n (plan unary)
  /-- On operators and their operands. -/
  operations : ∀ level left, Prompt n (plan (operations level left))
  /-- On conditionals. -/
  conditional : Prompt n (plan conditional)
  /-- On whole expressions. -/
  assignment : Prompt n (plan assignment)

namespace ExprPrompt

lemma primary_succ (h : ExprPrompt n) : Prompt (n + 1) (plan primary) := by
  rw [plan_primary]
  refine .look fun head => ?_
  split
  · exact prompt_done.advance
  · exact (h.assignment.andThen fun _ => .expecting prompt_done.stay).advance
  · exact (Prompt.peek (h.arguments.andThen fun _ => prompt_done) prompt_done).advance
  · exact prompt_fail

lemma arguments_succ (h : ExprPrompt n) : Prompt (n + 1) (plan Parser.arguments) := by
  rw [plan_arguments]
  refine .expecting (Prompt.advance ?_)
  exact .choice prompt_done.stay
    (h.assignment.andThen fun _ => h.moreArguments.andThen fun _ => prompt_done)

lemma moreArguments_succ (h : ExprPrompt n) : Prompt (n + 1) (plan Parser.moreArguments) := by
  rw [plan_moreArguments]
  refine .choice (Prompt.advance ?_) (.expecting prompt_done.advance)
  exact h.assignment.andThen fun _ => h.moreArguments.andThen fun _ => prompt_done

lemma members_succ (h : ExprPrompt n) (e : Expr) : Prompt (n + 1) (plan (Parser.members e)) := by
  rw [plan_members]
  refine .choice (Prompt.advance (.expectingName fun word => Prompt.stay ?_)) prompt_done
  refine .peek (h.arguments.andThen fun _ => h.members _) ?_
  split
  · exact h.members _
  · exact prompt_refuseMember

lemma unary_succ (h : ExprPrompt n) : Prompt (n + 1) (plan Parser.unary) := by
  rw [plan_unary]
  refine .look fun head => ?_
  split
  · exact (h.unary.andThen fun _ => prompt_done).advance
  · rw [plan_postfixed]
    exact h.primary_succ.andThen h.members_succ

lemma operations_succ (h : ExprPrompt n) (level : Nat) (left : Expr) :
    Prompt (n + 1) (plan (Parser.operations level left)) := by
  rw [plan_operations]
  refine .look fun head => ?_
  split
  · split
    · exact (h.unary.andThen fun _ => h.operations level _).advance
    · exact prompt_done
  · exact prompt_done

lemma conditional_succ (h : ExprPrompt n) : Prompt (n + 1) (plan Parser.conditional) := by
  rw [plan_conditional, plan_binary]
  refine (h.unary_succ.andThen (h.operations_succ 0)).andThen fun c => ?_
  refine .choice (Prompt.advance ?_) prompt_done
  exact h.assignment.andThen fun _ =>
    .expecting (h.conditional.andThen fun _ => prompt_done).stay

lemma assignment_succ (h : ExprPrompt n) : Prompt (n + 1) (plan Parser.assignment) := by
  rw [plan_assignment]
  refine h.conditional_succ.andThen fun target => .look fun head => ?_
  split
  · split
    · exact (h.assignment.andThen fun _ => prompt_done).advance
    · exact prompt_fail
  · exact prompt_done

end ExprPrompt

/-- All parsers of expressions are prompt. A parser calls itself, or one from which it was called,
behind a lexeme only, where the bound is one less. -/
lemma exprPrompt (n : Nat) : ExprPrompt n := by
  induction n with
  | zero =>
      exact ⟨prompt_zero, prompt_zero, fun _ => prompt_zero, prompt_zero, fun _ _ => prompt_zero,
        prompt_zero, prompt_zero⟩
  | succ n ih =>
      exact {
        arguments := ih.arguments_succ
        moreArguments := ih.moreArguments_succ
        members := ih.members_succ
        unary := ih.unary_succ
        operations := ih.operations_succ
        conditional := ih.conditional_succ
        assignment := ih.assignment_succ }

lemma prompt_assignment : Prompt n (plan assignment) :=
  (exprPrompt n).assignment

/-! ## Declarations and statements -/

lemma prompt_initializer (type x : Text) : Prompt n (plan (initializer type x)) := by
  rw [plan_initializer]
  exact .choice (prompt_assignment.andThen fun _ => .refusingComma prompt_done).stay
    (.refusingComma prompt_done)

/-- A name alone is an expression. -/
lemma plan_assignment_name (x : Text) : plan assignment [.name x] = .ok (.name x, []) := by
  have hprimary : plan primary [.name x] = .ok (.name x, []) := by
    rw [plan_primary]
    rfl
  have hmembers : plan (members (.name x)) [] = .ok (.name x, []) := by
    rw [plan_members]
    rfl
  have hunary : plan unary [.name x] = .ok (.name x, []) := by
    rw [plan_unary, plan_postfixed]
    exact (andThen_of_eq_ok hprimary _).trans hmembers
  have hoperations : plan (operations 0 (.name x)) [] = .ok (.name x, []) := by
    rw [plan_operations]
    rfl
  have hbinary : plan (binary 0) [.name x] = .ok (.name x, []) := by
    rw [plan_binary, andThen_of_eq_ok hunary, hoperations]
  have hconditional : plan conditional [.name x] = .ok (.name x, []) := by
    rw [plan_conditional]
    exact andThen_of_eq_ok hbinary _
  rw [plan_assignment]
  exact andThen_of_eq_ok hconditional _

/-- No expression fails at a name with which it starts. -/
lemma reach_assignment_name (x : Text) (w : List Lexeme) :
    reach (plan assignment (.name x :: w)) ≤ w.length := by
  -- The name alone is an expression, so an error here cannot be one there as well.
  have hstep := prompt_assignment _ (Nat.lt_succ_self _) [.name x] w [] rfl
  generalize halone : plan assignment ([.name x] ++ []) = alone at hstep
  rw [List.append_nil, plan_assignment_name] at halone
  rw [List.singleton_append] at hstep
  generalize plan assignment (.name x :: w) = result at hstep ⊢
  cases hstep with
  | late h => exact h
  | @ok a vs hne hle =>
      rw [List.append_nil] at halone
      cases halone
      exact absurd rfl hne
  | error e e' hne => cases halone

/-- The second lexeme decides between a declaration and an expression only where the first is a
name, and then nothing fails before the second. -/
lemma promptAt_declarationOrExpr (ts : List Lexeme) : (plan declarationOrExpr).PromptAt ts := by
  intro us w w' hts
  by_cases hnames : ∃ type x rest, ts = .name type :: .name x :: rest
  · obtain ⟨type, x, rest, rfl⟩ := hnames
    rw [plan_declarationOrExpr_of_names]
    have hinit := prompt_initializer type x rest (Nat.lt_succ_self _)
    have hlength := congrArg List.length hts
    simp only [List.length_cons, List.length_append] at hlength
    rcases us with _ | ⟨y, _ | ⟨z, us⟩⟩
    · exact .late (Nat.le_trans hinit.reach_le (by simp at hlength; omega))
    · exact .late (Nat.le_trans hinit.reach_le (by simp at hlength; omega))
    · simp only [List.cons_append, List.cons.injEq] at hts
      obtain ⟨rfl, rfl, hrest⟩ := hts
      rw [List.cons_append, List.cons_append, plan_declarationOrExpr_of_names]
      exact (hinit us w w' hrest).mono (by simp; omega)
  · have hexpr : (plan assignment).PromptAt ts := prompt_assignment ts (Nat.lt_succ_self _)
    rw [plan_declarationOrExpr_of_ne fun type x rest h => hnames ⟨type, x, rest, h⟩]
    rcases us with _ | ⟨y, _ | ⟨z, us⟩⟩
    · exact .late (hts ▸ hexpr.reach_le)
    · by_cases hname : ∃ x, y = .name x
      · obtain ⟨x, rfl⟩ := hname
        subst hts
        exact .late (reach_assignment_name x w)
      · rw [plan_declarationOrExpr_of_ne]
        · exact hexpr _ w w' hts
        · intro type x rest h
          exact hname ⟨type, (List.cons.inj h).1⟩
    · rw [plan_declarationOrExpr_of_ne]
      · exact hexpr _ w w' hts
      · intro type x rest h
        simp only [List.cons_append, List.cons.injEq] at h
        obtain ⟨rfl, rfl, -⟩ := h
        exact hnames ⟨type, x, us ++ w, hts⟩

lemma prompt_condition : Prompt n (plan condition) := by
  rw [plan_condition]
  exact .expecting (prompt_assignment.andThen fun _ => .expecting prompt_done.stay).stay

/-- The parsers of statements are prompt on fewer than `n` lexemes. -/
structure StmtPrompt (n : Nat) : Prop where
  /-- On one statement. -/
  statement : Prompt n (plan statement)
  /-- On the statements of a block. -/
  statements : Prompt n (plan statements)

namespace StmtPrompt

lemma statement_succ (h : StmtPrompt n) : Prompt (n + 1) (plan Parser.statement) := by
  rw [plan_statement]
  refine .look fun head => ?_
  split
  · rw [plan_block]
    exact .expecting (h.statements.andThen fun _ => prompt_done).advance
  · refine Prompt.advance (prompt_condition.andThen fun c => h.statement.andThen fun thenStmt => ?_)
    exact .choice (h.statement.andThen fun _ => prompt_done).stay prompt_done
  · exact (prompt_condition.andThen fun _ => h.statement.andThen fun _ => prompt_done).advance
  · refine Prompt.advance (.choice prompt_done.stay ?_)
    exact prompt_assignment.andThen fun _ => .expecting prompt_done.stay
  · exact prompt_done.advance
  · exact Prompt.andThen (fun ts _ => promptAt_declarationOrExpr ts)
      fun _ => .expecting prompt_done.stay

/-- The statements behind the first have fewer lexemes, since a statement takes one at least. -/
lemma statements_succ (h : StmtPrompt n) : Prompt (n + 1) (plan Parser.statements) := by
  rw [plan_statements]
  refine .look fun head => ?_
  split
  · exact prompt_fail
  · exact prompt_done.advance
  · intro ts hts
    refine (h.statement_succ ts hts).andThen fun first rest hfirst => ?_
    have hshorter : rest.length < ts.length := (plan_eq_ok_iff.mp hfirst).shorter
    exact (h.statements.andThen fun _ => prompt_done) rest (by omega)

end StmtPrompt

lemma stmtPrompt (n : Nat) : StmtPrompt n := by
  induction n with
  | zero => exact ⟨prompt_zero, prompt_zero⟩
  | succ n ih => exact ⟨ih.statement_succ, ih.statements_succ⟩

lemma promptAt_statement (ts : List Lexeme) : (plan statement).PromptAt ts :=
  (stmtPrompt _).statement ts (Nat.lt_succ_self _)

/-- The end of the source is looked for at the lexeme behind the tree. -/
lemma Plan.PromptAt.whole {F : Plan α} {ts : List Lexeme} (h : F.PromptAt ts) :
    F.whole.PromptAt ts := by
  refine h.andThen fun a rest _ => PromptAt.look ?_
  split
  · exact promptAt_done a rest
  · exact promptAt_fail _ rest

end Parser

end LineShell
