import LineShell.Proofs.Tree.Levels
import LineShell.Proofs.Tree.Tracking

/-!
# Parsing makes progress

Each routine tracks its parser, as long as the routines and loops that it calls do
(`Cursor.Callees`). One induction along the descent of calls gives it for all of them
(`Cursor.tracks_run`): a call that does not descend has an outcome that tracks nothing, so the
routines could not track their parsers if there were one. The same holds of reading outside the
marks. Since the parsers need no check of calls, neither do the routines (`Cursor.run_eq_body`).

Main statement: `Cursor.parsing_progress`.
-/

namespace LineShell

namespace Cursor

open LineShell.Parser (Plan plan)

variable {α : Type} {ls : List Lexeme} {i : Nat}

/-! ## Parsers of routines -/

/-- The parser of a routine. -/
def Method.plan : Method α → Plan α
  | .statement => Parser.plan Parser.statement
  | .block => Parser.plan Parser.block
  | .condition => Parser.plan Parser.condition
  | .declarationOrExpr => Parser.plan Parser.declarationOrExpr
  | .declaration => Parser.plan Parser.declaration
  | .assignment => Parser.plan Parser.assignment
  | .conditional => Parser.plan Parser.conditional
  | .binary level => Parser.plan (Parser.binary level)
  | .unary => Parser.plan Parser.unary
  | .postfixed => Parser.plan Parser.postfixed
  | .primary => Parser.plan Parser.primary
  | .arguments => Parser.plan Parser.arguments

/-- The parser of a loop. -/
def Loop.plan : Loop α → Plan α
  | .statements => Parser.plan Parser.statements
  | .moreArguments => Parser.plan Parser.moreArguments
  | .operations level left => Parser.levelOperations level left
  | .members e => Parser.plan (Parser.members e)

/-- The routines and loops that a routine of the given rank calls from the index `i` on track their
parsers: routines of smaller rank without a move of the cursor, everything behind one. -/
structure Callees (ls : List Lexeme) (i rank : Nat) (run : ∀ {β : Type}, Method β → Walk β)
    (loop : ∀ {β : Type}, Loop β → Walk β) : Prop where
  /-- Routines called at the same index. -/
  here : ∀ {β : Type} (m : Method β), m.rank < rank → Tracks ls (i + 1) (run m) m.plan i
  /-- Routines called behind it. -/
  behind : ∀ {β : Type} (m : Method β) {j : Nat}, i < j → j ≤ ls.length →
    Tracks ls (j + 1) (run m) m.plan j
  /-- Loops. -/
  loop : ∀ {β : Type} (l : Loop β) {j : Nat}, i < j → j ≤ ls.length →
    Tracks ls j (loop l) l.plan j

namespace Callees

variable {rank : Nat} {run : ∀ {β : Type}, Method β → Walk β} {loop : ∀ {β : Type}, Loop β → Walk β}

/-! ## Expressions -/

lemma primary (h : Callees ls i rank run loop) (hi : i ≤ ls.length) :
    Tracks ls (i + 1) (Method.primary.body run loop) (plan Parser.primary) i := by
  rw [Parser.plan_primary]
  refine .current hi ?_
  rcases hhead : (ls.drop i).head? with _ | x
  · exact .raise _
  · have hlt := lt_of_head?_drop hhead
    cases x with
    | literal l => exact .advance hlt (.done le_rfl hlt)
    | name x =>
        refine .advance hlt (.peek hlt (fun _ => ?_) fun _ => .done le_rfl hlt)
        exact (h.behind .arguments (Nat.lt_succ_self i) hlt).andThen fun args j hj hjn =>
          .done (by omega) hjn
    | keyword k => exact .raise _
    | symbol s =>
        cases s with
        | leftParen =>
            refine .advance hlt ?_
            refine (h.behind .assignment (Nat.lt_succ_self i) hlt).andThen fun inner j hj hjn => ?_
            exact .expect hjn fun hlt' => .done (by omega) hlt'
        | _ => exact .raise _

lemma arguments (h : Callees ls i rank run loop) (hi : i ≤ ls.length) :
    Tracks ls (i + 1) (Method.arguments.body run loop) (plan Parser.arguments) i := by
  rw [Parser.plan_arguments]
  refine .expect hi fun hlt => .peek hlt (fun hhead => ?_) fun _ => ?_
  · exact .expect_of_head? hhead fun hlt' => .done (by omega) hlt'
  · refine (h.behind .assignment (Nat.lt_succ_self i) hlt).andThen fun first j hj hjn => ?_
    refine (h.loop .moreArguments (by omega) hjn).andThen fun others k hk hkn => ?_
    exact .done (by omega) hkn

lemma moreArguments (h : Callees ls i rank run loop) (hi : i ≤ ls.length) :
    Tracks ls i (Loop.moreArguments.body run loop) (plan Parser.moreArguments) i := by
  rw [Parser.plan_moreArguments]
  refine .accept hi (fun hlt => ?_) (.expect hi fun hlt => .done (Nat.le_succ i) hlt)
  refine (h.behind .assignment (Nat.lt_succ_self i) hlt).andThen fun next j hj hjn => ?_
  refine (h.loop .moreArguments (by omega) hjn).andThen fun others k hk hkn => ?_
  exact .done (by omega) hkn

lemma members (h : Callees ls i rank run loop) (hi : i ≤ ls.length) (e : Expr) :
    Tracks ls i ((Loop.members e).body run loop) (plan (Parser.members e)) i := by
  rw [Parser.plan_members]
  refine .accept hi (fun hlt => .here ?_) (.done le_rfl hi)
  refine .expectName hlt fun word hlt' => .peek hlt' (fun _ => ?_) fun _ => ?_
  · refine (h.behind .arguments (by omega) hlt').andThen fun args j hj hjn => ?_
    exact (h.loop (.members (.scopedCall e word args)) (by omega) hjn).mono (by omega)
  · cases e with
    | name x =>
        exact (h.loop (.members (.name (x ++ "." ++ word))) (by omega) hlt').mono (by omega)
    | _ => exact .refuseMember word hlt'

lemma postfixed (h : Callees ls i Method.postfixed.rank run loop) :
    Tracks ls (i + 1) (Method.postfixed.body run loop) (plan Parser.postfixed) i := by
  rw [Parser.plan_postfixed]
  refine (h.here .primary (by decide)).andThen fun e j hj hjn => ?_
  exact (h.loop (.members e) hj hjn).mono hj

lemma unary (h : Callees ls i Method.unary.rank run loop) (hi : i ≤ ls.length) :
    Tracks ls (i + 1) (Method.unary.body run loop) (plan Parser.unary) i := by
  rw [Parser.plan_unary]
  refine .current hi ?_
  rcases hop : (ls.drop i).head?.bind Parser.unaryOf? with _ | op
  · exact h.here .postfixed (by decide)
  · obtain ⟨rest, hrest⟩ := Parser.exists_of_unaryOf? hop
    have hlt : i < ls.length := lt_of_head?_drop (List.head?_eq_some_iff.mpr ⟨rest, hrest⟩)
    refine .advance hlt ?_
    refine (h.behind .unary (Nat.lt_succ_self i) hlt).andThen fun operand j hj hjn => ?_
    exact .done (by omega) hjn

lemma operations (h : Callees ls i rank run loop) (hi : i ≤ ls.length)
    (level : Fin BinaryOp.levels) (left : Expr) :
    Tracks ls i ((Loop.operations level left).body run loop)
      (Parser.levelOperations level left) i := by
  rw [Parser.levelOperations_eq]
  refine .current hi ?_
  rcases hhead : (ls.drop i).head? with _ | x
  · exact .done le_rfl hi
  · have hlt := lt_of_head?_drop hhead
    cases x with
    | symbol s =>
        cases s with
        | binary op =>
            by_cases hop : op.precedence = level
            · simp only [if_pos hop]
              refine .advance hlt ?_
              have hright := h.behind (.binary level.succ) (Nat.lt_succ_self i) hlt
              refine hright.andThen fun right j hj hjn => ?_
              exact (h.loop (.operations level (.binary op left right)) (by omega) hjn).mono
                (by omega)
            · simp only [if_neg hop]
              exact .done le_rfl hi
        | _ => exact .done le_rfl hi
    | _ => exact .done le_rfl hi

lemma binary {level : Fin (BinaryOp.levels + 1)}
    (h : Callees ls i (Method.binary level).rank run loop) :
    Tracks ls (i + 1) ((Method.binary level).body run loop) (plan (Parser.binary level)) i := by
  simp only [Method.rank] at h
  simp only [Method.body]
  split
  · next hlevel =>
    rw [Parser.plan_binary_of_lt hlevel]
    -- The next tighter level is called at the same index: here the rank counts levels.
    have htighter := h.here (.binary ⟨level + 1, Nat.succ_lt_succ hlevel⟩)
      (by simp only [Method.rank]; omega)
    refine htighter.andThen fun left j hj hjn => ?_
    exact (h.loop (.operations ⟨level, hlevel⟩ left) hj hjn).mono hj
  · next hlevel =>
    have hlast : (level : Nat) = BinaryOp.levels := by omega
    rw [hlast, Parser.plan_binary_levels]
    exact h.here .unary (by simp only [Method.rank]; omega)

lemma conditional (h : Callees ls i Method.conditional.rank run loop) :
    Tracks ls (i + 1) (Method.conditional.body run loop) (plan Parser.conditional) i := by
  rw [Parser.plan_conditional]
  refine (h.here (.binary 0) (by decide)).andThen fun c j hj hjn => ?_
  refine .accept hjn (fun hlt => ?_) (.done hj hjn)
  refine (h.behind .assignment (by omega) hlt).andThen fun a k hk hkn => ?_
  refine .expect hkn fun hlt' => ?_
  refine (h.behind .conditional (by omega) hlt').andThen fun b l hl hln => ?_
  exact .done (by omega) hln

lemma assignment (h : Callees ls i Method.assignment.rank run loop) :
    Tracks ls (i + 1) (Method.assignment.body run loop) (plan Parser.assignment) i := by
  rw [Parser.plan_assignment]
  refine (h.here .conditional (by decide)).andThen fun target j hj hjn => .current hjn ?_
  rcases hhead : (ls.drop j).head? with _ | x
  · exact .done hj hjn
  · have hlt := lt_of_head?_drop hhead
    cases x with
    | symbol s =>
        cases s with
        | assign op =>
            refine .here ?_
            -- A wrong target is found behind the operator, and reported at it.
            cases target with
            | name x =>
                refine .advance hlt ?_
                refine (h.behind .assignment (by omega) hlt).andThen fun value k hk hkn => ?_
                exact .done (by omega) hkn
            | _ => exact .advance_raise _ hlt
        | _ => exact .done hj hjn
    | _ => exact .done hj hjn

/-! ## Declarations and statements -/

lemma declaration (h : Callees ls i rank run loop) (hi : i ≤ ls.length) :
    Tracks ls (i + 1) (Method.declaration.body run loop) (plan Parser.declaration) i := by
  rw [Parser.plan_declaration]
  refine .expectName hi fun type hlt => .expectName hlt fun x hlt' => ?_
  rw [Parser.plan_initializer]
  refine .accept hlt' (fun hlt'' => ?_) ?_
  · simp only [if_true]
    refine (h.behind .assignment (by omega) hlt'').andThen fun value j hj hjn => ?_
    exact .peek hjn (fun _ => .raise _) fun _ => .done (by omega) hjn
  · exact .peek hlt' (fun _ => .raise _) fun _ => .done (by omega) hlt'

lemma declarationOrExpr (h : Callees ls i Method.declarationOrExpr.rank run loop)
    (hi : i ≤ ls.length) :
    Tracks ls (i + 1) (Method.declarationOrExpr.body run loop)
      (plan Parser.declarationOrExpr) i := by
  refine .read hi ?_
  -- The second mark decides, and the parser decides by the first two lexemes at once.
  by_cases hnames : ∃ type x, (ls.drop i).head? = some (.name type) ∧
      (ls.drop (i + 1)).head? = some (.name x)
  · obtain ⟨type, x, htype, hx⟩ := hnames
    obtain ⟨rest, hrest⟩ := List.head?_eq_some_iff.mp htype
    obtain ⟨rest', hrest'⟩ := List.head?_eq_some_iff.mp hx
    rw [← List.tail_drop, hrest, List.tail_cons] at hrest'
    subst hrest'
    rw [htype]
    refine .readNext hi ?_
    rw [hx]
    unfold Tracks
    rw [hrest, Parser.plan_declarationOrExpr_eq_declaration, ← hrest]
    exact h.here .declaration (by decide)
  · have hplan : plan Parser.declarationOrExpr (ls.drop i) =
        plan Parser.assignment (ls.drop i) := by
      refine Parser.plan_declarationOrExpr_of_ne fun type x rest hrest => hnames ⟨type, x, ?_, ?_⟩
      · rw [hrest, List.head?_cons]
      · rw [← List.tail_drop, hrest, List.tail_cons, List.head?_cons]
    have hexpr : Tracks ls (i + 1) (run .assignment) (plan Parser.declarationOrExpr) i := by
      unfold Tracks
      rw [hplan]
      exact h.here .assignment (by decide)
    rcases hhead : (ls.drop i).head? with _ | y
    · exact hexpr
    · cases y with
      | name type =>
          refine .readNext hi ?_
          rcases hnext : (ls.drop (i + 1)).head? with _ | z
          · exact hexpr
          · cases z with
            | name x => exact absurd ⟨type, x, hhead, hnext⟩ hnames
            | _ => exact hexpr
      | _ => exact hexpr

lemma condition (h : Callees ls i rank run loop) (hi : i ≤ ls.length) :
    Tracks ls (i + 1) (Method.condition.body run loop) (plan Parser.condition) i := by
  rw [Parser.plan_condition]
  refine .expect hi fun hlt => ?_
  refine (h.behind .assignment (Nat.lt_succ_self i) hlt).andThen fun c j hj hjn => ?_
  exact .expect hjn fun hlt' => .done (by omega) hlt'

lemma block (h : Callees ls i rank run loop) (hi : i ≤ ls.length) :
    Tracks ls (i + 1) (Method.block.body run loop) (plan Parser.block) i := by
  rw [Parser.plan_block]
  refine .expect hi fun hlt => ?_
  refine (h.loop .statements (Nat.lt_succ_self i) hlt).andThen fun body j hj hjn => ?_
  exact .done hj hjn

lemma statements (h : Callees ls i Loop.statements.rank run loop) (hi : i ≤ ls.length) :
    Tracks ls i (Loop.statements.body run loop) (plan Parser.statements) i := by
  -- A round starts with a statement at the index of the round. The next round is behind it.
  have hround : Tracks ls i
      (do
        let first ← run .statement
        let others ← loop .statements
        pure (first :: others))
      ((plan Parser.statement).andThen fun first =>
        (plan Parser.statements).andThen fun others => Plan.done (first :: others)) i := by
    refine (h.here .statement (by decide)).andThen fun first j hj hjn => ?_
    refine (h.loop .statements hj hjn).andThen fun others k hk hkn => ?_
    exact .done (by omega) hkn
  rw [Parser.plan_statements]
  refine .current hi ?_
  rcases hhead : (ls.drop i).head? with _ | x
  · -- At the end of the source the loop is left, and the closing brace is missing.
    have hend : Tracks ls i (expect .rightBrace >>= fun _ => pure ([] : List Stmt))
        (Plan.fail (.expectedSymbol .rightBrace (ls.drop i).head?)) i :=
      .expect_of_ne hi (by rw [hhead]; nofun)
    rw [hhead] at hend
    exact hend
  · cases x with
    | symbol s =>
        cases s with
        | rightBrace => exact .expect_of_head? hhead fun hlt => .done (Nat.le_succ i) hlt
        | _ => exact hround
    | _ => exact hround

/-- A statement that no lexeme of its own announces. -/
lemma exprStatement (h : Callees ls i Method.statement.rank run loop) (hi : i ≤ ls.length)
    (hhead : (ls.drop i).head? ≠ some (.symbol .semicolon)) :
    Tracks ls (i + 1)
      (do
        if ← accept (.symbol .semicolon) then
          pure .empty
        else
          let e ← run .declarationOrExpr
          Cursor.expect .semicolon
          pure (.expr e))
      Plan.exprStatement i := by
  refine .accept_of_ne hi hhead ?_
  refine (h.here .declarationOrExpr (by decide)).andThen fun e j hj hjn => ?_
  exact .expect hjn fun hlt => .done (by omega) hlt

lemma ifStatement (h : Callees ls i rank run loop) (hlt : i < ls.length) :
    Tracks ls (i + 1)
      (do
        let c ← run .condition
        let thenStmt ← run .statement
        if ← accept (.keyword .elseWord) then
          let elseStmt ← run .statement
          pure (.ifElse c thenStmt elseStmt)
        else pure (.ifThen c thenStmt))
      Plan.ifStatement (i + 1) := by
  refine (h.behind .condition (Nat.lt_succ_self i) hlt).andThen fun c j hj hjn => ?_
  refine (h.behind .statement (by omega) hjn).andThen fun thenStmt k hk hkn => ?_
  refine .accept hkn (fun hlt' => ?_) (.done (by omega) hkn)
  refine (h.behind .statement (by omega) hlt').andThen fun elseStmt l hl hln => ?_
  exact .done (by omega) hln

lemma whileStatement (h : Callees ls i rank run loop) (hlt : i < ls.length) :
    Tracks ls (i + 1)
      (do
        let c ← run .condition
        let body ← run .statement
        pure (.whileLoop c body))
      Plan.whileStatement (i + 1) := by
  refine (h.behind .condition (Nat.lt_succ_self i) hlt).andThen fun c j hj hjn => ?_
  refine (h.behind .statement (by omega) hjn).andThen fun body k hk hkn => ?_
  exact .done (by omega) hkn

lemma returnStatement (h : Callees ls i rank run loop) (hlt : i < ls.length) :
    Tracks ls (i + 1)
      (do
        if (← current) = some (.symbol .semicolon) then
          Cursor.expect .semicolon
          pure .returnVoid
        else
          let value ← run .assignment
          Cursor.expect .semicolon
          pure (.returnValue value))
      Plan.returnStatement (i + 1) := by
  refine .peek hlt (fun hhead => ?_) fun _ => ?_
  · exact .expect_of_head? hhead fun hlt' => .done (by omega) hlt'
  · refine (h.behind .assignment (Nat.lt_succ_self i) hlt).andThen fun value j hj hjn => ?_
    exact .expect hjn fun hlt' => .done (by omega) hlt'

lemma statement (h : Callees ls i Method.statement.rank run loop) (hi : i ≤ ls.length) :
    Tracks ls (i + 1) (Method.statement.body run loop) (plan Parser.statement) i := by
  rw [Parser.plan_statement]
  refine .current hi ?_
  rcases hhead : (ls.drop i).head? with _ | x
  · exact h.exprStatement hi (by rw [hhead]; nofun)
  · have hlt := lt_of_head?_drop hhead
    cases x with
    | symbol s =>
        cases s with
        | leftBrace => exact h.here .block (by decide)
        | semicolon => exact .accept_of_head? hhead fun _ => .done le_rfl hlt
        | _ => exact h.exprStatement hi (by rw [hhead]; nofun)
    | keyword k =>
        cases k with
        | ifWord => exact .advance hlt (h.ifStatement hlt)
        | whileWord => exact .advance hlt (h.whileStatement hlt)
        | returnWord => exact .advance hlt (h.returnStatement hlt)
        | elseWord => exact h.exprStatement hi (by rw [hhead]; nofun)
    | _ => exact h.exprStatement hi (by rw [hhead]; nofun)

lemma method {m : Method α} (h : Callees ls i m.rank run loop) (hi : i ≤ ls.length) :
    Tracks ls (i + 1) (m.body run loop) m.plan i := by
  cases m with
  | statement => exact h.statement hi
  | block => exact h.block hi
  | condition => exact h.condition hi
  | declarationOrExpr => exact h.declarationOrExpr hi
  | declaration => exact h.declaration hi
  | assignment => exact h.assignment
  | conditional => exact h.conditional
  | binary level => exact h.binary
  | unary => exact h.unary hi
  | postfixed => exact h.postfixed
  | primary => exact h.primary hi
  | arguments => exact h.arguments hi

lemma round {l : Loop α} (h : Callees ls i l.rank run loop) (hi : i ≤ ls.length) :
    Tracks ls i (l.body run loop) l.plan i := by
  cases l with
  | statements => exact h.statements hi
  | moreArguments => exact h.moreArguments hi
  | operations level left => exact h.operations hi level left
  | members e => exact h.members hi e

end Callees

/-! ## Along the descent -/

/-- The parser of a routine or a loop. -/
def Routine.plan : Routine α → Plan α
  | .method m => m.plan
  | .loop l => l.plan

/-- The least index at which a success leaves the cursor. Only loops can stay where they are. -/
def Routine.least : Routine α → Nat → Nat
  | .method _, i => i + 1
  | .loop _, i => i

/-- A routine tracks its parser if the calls that descend from it do. -/
lemma tracks_body {r : Routine α} (hi : i ≤ ls.length) {call : ∀ {β : Type}, Routine β → Walk β}
    (hcall : ∀ {β : Type} (r' : Routine β) (j : Nat), j ≤ ls.length →
      Descends (ls.length + 1 - i, r.rank) (ls.length + 1 - j, r'.rank) →
      Tracks ls (r'.least j) (call r') r'.plan j) :
    Tracks ls (r.least i) (r.body call) r.plan i := by
  have hcallees : Callees ls i r.rank (fun m => call (.method m)) fun l => call (.loop l) := {
    here := fun m hm => hcall (.method m) i hi (.inr ⟨rfl, hm⟩)
    behind := fun m j hij hj => hcall (.method m) j hj (.inl (by omega))
    loop := fun l j hij hj => hcall (.loop l) j hj (.inl (by omega)) }
  cases r with
  | method m => exact hcallees.method hi
  | loop l => exact hcallees.round hi

/-- Every routine and every loop tracks its parser. Calls that do not descend count for nothing, so
the induction may follow the descent. -/
lemma tracks_run {γ : Type} (r : Routine γ) {i : Nat} (hi : i ≤ ls.length) :
    Tracks ls (r.least i) (run r) r.plan i := by
  unfold Tracks
  rw [run]
  refine tracks_body hi fun r' j hj hdescends => ?_
  unfold Tracks
  simp only [length_marks, dif_pos hdescends]
  exact tracks_run r' hj
termination_by (ls.length + 1 - i, r.rank)
decreasing_by exact Prod.lex_def.mpr hdescends

/-- The check of descent changes nothing. -/
lemma run_eq_body (r : Routine α) (hi : i ≤ ls.length) :
    run r (marks ls) i = r.body (fun r' => run r') (marks ls) i :=
  (tracks_run r hi).outcome_eq (tracks_body hi fun r' _ hj _ => tracks_run r' hj)

/-- A routine ends behind the mark where it started, or with an error, and as its parser does. -/
lemma run_method (m : Method α) (hi : i ≤ ls.length) :
    (∃ a j, i < j ∧ j ≤ ls.length ∧ run (.method m) (marks ls) i = .done a j ∧
      m.plan (ls.drop i) = .ok (a, ls.drop j)) ∨
    ∃ e, run (.method m) (marks ls) i = .error e ∧ m.plan (ls.drop i) = .error e := by
  have htracks : Agrees ls (i + 1) (run (.method m) (marks ls) i) (m.plan (ls.drop i)) :=
    tracks_run (.method m) hi
  generalize run (.method m) (marks ls) i = outcome, m.plan (ls.drop i) = result at htracks ⊢
  cases htracks with
  | done a hlow hj => exact .inl ⟨a, _, hlow, hj, rfl, rfl⟩
  | error e => exact .inr ⟨e, rfl, rfl⟩

/-- At the end of the source there is no later mark to stop at. -/
lemma run_method_end (m : Method α) : ∃ e, run (.method m) (marks ls) ls.length = .error e := by
  rcases run_method m (Nat.le_refl ls.length) with ⟨a, j, hlt, hle, -⟩ | ⟨e, he, -⟩
  · exact absurd hlt (Nat.not_lt.mpr hle)
  · exact ⟨e, he⟩

/-- Parsing makes progress and stays on the marks. Started at any mark, a routine leaves the cursor
at a later one or finds an error, as its parser does, and at the end it always finds an error. No
routine and no loop reads outside the list, and every call descends in the lexicographic order of
marks left and rank, so that routines and loops do what their bodies say with no call checked. -/
theorem parsing_progress (ls : List Lexeme) :
    (∀ {α : Type} (m : Method α) (i : Fin (marks ls).length),
      (∃ (a : α) (j : Nat), i < j ∧ j ≤ ls.length ∧ run (.method m) (marks ls) i = .done a j ∧
        m.plan (ls.drop i) = .ok (a, ls.drop j)) ∨
      ∃ e, run (.method m) (marks ls) i = .error e ∧ m.plan (ls.drop i) = .error e) ∧
    (∀ {α : Type} (m : Method α), ∃ e, run (.method m) (marks ls) ls.length = .error e) ∧
    ∀ {α : Type} (r : Routine α) (i : Fin (marks ls).length),
      run r (marks ls) i ≠ .outOfRange ∧ run r (marks ls) i ≠ .noDescent ∧
        run r (marks ls) i = r.body (fun r' => run r') (marks ls) i := by
  have hle : ∀ i : Fin (marks ls).length, (i : Nat) ≤ ls.length := fun i =>
    Nat.le_of_lt_succ (Nat.lt_of_lt_of_eq i.isLt (length_marks ls))
  refine ⟨fun m i => run_method m (hle i), fun m => run_method_end m, fun r i => ?_⟩
  obtain ⟨hrange, hdescent⟩ := (tracks_run r (hle i)).proper
  exact ⟨hrange, hdescent, run_eq_body r (hle i)⟩

end Cursor

end LineShell
