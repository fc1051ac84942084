import LineShell.Proofs.Tree.Plan

/-!
# Parsing with a cursor

The parsers of this library hand on the lexemes that are left. Here the same grammar is written for
a cursor: an index into a fixed list of marks, which are the lexemes and a mark for the end. Reading
a mark can then fail, because the index may lie outside the list, and a routine can call another one
without having moved, so nothing but the code says that calls come to an end.

Neither is assumed away. Reading outside the list gives an outcome of its own. `run` lets a routine
call only what is smaller in the lexicographic order of the marks from the cursor on and of the
place of the routine in the grammar (`Descends`), where the levels of operators are part of that
place; a call that does not descend gives another outcome of its own.
-/

namespace LineShell

namespace Cursor

/-! ## Walks -/

/-- The lexemes with a mark behind them, `none`, for the end of the source. -/
def marks (ls : List Lexeme) : List (Option Lexeme) :=
  ls.map some ++ [none]

/-- How a walk with the cursor ends. -/
inductive Outcome (α : Type) where
  /-- It succeeds and leaves the cursor at `i`. -/
  | done (a : α) (i : Nat)
  /-- It finds an error in the source. -/
  | error (e : GrammarError)
  /-- It reads a mark where there is none. -/
  | outOfRange
  /-- It calls a routine that is not smaller. -/
  | noDescent

/-- What is done with a list of marks and a cursor. -/
def Walk (α : Type) : Type :=
  List (Option Lexeme) → Nat → Outcome α

variable {α β : Type}

instance : Monad Walk where
  pure a := fun _ i => .done a i
  bind walk next := fun ms i =>
    match walk ms i with
    | .done a j => next a ms j
    | .error e => .error e
    | .outOfRange => .outOfRange
    | .noDescent => .noDescent

instance : LawfulMonad Walk :=
  LawfulMonad.mk' Walk
    (fun walk => by
      funext ms i
      change (walk >>= fun a => pure a) ms i = _
      simp only [bind, pure]
      cases walk ms i <;> rfl)
    (fun _ _ => rfl)
    (fun walk _ _ => by
      funext ms i
      simp only [bind]
      cases walk ms i <;> rfl)

/-- The cursor. -/
def here : Walk Nat :=
  fun _ i => .done i i

/-- An error at the mark `i`. -/
def raise (issue : GrammarIssue) (i : Nat) : Walk α :=
  fun ms _ => .error ⟨issue, ms.length - 1 - i⟩

/-- The mark at the cursor. -/
def current : Walk (Option Lexeme) :=
  fun ms i =>
    match ms[i]? with
    | some mark => .done mark i
    | none => .outOfRange

/-- The mark behind the cursor, and the last one where there is none behind. -/
def peekNext : Walk (Option Lexeme) :=
  fun ms i =>
    match ms[i + 1]?, ms.getLast? with
    | some mark, _ => .done mark i
    | none, some last => .done last i
    | none, none => .outOfRange

/-- Moves the cursor on. It stays at the last mark. -/
def advance : Walk Unit :=
  fun ms i =>
    match ms[i]? with
    | some _ => .done () (if i < ms.length - 1 then i + 1 else i)
    | none => .outOfRange

/-- Moves on past the symbol `s`, which has to stand at the cursor. -/
def expect (s : Symbol) : Walk Unit := do
  let found ← current
  if found = some (.symbol s) then advance else raise (.expectedSymbol s found) (← here)

/-- Moves on past a name, which has to stand at the cursor. -/
def expectName : Walk Text := do
  match ← current with
  | some (.name x) => do
    advance
    pure x
  | found => raise (.expectedName found) (← here)

/-- Moves on past `x`, if it stands at the cursor. -/
def accept (x : Lexeme) : Walk Bool := do
  if (← current) = some x then
    advance
    pure true
  else pure false

/-! ## Routines -/

/-- The routines of the grammar. -/
inductive Method : Type → Type where
  | statement : Method Stmt
  | block : Method Stmt
  | condition : Method Expr
  | declarationOrExpr : Method Expr
  | declaration : Method Expr
  | assignment : Method Expr
  | conditional : Method Expr
  | binary (level : Fin (BinaryOp.levels + 1)) : Method Expr
  | unary : Method Expr
  | postfixed : Method Expr
  | primary : Method Expr
  | arguments : Method (List Expr)

/-- The loops in these routines, each with what stands behind it in its routine. -/
inductive Loop : Type → Type where
  /-- Over the statements of a block. -/
  | statements : Loop (List Stmt)
  /-- Over the arguments behind the first one. -/
  | moreArguments : Loop (List Expr)
  /-- Over the operators of one level. -/
  | operations (level : Fin BinaryOp.levels) (left : Expr) : Loop Expr
  /-- Over calls and qualifications. -/
  | members (e : Expr) : Loop Expr

/-- A routine of the grammar or a loop in one. -/
inductive Routine (α : Type) where
  | method (m : Method α)
  | loop (l : Loop α)

/-- What a routine does, where `run` and `loop` run the routines and loops that it calls. -/
def Method.body (run : ∀ {β : Type}, Method β → Walk β) (loop : ∀ {β : Type}, Loop β → Walk β) :
    Method α → Walk α
  | .statement => do
    match ← current with
    | some (.symbol .leftBrace) => run .block
    | some (.keyword .ifWord) => do
      advance
      let c ← run .condition
      let thenStmt ← run .statement
      if ← accept (.keyword .elseWord) then
        let elseStmt ← run .statement
        pure (.ifElse c thenStmt elseStmt)
      else pure (.ifThen c thenStmt)
    | some (.keyword .whileWord) => do
      advance
      let c ← run .condition
      let body ← run .statement
      pure (.whileLoop c body)
    | some (.keyword .returnWord) => do
      advance
      if (← current) = some (.symbol .semicolon) then
        expect .semicolon
        pure .returnVoid
      else
        let value ← run .assignment
        expect .semicolon
        pure (.returnValue value)
    | _ =>
      if ← accept (.symbol .semicolon) then
        pure .empty
      else
        let e ← run .declarationOrExpr
        expect .semicolon
        pure (.expr e)
  | .block => do
    expect .leftBrace
    let body ← loop .statements
    pure (.block body)
  | .condition => do
    expect .leftParen
    let c ← run .assignment
    expect .rightParen
    pure c
  | .declarationOrExpr => do
    match ← current with
    | some (.name _) =>
      match ← peekNext with
      | some (.name _) => run .declaration
      | _ => run .assignment
    | _ => run .assignment
  | .declaration => do
    let type ← expectName
    let x ← expectName
    let e ← if ← accept (.symbol (.assign .set)) then do
        let value ← run .assignment
        pure (.declare type x value)
      else pure (.declareBare type x)
    if (← current) = some (.symbol .comma) then raise .severalVariables (← here)
    else pure e
  | .assignment => do
    let target ← run .conditional
    match ← current with
    | some (.symbol (.assign op)) => do
      let sign ← here
      advance
      match target with
      | .name x => do
        let value ← run .assignment
        pure (.assign (.name x) op value)
      | e => raise (.invalidTarget e) sign
    | _ => pure target
  | .conditional => do
    let c ← run (.binary 0)
    if ← accept (.symbol .question) then
      let a ← run .assignment
      expect .colon
      let b ← run .conditional
      pure (.conditional c a b)
    else pure c
  | .binary level =>
    if h : level < BinaryOp.levels then do
      let left ← run (.binary ⟨level + 1, Nat.succ_lt_succ h⟩)
      loop (.operations ⟨level, h⟩ left)
    else run .unary
  | .unary => do
    match (← current).bind Parser.unaryOf? with
    | some op => do
      advance
      let operand ← run .unary
      pure (.unary op operand)
    | none => run .postfixed
  | .postfixed => do
    let e ← run .primary
    loop (.members e)
  | .primary => do
    match ← current with
    | some (.symbol .leftParen) => do
      advance
      let inner ← run .assignment
      expect .rightParen
      pure (.enclosed inner)
    | some (.literal l) => do
      advance
      pure (.literal l)
    | some (.name x) => do
      advance
      if (← current) = some (.symbol .leftParen) then
        let args ← run .arguments
        pure (.call x args)
      else pure (.name x)
    | found => raise (.unexpected found) (← here)
  | .arguments => do
    expect .leftParen
    if (← current) = some (.symbol .rightParen) then
      expect .rightParen
      pure []
    else
      let first ← run .assignment
      let others ← loop .moreArguments
      pure (first :: others)

/-- What a loop does from the head of a round on. -/
def Loop.body (run : ∀ {β : Type}, Method β → Walk β) (loop : ∀ {β : Type}, Loop β → Walk β) :
    Loop α → Walk α
  | .statements => do
    match ← current with
    | some (.symbol .rightBrace) | none => do
      expect .rightBrace
      pure []
    | _ => do
      let first ← run .statement
      let others ← loop .statements
      pure (first :: others)
  | .moreArguments => do
    if ← accept (.symbol .comma) then
      let next ← run .assignment
      let others ← loop .moreArguments
      pure (next :: others)
    else
      expect .rightParen
      pure []
  | .operations level left => do
    match ← current with
    | some (.symbol (.binary op)) =>
      if op.precedence = level then
        advance
        let right ← run (.binary level.succ)
        loop (.operations level (.binary op left right))
      else pure left
    | _ => pure left
  | .members e => do
    if ← accept (.symbol .dot) then
      let start ← here
      let word ← expectName
      if (← current) = some (.symbol .leftParen) then
        let args ← run .arguments
        loop (.members (.scopedCall e word args))
      else
        match e with
        | .name x => loop (.members (.name (x ++ "." ++ word)))
        | _ => raise (.memberAccess word) start
    else pure e

/-- What a routine or a loop does, where `call` runs what it calls. -/
def Routine.body (call : ∀ {β : Type}, Routine β → Walk β) : Routine α → Walk α
  | .method m => m.body (fun m' => call (.method m')) fun l => call (.loop l)
  | .loop l => l.body (fun m => call (.method m)) fun l' => call (.loop l')

/-! ## Descent -/

/-- The place of a routine in the grammar: without moving the cursor it calls only routines of
smaller rank. A level of operators comes before all tighter ones. -/
def Method.rank : Method α → Nat
  | .statement => BinaryOp.levels + 7
  | .declarationOrExpr => BinaryOp.levels + 6
  | .assignment => BinaryOp.levels + 5
  | .conditional => BinaryOp.levels + 4
  | .binary level => BinaryOp.levels + 3 - level
  | .unary => 2
  | .postfixed => 1
  | .block | .condition | .declaration | .primary | .arguments => 0

/-- The place of a loop in the grammar. -/
def Loop.rank : Loop α → Nat
  | .statements => BinaryOp.levels + 8
  | .moreArguments | .operations .. | .members _ => 0

/-- The place of a routine or a loop in the grammar. -/
def Routine.rank : Routine α → Nat
  | .method m => m.rank
  | .loop l => l.rank

/-- A call is smaller than its caller: fewer marks are left, or as many and the rank is smaller.
Both are given by the number of marks left and the rank. -/
def Descends (caller call : Nat × Nat) : Prop :=
  call.1 < caller.1 ∨ call.1 = caller.1 ∧ call.2 < caller.2

instance (caller call : Nat × Nat) : Decidable (Descends caller call) :=
  inferInstanceAs (Decidable (_ ∨ _))

/-- Runs a routine or a loop, and with it everything that it calls, as long as the calls descend. -/
def run {γ : Type} (r : Routine γ) (ms : List (Option Lexeme)) (i : Nat) : Outcome γ :=
  r.body (fun r' ms' j =>
    if _ : Descends (ms.length - i, r.rank) (ms'.length - j, r'.rank) then run r' ms' j
    else .noDescent) ms i
termination_by (ms.length - i, r.rank)
decreasing_by exact Prod.lex_def.mpr ‹_›

-- Without a mark for the end the cursor stays at a name that comes last.
example : run (.method .primary) [some (.name [])] 0 = .done (.name []) 0 := by cbv

end Cursor

end LineShell
