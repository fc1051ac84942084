import LineShell.Tree.Attach
import LineShell.Tree.Error

/-!
# From lexemes to trees

A statement is a block, a choice, a loop, a return, a lone semicolon, or a declaration or
expression followed by a semicolon. A declaration starts with two names in a row. Expressions are,
from the loosest form to the tightest: assignments, which associate to the right and assign to a
variable; conditionals; chains of binary operators; unary operators; calls and qualified names;
literals, variables and parentheses.

Each parser returns the tree and the lexemes behind it, together with a proof that some lexeme was
taken. Parsers are total because of these proofs.
-/

namespace LineShell

/-- A tree and the lexemes behind it, fewer than `bound`. -/
structure Parsed (α : Type) (bound : Nat) where
  /-- What was parsed. -/
  tree : α
  /-- The lexemes behind it. -/
  rest : List Lexeme
  /-- There are fewer lexemes than the bound. -/
  shorter : rest.length < bound

namespace Parser

/-! ## Single lexemes -/

/-- The symbol `s`, if it comes next. -/
def accept (s : Symbol) (ts : List Lexeme) : Option (Parsed Unit ts.length) :=
  match ts with
  | .symbol t :: rest => if t = s then some ⟨(), rest, by simp⟩ else none
  | _ => none

/-- The keyword `k`, if it comes next. -/
def acceptKeyword (k : Keyword) (ts : List Lexeme) : Option (Parsed Unit ts.length) :=
  match ts with
  | .keyword l :: rest => if l = k then some ⟨(), rest, by simp⟩ else none
  | _ => none

/-- The symbol `s`, which has to come next. -/
def expect (s : Symbol) (ts : List Lexeme) : Except GrammarError (Parsed Unit ts.length) :=
  match accept s ts with
  | some found => .ok found
  | none => .error ⟨.expectedSymbol s ts.head?, ts.length⟩

/-- A name, which has to come next. -/
def expectName (ts : List Lexeme) : Except GrammarError (Parsed Text ts.length) :=
  match ts with
  | .name x :: rest => .ok ⟨x, rest, by simp⟩
  | _ => .error ⟨.expectedName ts.head?, ts.length⟩

/-- A unary operator, if one comes next. -/
def unaryOp? (ts : List Lexeme) : Option (Parsed UnaryOp ts.length) :=
  match ts with
  | .symbol s :: rest =>
    match s.unary? with
    | some op => some ⟨op, rest, by simp⟩
    | none => none
  | _ => none

/-- A binary operator that binds at least as tightly as `level`, if one comes next. -/
def binaryOp? (level : Nat) (ts : List Lexeme) : Option (Parsed BinaryOp ts.length) :=
  match ts with
  | .symbol (.binary op) :: rest =>
    if level ≤ op.precedence then some ⟨op, rest, by simp⟩ else none
  | _ => none

/-- An assignment operator, if one comes next. -/
def assignOp? (ts : List Lexeme) : Option (Parsed AssignOp ts.length) :=
  match ts with
  | .symbol (.assign op) :: rest => some ⟨op, rest, by simp⟩
  | _ => none

/-! ## Expressions -/

mutual

/-- A literal, a variable, a call without scope, or an expression in parentheses. -/
def primary (ts : List Lexeme) : Except GrammarError (Parsed Expr ts.length) :=
  match ts with
  | .literal l :: rest => .ok ⟨.literal l, rest, by simp⟩
  | .symbol .leftParen :: rest => do
    let inner ← assignment rest
    let close ← expect .rightParen inner.rest
    have := inner.shorter
    have := close.shorter
    .ok ⟨.enclosed inner.tree, close.rest, by simp; omega⟩
  | .name x :: rest =>
    match accept .leftParen rest with
    | some _ => do
      let args ← arguments rest
      have := args.shorter
      .ok ⟨.call x args.tree, args.rest, by simp; omega⟩
    | none => .ok ⟨.name x, rest, by simp⟩
  | _ => .error ⟨.unexpected ts.head?, ts.length⟩
termination_by 8 * ts.length

/-- The arguments of a call in their parentheses. -/
def arguments (ts : List Lexeme) : Except GrammarError (Parsed (List Expr) ts.length) := do
  let opening ← expect .leftParen ts
  have := opening.shorter
  match accept .rightParen opening.rest with
  | some close =>
    have := close.shorter
    .ok ⟨[], close.rest, by omega⟩
  | none => do
    let first ← assignment opening.rest
    have := first.shorter
    let others ← moreArguments first.rest
    have := others.shorter
    .ok ⟨first.tree :: others.tree, others.rest, by omega⟩
termination_by 8 * ts.length

/-- The arguments behind the first one and the closing parenthesis. -/
def moreArguments (ts : List Lexeme) : Except GrammarError (Parsed (List Expr) ts.length) :=
  match accept .comma ts with
  | some comma => do
    have := comma.shorter
    let next ← assignment comma.rest
    have := next.shorter
    let others ← moreArguments next.rest
    have := others.shorter
    .ok ⟨next.tree :: others.tree, others.rest, by omega⟩
  | none => do
    let close ← expect .rightParen ts
    .ok ⟨[], close.rest, close.shorter⟩
termination_by 8 * ts.length

/-- Calls and qualifications behind `e`. -/
def members (e : Expr) (ts : List Lexeme) : Except GrammarError (Parsed Expr (ts.length + 1)) :=
  match accept .dot ts with
  | none => .ok ⟨e, ts, by omega⟩
  | some dot => do
    have := dot.shorter
    let member ← expectName dot.rest
    have := member.shorter
    match accept .leftParen member.rest with
    | some _ => do
      let args ← arguments member.rest
      have := args.shorter
      let whole ← members (.scopedCall e member.tree args.tree) args.rest
      have := whole.shorter
      .ok ⟨whole.tree, whole.rest, by omega⟩
    | none =>
      match e with
      | .name x => do
        let whole ← members (.name (x ++ "." ++ member.tree)) member.rest
        have := whole.shorter
        .ok ⟨whole.tree, whole.rest, by omega⟩
      | _ => .error ⟨.memberAccess member.tree, dot.rest.length⟩
termination_by 8 * ts.length

/-- A primary expression with calls and qualifications. -/
def postfixed (ts : List Lexeme) : Except GrammarError (Parsed Expr ts.length) := do
  let first ← primary ts
  have := first.shorter
  let whole ← members first.tree first.rest
  have := whole.shorter
  .ok ⟨whole.tree, whole.rest, by omega⟩
termination_by 8 * ts.length + 1

/-- Unary operators in front of a postfixed expression. -/
def unary (ts : List Lexeme) : Except GrammarError (Parsed Expr ts.length) :=
  match unaryOp? ts with
  | some op => do
    have := op.shorter
    let operand ← unary op.rest
    have := operand.shorter
    .ok ⟨.unary op.tree operand.tree, operand.rest, by omega⟩
  | none => postfixed ts
termination_by 8 * ts.length + 2

/-- Operators that bind at least as tightly as `level`, with their operands, behind `left`. -/
def operations (level : Nat) (left : Expr) (ts : List Lexeme) :
    Except GrammarError (Parsed Expr (ts.length + 1)) :=
  match binaryOp? level ts with
  | some op => do
    have := op.shorter
    let right ← unary op.rest
    have := right.shorter
    let whole ← operations level (left.attach op.tree right.tree) right.rest
    have := whole.shorter
    .ok ⟨whole.tree, whole.rest, by omega⟩
  | none => .ok ⟨left, ts, by omega⟩
termination_by 8 * ts.length

/-- A chain of operators that bind at least as tightly as `level`. -/
def binary (level : Nat) (ts : List Lexeme) : Except GrammarError (Parsed Expr ts.length) := do
  let first ← unary ts
  have := first.shorter
  let whole ← operations level first.tree first.rest
  have := whole.shorter
  .ok ⟨whole.tree, whole.rest, by omega⟩
termination_by 8 * ts.length + 3

/-- A chain of operators, or a choice between an expression and a conditional. -/
def conditional (ts : List Lexeme) : Except GrammarError (Parsed Expr ts.length) := do
  let condition ← binary 0 ts
  have := condition.shorter
  match accept .question condition.rest with
  | none => .ok condition
  | some question => do
    have := question.shorter
    let thenExpr ← assignment question.rest
    have := thenExpr.shorter
    let colon ← expect .colon thenExpr.rest
    have := colon.shorter
    let elseExpr ← conditional colon.rest
    have := elseExpr.shorter
    .ok ⟨.conditional condition.tree thenExpr.tree elseExpr.tree, elseExpr.rest, by omega⟩
termination_by 8 * ts.length + 4

/-- A conditional, or an assignment to a variable. -/
def assignment (ts : List Lexeme) : Except GrammarError (Parsed Expr ts.length) := do
  let target ← conditional ts
  have := target.shorter
  match assignOp? target.rest with
  | none => .ok target
  | some op =>
    match target.tree with
    | .name x => do
      have := op.shorter
      let value ← assignment op.rest
      have := value.shorter
      .ok ⟨.assign (.name x) op.tree value.tree, value.rest, by omega⟩
    | e => .error ⟨.invalidTarget e, target.rest.length⟩
termination_by 8 * ts.length + 5

end

/-! ## Declarations and statements -/

/-- Refuses a comma, with which a declaration would go on. -/
def refuseComma (ts : List Lexeme) : Except GrammarError Unit :=
  match accept .comma ts with
  | some _ => .error ⟨.severalVariables, ts.length⟩
  | none => .ok ()

/-- What stands behind the type `type` and the name `x` of a declaration. -/
def initializer (type x : Text) (ts : List Lexeme) :
    Except GrammarError (Parsed Expr (ts.length + 1)) :=
  match accept (.assign .set) ts with
  | some sign => do
    have := sign.shorter
    let value ← assignment sign.rest
    have := value.shorter
    refuseComma value.rest
    .ok ⟨.declare type x value.tree, value.rest, by omega⟩
  | none => do
    refuseComma ts
    .ok ⟨.declareBare type x, ts, by omega⟩

/-- A type, a name and possibly an initializer. -/
def declaration (ts : List Lexeme) : Except GrammarError (Parsed Expr ts.length) := do
  let type ← expectName ts
  have := type.shorter
  let x ← expectName type.rest
  have := x.shorter
  let whole ← initializer type.tree x.tree x.rest
  have := whole.shorter
  .ok ⟨whole.tree, whole.rest, by omega⟩

/-- A declaration if two names come next, and otherwise an expression. -/
def declarationOrExpr (ts : List Lexeme) : Except GrammarError (Parsed Expr ts.length) :=
  match ts with
  | .name type :: .name x :: rest => declaration (.name type :: .name x :: rest)
  | other => assignment other

/-- An expression in parentheses, without a node of its own. -/
def condition (ts : List Lexeme) : Except GrammarError (Parsed Expr ts.length) := do
  let opening ← expect .leftParen ts
  have := opening.shorter
  let inner ← assignment opening.rest
  have := inner.shorter
  let close ← expect .rightParen inner.rest
  have := close.shorter
  .ok ⟨inner.tree, close.rest, by omega⟩

mutual

/-- One statement. -/
def statement (ts : List Lexeme) : Except GrammarError (Parsed Stmt ts.length) :=
  match ts with
  | .symbol .leftBrace :: rest => block (.symbol .leftBrace :: rest)
  | .keyword .ifWord :: rest => do
    let condition ← condition rest
    have := condition.shorter
    let thenStmt ← statement condition.rest
    have := thenStmt.shorter
    match acceptKeyword .elseWord thenStmt.rest with
    | some word => do
      have := word.shorter
      let elseStmt ← statement word.rest
      have := elseStmt.shorter
      .ok ⟨.ifElse condition.tree thenStmt.tree elseStmt.tree, elseStmt.rest, by simp; omega⟩
    | none => .ok ⟨.ifThen condition.tree thenStmt.tree, thenStmt.rest, by simp; omega⟩
  | .keyword .whileWord :: rest => do
    let condition ← condition rest
    have := condition.shorter
    let body ← statement condition.rest
    have := body.shorter
    .ok ⟨.whileLoop condition.tree body.tree, body.rest, by simp; omega⟩
  | .keyword .returnWord :: rest =>
    match accept .semicolon rest with
    | some stop =>
      have := stop.shorter
      .ok ⟨.returnVoid, stop.rest, by simp; omega⟩
    | none => do
      let value ← assignment rest
      have := value.shorter
      let stop ← expect .semicolon value.rest
      have := stop.shorter
      .ok ⟨.returnValue value.tree, stop.rest, by simp; omega⟩
  | .symbol .semicolon :: rest => .ok ⟨.empty, rest, by simp⟩
  | other => do
    let e ← declarationOrExpr other
    have := e.shorter
    let stop ← expect .semicolon e.rest
    have := stop.shorter
    .ok ⟨.expr e.tree, stop.rest, by omega⟩
termination_by 4 * ts.length + 1

/-- Statements in braces. -/
def block (ts : List Lexeme) : Except GrammarError (Parsed Stmt ts.length) := do
  let opening ← expect .leftBrace ts
  have := opening.shorter
  let body ← statements opening.rest
  have := body.shorter
  .ok ⟨.block body.tree, body.rest, by omega⟩
termination_by 4 * ts.length

/-- The statements of a block and the closing brace. -/
def statements (ts : List Lexeme) : Except GrammarError (Parsed (List Stmt) ts.length) :=
  match ts with
  | [] => .error ⟨.expectedSymbol .rightBrace none, 0⟩
  | .symbol .rightBrace :: rest => .ok ⟨[], rest, by simp⟩
  | other => do
    let first ← statement other
    have := first.shorter
    let others ← statements first.rest
    have := others.shorter
    .ok ⟨first.tree :: others.tree, others.rest, by omega⟩
termination_by 4 * ts.length + 2

end

/-! ## Whole sources -/

/-- The tree, if no lexeme stands behind it. -/
def finish {α : Type} {n : Nat} (parsed : Parsed α n) : Except GrammarError α :=
  match parsed.rest with
  | [] => .ok parsed.tree
  | x :: rest => .error ⟨.trailing x, rest.length + 1⟩

end Parser

/-- The statement that the lexemes form. -/
def Stmt.ofLexemes (ts : List Lexeme) : Except GrammarError Stmt := do
  let parsed ← Parser.statement ts
  Parser.finish parsed

/-- The expression or declaration that the lexemes form. -/
def Expr.ofLexemes (ts : List Lexeme) : Except GrammarError Expr := do
  let parsed ← Parser.declarationOrExpr ts
  Parser.finish parsed

end LineShell
