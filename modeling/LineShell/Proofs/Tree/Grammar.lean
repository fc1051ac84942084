import LineShell.Lexeme
import LineShell.Tree
import Mathlib.Tactic.Lemma

/-!
# The grammar of trees

What the grammar allows is said here without any parser, in two parts.

* **The lexemes of a tree** (`Expr.lexemes`, `Stmt.lexemes`): the tree read from left to right. A
  variable with dots in its name gives its words with dots between them.
* **Well-formed trees** (`Expr.WellFormed`, `Stmt.WellFormed`): one rule for each form of tree.
  How forms nest is ruled by `Expr.tightness`, where the binary operators stand on the ten levels
  of `Grammar.levels`. The left operand of an operator binds at least as tightly as the operator
  and the right operand more tightly, so that operators of one level associate to the left;
  assignments and conditionals nest to the right.

A declaration is no well-formed expression. It is allowed in one place, directly under an
expression statement (`Expr.Declarative`). An `else` belongs to the nearest `if`, so the
then-branch of a choice with an else-branch must not end in a choice without one
(`Stmt.EndsOpen`).
-/

namespace LineShell

/-! ## Lexemes of trees -/

/-- The lexemes of a variable: its words, with dots between them. -/
def Expr.nameLexemes (x : Text) : List Lexeme :=
  match x.splitOn (('.' : Char) : CodePoint) with
  | [] => []
  | word :: words => .name word :: words.flatMap fun w => [.symbol .dot, .name w]

mutual

/-- The lexemes of an expression, from left to right. -/
def Expr.lexemes : Expr → List Lexeme
  | .literal l => [.literal l]
  | .name x => Expr.nameLexemes x
  | .binary op left right => left.lexemes ++ .symbol (.binary op) :: right.lexemes
  | .unary op operand => .symbol (.ofUnary op) :: operand.lexemes
  | .enclosed inner => .symbol .leftParen :: inner.lexemes ++ [.symbol .rightParen]
  | .conditional condition thenExpr elseExpr =>
    condition.lexemes ++ .symbol .question :: thenExpr.lexemes
      ++ .symbol .colon :: elseExpr.lexemes
  | .call f args => .name f :: .symbol .leftParen :: Expr.listLexemes args
  | .scopedCall scope f args =>
    scope.lexemes ++ .symbol .dot :: .name f :: .symbol .leftParen :: Expr.listLexemes args
  | .assign target op value => target.lexemes ++ .symbol (.assign op) :: value.lexemes
  | .declare type x initializer =>
    .name type :: .name x :: .symbol (.assign .set) :: initializer.lexemes
  | .declareBare type x => [.name type, .name x]

/-- The lexemes of arguments behind their opening parenthesis. -/
def Expr.listLexemes : List Expr → List Lexeme
  | [] => [.symbol .rightParen]
  | e :: rest => e.lexemes ++ Expr.moreLexemes rest

/-- The lexemes of the arguments behind the first one, each with its comma, and the closing
parenthesis. -/
def Expr.moreLexemes : List Expr → List Lexeme
  | [] => [.symbol .rightParen]
  | e :: rest => .symbol .comma :: e.lexemes ++ Expr.moreLexemes rest

end

mutual

/-- The lexemes of a statement, from left to right. -/
def Stmt.lexemes : Stmt → List Lexeme
  | .expr e => e.lexemes ++ [.symbol .semicolon]
  | .block body => .symbol .leftBrace :: Stmt.bodyLexemes body
  | .ifThen condition thenStmt =>
    .keyword .ifWord :: .symbol .leftParen :: condition.lexemes
      ++ .symbol .rightParen :: thenStmt.lexemes
  | .ifElse condition thenStmt elseStmt =>
    .keyword .ifWord :: .symbol .leftParen :: condition.lexemes
      ++ .symbol .rightParen :: thenStmt.lexemes ++ .keyword .elseWord :: elseStmt.lexemes
  | .whileLoop condition body =>
    .keyword .whileWord :: .symbol .leftParen :: condition.lexemes
      ++ .symbol .rightParen :: body.lexemes
  | .returnVoid => [.keyword .returnWord, .symbol .semicolon]
  | .returnValue value => .keyword .returnWord :: value.lexemes ++ [.symbol .semicolon]
  | .empty => [.symbol .semicolon]

/-- The lexemes of the statements of a block and of its closing brace. -/
def Stmt.bodyLexemes : List Stmt → List Lexeme
  | [] => [.symbol .rightBrace]
  | s :: rest => s.lexemes ++ Stmt.bodyLexemes rest

end

/-! ## Levels of binary operators -/

namespace Grammar

/-- The levels of the binary operators, the loosest one first. -/
def levels : List (List BinaryOp) :=
  [[.or], [.and], [.bitOr], [.bitXor], [.bitAnd], [.eq, .ne], [.lt, .gt, .le, .ge],
    [.shiftLeft, .shiftRight, .shiftRightUnsigned], [.add, .sub], [.mul, .div, .rem]]

/-- The level that a binary operator stands on. -/
def level (op : BinaryOp) : Nat :=
  levels.findIdx (op ∈ ·)

/-- The precedence of an operator is its level. -/
lemma level_eq_precedence (op : BinaryOp) : level op = op.precedence := by
  cases op <;> rfl

/-- There are as many levels as there are precedences. -/
lemma length_levels : levels.length = BinaryOp.levels := rfl

lemma level_lt (op : BinaryOp) : level op < levels.length := by
  rw [level_eq_precedence, length_levels]
  exact op.precedence_lt_levels

end Grammar

/-! ## Well-formed expressions -/

namespace Expr

/-- The tightness of unary operations, behind all levels of binary operators. -/
abbrev unaryTightness : Nat := Grammar.levels.length + 2

/-- The tightness of calls, qualified names and everything simpler. -/
abbrev postfixTightness : Nat := Grammar.levels.length + 3

/-- How tightly the outermost form of an expression binds: `0` for an assignment, `1` for a
conditional, from `2` on the levels of the binary operators, then unary operators, and at last
what needs no parentheses anywhere. -/
def tightness : Expr → Nat
  | assign .. => 0
  | conditional .. => 1
  | binary op .. => Grammar.level op + 2
  | unary .. => unaryTightness
  | literal _ | name _ | enclosed _ | call .. | scopedCall .. => postfixTightness
  | declare .. | declareBare .. => 0

/-- The expressions of the grammar, one rule for each form. -/
inductive WellFormed : Expr → Prop
  /-- A literal stands for itself. -/
  | literal (l : Literal) : WellFormed (.literal l)
  /-- So does a variable, with dots or without. -/
  | name (x : Text) : WellFormed (.name x)
  /-- Binary operators associate to the left. -/
  | binary {op : BinaryOp} {left right : Expr} (hleft : left.WellFormed)
      (hright : right.WellFormed) (left_le : Grammar.level op + 2 ≤ left.tightness)
      (right_lt : Grammar.level op + 2 < right.tightness) : WellFormed (.binary op left right)
  /-- A unary operator takes unary operations and whatever is tighter. -/
  | unary {op : UnaryOp} {operand : Expr} (hoperand : operand.WellFormed)
      (operand_le : unaryTightness ≤ operand.tightness) : WellFormed (.unary op operand)
  /-- Parentheses take every expression. -/
  | enclosed {inner : Expr} (hinner : inner.WellFormed) : WellFormed (.enclosed inner)
  /-- A conditional takes a chain of operators, any expression, and a conditional or tighter. -/
  | conditional {condition thenExpr elseExpr : Expr} (hcondition : condition.WellFormed)
      (hthen : thenExpr.WellFormed) (helse : elseExpr.WellFormed)
      (condition_le : 2 ≤ condition.tightness) (else_le : 1 ≤ elseExpr.tightness) :
      WellFormed (.conditional condition thenExpr elseExpr)
  /-- A call takes any expressions as arguments. -/
  | call {f : Text} {args : List Expr} (hargs : ∀ a ∈ args, a.WellFormed) :
      WellFormed (.call f args)
  /-- The scope of a call needs no parentheses. -/
  | scopedCall {scope : Expr} {f : Text} {args : List Expr} (hscope : scope.WellFormed)
      (hargs : ∀ a ∈ args, a.WellFormed) (scope_le : postfixTightness ≤ scope.tightness) :
      WellFormed (.scopedCall scope f args)
  /-- Only a variable is assigned to; assignments associate to the right. -/
  | assign {x : Text} {op : AssignOp} {value : Expr} (hvalue : value.WellFormed) :
      WellFormed (.assign (.name x) op value)

/-- What may stand directly under an expression statement: an expression, or a declaration whose
initializer is one. -/
inductive Declarative : Expr → Prop
  /-- Every expression may. -/
  | expr {e : Expr} (h : e.WellFormed) : Declarative e
  /-- A declaration with an initializer may. -/
  | declare {type x : Text} {initializer : Expr} (h : initializer.WellFormed) :
      Declarative (.declare type x initializer)
  /-- A declaration without an initializer may. -/
  | declareBare (type x : Text) : Declarative (.declareBare type x)

end Expr

/-! ## Well-formed statements -/

namespace Stmt

/-- Whether the statement ends in a choice without else-branch, so that an `else` behind it would
belong to that choice. -/
def EndsOpen : Stmt → Prop
  | ifThen .. => True
  | ifElse _ _ elseStmt => elseStmt.EndsOpen
  | whileLoop _ body => body.EndsOpen
  | _ => False

/-- The statements of the grammar, one rule for each form. -/
inductive WellFormed : Stmt → Prop
  /-- An expression or a declaration, and a semicolon. -/
  | expr {e : Expr} (he : e.Declarative) : WellFormed (.expr e)
  /-- Statements in braces. -/
  | block {body : List Stmt} (hbody : ∀ s ∈ body, s.WellFormed) : WellFormed (.block body)
  /-- A choice without else-branch. -/
  | ifThen {condition : Expr} {thenStmt : Stmt} (hcondition : condition.WellFormed)
      (hthen : thenStmt.WellFormed) : WellFormed (.ifThen condition thenStmt)
  /-- A choice with else-branch, which belongs to no `if` of the then-branch. -/
  | ifElse {condition : Expr} {thenStmt elseStmt : Stmt} (hcondition : condition.WellFormed)
      (hthen : thenStmt.WellFormed) (helse : elseStmt.WellFormed)
      (closed : ¬ thenStmt.EndsOpen) : WellFormed (.ifElse condition thenStmt elseStmt)
  /-- A loop. -/
  | whileLoop {condition : Expr} {body : Stmt} (hcondition : condition.WellFormed)
      (hbody : body.WellFormed) : WellFormed (.whileLoop condition body)
  /-- A return without value. -/
  | returnVoid : WellFormed .returnVoid
  /-- A return with a value. -/
  | returnValue {value : Expr} (hvalue : value.WellFormed) : WellFormed (.returnValue value)
  /-- A lone semicolon. -/
  | empty : WellFormed .empty

end Stmt

/-! ## Names with dots -/

namespace Expr

/-- A word without dots is one lexeme. -/
lemma nameLexemes_of_not_mem {word : Text} (h : (('.' : Char) : CodePoint) ∉ word) :
    nameLexemes word = [.name word] := by
  unfold nameLexemes
  rw [List.splitOn_eq_singleton h]
  rfl

/-- Qualifying a name by a word without dots appends a dot and the word to its lexemes. -/
lemma nameLexemes_qualified (x : Text) {word : Text} (h : (('.' : Char) : CodePoint) ∉ word) :
    nameLexemes (x ++ "." ++ word) = nameLexemes x ++ [.symbol .dot, .name word] := by
  have hdot : x ++ "." ++ word = x ++ (('.' : Char) : CodePoint) :: word := by
    rw [List.append_assoc]
    rfl
  unfold nameLexemes
  rw [hdot, List.splitOn_append_cons_self, List.splitOn_eq_singleton h]
  cases hsplit : x.splitOn (('.' : Char) : CodePoint) with
  | nil => exact absurd hsplit (List.splitOn_ne_nil _ _)
  | cons first words => simp

/-- A name is its words joined by dots, the first one with a dot and a word added at a time. -/
lemma exists_words (x : Text) :
    ∃ (first : Text) (words : List Text),
      nameLexemes x = .name first :: (words.flatMap fun w => [.symbol .dot, .name w]) ∧
        words.foldl (fun (y w : Text) => y ++ "." ++ w) first = x := by
  have hfold : ∀ (words : List Text) (first : Text),
      words.foldl (fun (y w : Text) => y ++ "." ++ w) first
        = [(('.' : Char) : CodePoint)].intercalate (first :: words) := by
    intro words
    induction words with
    | nil =>
        intro first
        simp
    | cons w words ih =>
        intro first
        rw [List.foldl_cons, ih, List.intercalate_cons_cons]
        cases words with
        | nil =>
            simp only [List.intercalate_singleton]
            rfl
        | cons v words =>
            rw [List.intercalate_cons_cons, List.intercalate_cons_cons]
            simp only [List.append_assoc]
            rfl
  have hjoin :
      [(('.' : Char) : CodePoint)].intercalate (x.splitOn (('.' : Char) : CodePoint)) = x :=
    List.intercalate_splitOn _
  unfold nameLexemes
  cases hsplit : x.splitOn (('.' : Char) : CodePoint) with
  | nil => exact absurd hsplit (List.splitOn_ne_nil _ _)
  | cons first words =>
      refine ⟨first, words, rfl, ?_⟩
      rw [hfold, ← hsplit, hjoin]

end Expr

end LineShell
