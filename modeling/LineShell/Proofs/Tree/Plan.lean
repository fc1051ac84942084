import LineShell.Proofs.Tree.Steps

/-!
# Parsers as plans

Each parser is put together from a few steps: it looks at the next lexeme, takes it, goes on with
another parser, succeeds or fails. `Plan` is the type of what can be put together in this way, a
parser without the proof that it takes lexemes, and each parser has one equation here that says
which plan it is. Where `Takes` says when a parser succeeds, the equations also say when and where
it fails. A property that every step keeps holds of every parser by these equations.
-/

namespace LineShell

namespace Parser

variable {α β γ : Type} {n : Nat}

/-- From lexemes to a tree and the lexemes behind it, or to an error. -/
abbrev Plan (α : Type) := List Lexeme → Except GrammarError (α × List Lexeme)

/-- The result of a parser without the proof in it. -/
def outcome : Except GrammarError (Parsed α n) → Except GrammarError (α × List Lexeme)
  | .ok p => .ok (p.tree, p.rest)
  | .error e => .error e

/-- A parser as a plan. -/
def plan {bound : List Lexeme → Nat}
    (parser : (ts : List Lexeme) → Except GrammarError (Parsed α (bound ts))) : Plan α :=
  fun ts => outcome (parser ts)

lemma outcome_eq_ok_iff {result : Except GrammarError (Parsed α n)} {tree : α}
    {rest : List Lexeme} : outcome result = .ok (tree, rest) ↔ Takes result tree rest := by
  cases result with
  | error e => simp [outcome]
  | ok p => simp [outcome]

/-- A plan succeeds where its parser takes a tree. -/
lemma plan_eq_ok_iff {bound : List Lexeme → Nat}
    {parser : (ts : List Lexeme) → Except GrammarError (Parsed α (bound ts))} {ts : List Lexeme}
    {tree : α} {rest : List Lexeme} :
    plan parser ts = .ok (tree, rest) ↔ Takes (parser ts) tree rest :=
  outcome_eq_ok_iff

namespace Plan

/-! ## Steps -/

/-- Succeeds without taking anything. -/
def done (a : α) : Plan α :=
  fun ts => .ok (a, ts)

/-- Fails at the next lexeme. -/
def fail (issue : GrammarIssue) : Plan α :=
  fun ts => .error ⟨issue, ts.length⟩

/-- Goes on where the first plan stops. -/
def andThen (first : Plan α) (next : α → Plan β) : Plan β :=
  fun ts =>
    match first ts with
    | .ok (a, rest) => next a rest
    | .error e => .error e

/-- Decides by the next lexeme, and takes nothing. -/
def look (next : Option Lexeme → Plan α) : Plan α :=
  fun ts => next ts.head? ts

/-- Takes the next lexeme, whatever it is, and fails where there is none. -/
def advance (next : Plan α) : Plan α
  | [] => .error ⟨.unexpected none, 0⟩
  | _ :: ts => next ts

/-- Decides whether `x` comes next, and takes nothing. -/
def peek (x : Lexeme) (found other : Plan α) : Plan α :=
  look fun head => if head = some x then found else other

/-- Takes `x` if it comes next. -/
def choice (x : Lexeme) (found other : Plan α) : Plan α :=
  peek x (advance found) other

/-- Takes the symbol `s`, which has to come next. -/
def expecting (s : Symbol) (next : Plan α) : Plan α :=
  choice (.symbol s) next (look fun head => fail (.expectedSymbol s head))

/-- Takes a name, which has to come next. -/
def expectingName (next : Text → Plan α) : Plan α :=
  look fun head =>
    match head with
    | some (.name x) => advance (next x)
    | head => fail (.expectedName head)

/-- Fails at the word `word`, which was taken just before. -/
def refuseMember (word : Text) : Plan α :=
  fun ts => .error ⟨.memberAccess word, ts.length + 1⟩

/-- Goes on, unless a comma comes next. -/
def refusingComma (next : Plan α) : Plan α :=
  peek (.symbol .comma) (fail .severalVariables) next

/-- Succeeds if nothing is left behind the tree. -/
def whole (F : Plan α) : Plan α :=
  F.andThen fun a => look fun head =>
    match head with
    | none => done a
    | some x => fail (.trailing x)

lemma andThen_of_eq_ok {first : Plan α} {ts rest : List Lexeme} {a : α}
    (h : first ts = .ok (a, rest)) (next : α → Plan β) : first.andThen next ts = next a rest := by
  simp only [andThen, h]

lemma andThen_congr {first : Plan α} {next next' : α → Plan β}
    (h : ∀ ts a rest, first ts = .ok (a, rest) → next a rest = next' a rest) :
    first.andThen next = first.andThen next' := by
  funext ts
  unfold andThen
  rcases hfirst : first ts with e | ⟨a, rest⟩
  · rfl
  · exact h ts a rest hfirst

lemma andThen_assoc (first : Plan α) (next : α → Plan β) (last : β → Plan γ) :
    (first.andThen next).andThen last = first.andThen fun a => (next a).andThen last := by
  funext ts
  unfold andThen
  rcases first ts with e | ⟨a, rest⟩ <;> rfl

lemma andThen_done (first : Plan α) : first.andThen done = first := by
  funext ts
  unfold andThen
  rcases first ts with e | ⟨a, rest⟩ <;> rfl

lemma andThen_eq_error_iff {first : Plan α} {next : α → Plan β} {ts : List Lexeme}
    {e : GrammarError} :
    first.andThen next ts = .error e ↔
      first ts = .error e ∨ ∃ a rest, first ts = .ok (a, rest) ∧ next a rest = .error e := by
  unfold andThen
  rcases first ts with e' | ⟨a, rest⟩
  · simp
  · simp only [reduceCtorEq, false_or, Except.ok.injEq, Prod.mk.injEq]
    constructor
    · exact fun h => ⟨a, rest, ⟨rfl, rfl⟩, h⟩
    · rintro ⟨_, _, ⟨rfl, rfl⟩, h⟩
      exact h

lemma peek_of_head? {x : Lexeme} {ts : List Lexeme} (h : ts.head? = some x)
    (found other : Plan α) : peek x found other ts = found ts := by
  simp [peek, look, h]

lemma peek_of_head?_ne {x : Lexeme} {ts : List Lexeme} (h : ts.head? ≠ some x)
    (found other : Plan α) : peek x found other ts = other ts := by
  simp [peek, look, h]

lemma choice_of_eq_cons {x : Lexeme} {ts rest : List Lexeme} (h : ts = x :: rest)
    (found other : Plan α) : choice x found other ts = found rest := by
  subst h
  exact peek_of_head? rfl _ _

lemma choice_of_head?_ne {x : Lexeme} {ts : List Lexeme} (h : ts.head? ≠ some x)
    (found other : Plan α) : choice x found other ts = other ts :=
  peek_of_head?_ne h _ _

/-! ## Single lexemes -/

section

variable {s : Symbol} {k : Keyword} {ts : List Lexeme} {p : Parsed Unit ts.length}

lemma peek_of_accept (h : accept s ts = some p) (found other : Plan α) :
    peek (.symbol s) found other ts = found ts := by
  apply peek_of_head?
  rw [accept_eq_some_iff.mp h, List.head?_cons]

lemma peek_of_accept_eq_none (h : accept s ts = none) (found other : Plan α) :
    peek (.symbol s) found other ts = other ts :=
  peek_of_head?_ne (accept_eq_none_iff.mp h) _ _

lemma choice_of_accept (h : accept s ts = some p) (found other : Plan α) :
    choice (.symbol s) found other ts = found p.rest :=
  choice_of_eq_cons (accept_eq_some_iff.mp h) _ _

lemma choice_of_accept_eq_none (h : accept s ts = none) (found other : Plan α) :
    choice (.symbol s) found other ts = other ts :=
  choice_of_head?_ne (accept_eq_none_iff.mp h) _ _

lemma choice_of_acceptKeyword (h : acceptKeyword k ts = some p) (found other : Plan α) :
    choice (.keyword k) found other ts = found p.rest :=
  choice_of_eq_cons (acceptKeyword_eq_some_iff.mp h) _ _

lemma choice_of_acceptKeyword_eq_none (h : acceptKeyword k ts = none) (found other : Plan α) :
    choice (.keyword k) found other ts = other ts :=
  choice_of_head?_ne (acceptKeyword_eq_none_iff.mp h) _ _

end

/-! ## Parsers in a row -/

section

variable {bound : List Lexeme → Nat}
  {parser : (ts : List Lexeme) → Except GrammarError (Parsed α (bound ts))} {ts : List Lexeme}

/-- Two parsers in a row are two plans in a row. -/
lemma outcome_bind {f : Parsed α (bound ts) → Except GrammarError (Parsed β n)}
    {next : α → Plan β} (h : ∀ p, outcome (f p) = next p.tree p.rest) :
    outcome (parser ts >>= f) = (plan parser).andThen next ts := by
  unfold andThen plan
  rcases parser ts with e | p
  · rfl
  · exact h p

lemma outcome_expect {s : Symbol} {f : Parsed Unit ts.length → Except GrammarError (Parsed β n)}
    {next : Plan β} (h : ∀ p, outcome (f p) = next p.rest) :
    outcome (expect s ts >>= f) = expecting s next ts := by
  unfold expect expecting
  rcases haccept : accept s ts with _ | p
  · rw [choice_of_accept_eq_none haccept]
    rfl
  · rw [choice_of_accept haccept]
    exact h p

lemma outcome_expectName {f : Parsed Text ts.length → Except GrammarError (Parsed β n)}
    {next : Text → Plan β}
    (h : ∀ p, ts.length = p.rest.length + 1 → outcome (f p) = next p.tree p.rest) :
    outcome (expectName ts >>= f) = expectingName next ts := by
  unfold expectName
  split
  · exact h _ rfl
  · next hname =>
    rcases ts with _ | ⟨y, rest⟩
    · rfl
    · cases y with
      | name x => exact absurd rfl (hname x rest)
      | _ => rfl

/-- The last parser of a sequence, behind which only the proof is renewed. -/
lemma outcome_bind_self {f : Parsed α (bound ts) → Except GrammarError (Parsed α n)}
    (h : ∀ p, outcome (f p) = .ok (p.tree, p.rest)) :
    outcome (parser ts >>= f) = plan parser ts := by
  unfold plan
  rcases parser ts with e | p
  · rfl
  · exact h p

lemma outcome_refuseComma {f : Unit → Except GrammarError (Parsed β n)} {next : Plan β}
    (h : outcome (f ()) = next ts) :
    outcome (refuseComma ts >>= f) = refusingComma next ts := by
  unfold refuseComma refusingComma
  rcases haccept : accept .comma ts with _ | p
  · rw [peek_of_accept_eq_none haccept]
    exact h
  · rw [peek_of_accept haccept]
    rfl

end

end Plan

open Plan

/-! ## Expressions -/

lemma plan_primary : plan primary = look fun head =>
    match head with
    | some (.literal l) => advance (done (.literal l))
    | some (.symbol .leftParen) =>
        advance ((plan assignment).andThen fun inner =>
          expecting .rightParen (done (.enclosed inner)))
    | some (.name x) =>
        advance (peek (.symbol .leftParen)
          ((plan arguments).andThen fun args => done (.call x args)) (done (.name x)))
    | head => fail (.unexpected head) := by
  funext ts
  change outcome (primary ts) = _
  rw [primary.eq_def]
  split
  · rfl
  · exact outcome_bind fun inner => outcome_expect fun close => rfl
  · next x rest =>
    change _ = peek _ _ _ rest
    split
    · next hopen =>
      rw [peek_of_accept hopen]
      exact outcome_bind fun args => rfl
    · next hnone =>
      rw [peek_of_accept_eq_none hnone]
      rfl
  · next hliteral hparen hname =>
    rcases ts with _ | ⟨y, rest⟩
    · rfl
    · cases y with
      | literal l => exact absurd rfl (hliteral l rest)
      | name x => exact absurd rfl (hname x rest)
      | keyword k => rfl
      | symbol s =>
          cases s with
          | leftParen => exact absurd rfl (hparen rest)
          | _ => rfl

lemma plan_arguments : plan arguments = expecting .leftParen
    (choice (.symbol .rightParen) (done [])
      ((plan assignment).andThen fun first =>
        (plan moreArguments).andThen fun others => done (first :: others))) := by
  funext ts
  change outcome (arguments ts) = _
  rw [arguments]
  refine outcome_expect fun opening => ?_
  dsimp only
  split
  · next close hclose =>
    rw [choice_of_accept hclose]
    rfl
  · next hnone =>
    rw [choice_of_accept_eq_none hnone]
    exact outcome_bind fun first => outcome_bind fun others => rfl

lemma plan_moreArguments : plan moreArguments = choice (.symbol .comma)
    ((plan assignment).andThen fun next =>
      (plan moreArguments).andThen fun others => done (next :: others))
    (expecting .rightParen (done [])) := by
  funext ts
  change outcome (moreArguments ts) = _
  rw [moreArguments]
  split
  · next comma hcomma =>
    rw [choice_of_accept hcomma]
    exact outcome_bind fun next => outcome_bind fun others => rfl
  · next hnone =>
    rw [choice_of_accept_eq_none hnone]
    exact outcome_expect fun close => rfl

lemma plan_members (e : Expr) : plan (members e) = choice (.symbol .dot)
    (expectingName fun word => peek (.symbol .leftParen)
      ((plan arguments).andThen fun args => plan (members (.scopedCall e word args)))
      (match e with
        | .name x => plan (members (.name (x ++ "." ++ word)))
        | _ => refuseMember word))
    (done e) := by
  funext ts
  change outcome (members e ts) = _
  rw [members]
  split
  · next hnone =>
    rw [choice_of_accept_eq_none hnone]
    rfl
  · next dot hdot =>
    rw [choice_of_accept hdot]
    refine outcome_expectName fun member hlength => ?_
    split
    · next hopen =>
      rw [peek_of_accept hopen]
      exact outcome_bind fun args => outcome_bind_self fun whole => rfl
    · next hnone =>
      rw [peek_of_accept_eq_none hnone]
      cases e with
      | name x => exact outcome_bind_self fun whole => rfl
      | _ => exact congrArg (Except.error <| GrammarError.mk (.memberAccess member.tree) ·) hlength

lemma plan_postfixed : plan postfixed = (plan primary).andThen fun e => plan (members e) := by
  funext ts
  change outcome (postfixed ts) = _
  rw [postfixed]
  exact outcome_bind fun first => outcome_bind_self fun whole => rfl

/-- The unary operator that a lexeme is. -/
def unaryOf? : Lexeme → Option UnaryOp
  | .symbol s => s.unary?
  | _ => none

lemma exists_of_unaryOf? {ts : List Lexeme} {op : UnaryOp}
    (h : ts.head?.bind unaryOf? = some op) : ∃ rest, ts = .symbol (.ofUnary op) :: rest := by
  rcases ts with _ | ⟨y, rest⟩
  · cases h
  · cases y with
    | symbol s =>
        have hop : unaryOp? (.symbol s :: rest) = some ⟨op, rest, by simp⟩ := by
          simp only [List.head?_cons, Option.bind_some, unaryOf?] at h
          simp only [unaryOp?, h]
        exact ⟨rest, unaryOp?_eq_some_iff.mp hop⟩
    | _ => cases h

lemma plan_unary : plan unary = look fun head =>
    match head.bind unaryOf? with
    | some op => advance ((plan unary).andThen fun operand => done (.unary op operand))
    | none => plan postfixed := by
  funext ts
  change outcome (unary ts) = _
  rw [unary]
  split
  · next op hop =>
    obtain ⟨op, rest, hrest⟩ := op
    have hts : ts = .symbol (.ofUnary op) :: rest := unaryOp?_eq_some_iff.mp hop
    subst hts
    simp only [look, advance, List.head?_cons, Option.bind_some, unaryOf?, Symbol.unary?_ofUnary]
    exact outcome_bind fun operand => rfl
  · next hnone =>
    have hhead : ts.head?.bind unaryOf? = none := by
      rcases ts with _ | ⟨y, rest⟩
      · rfl
      · cases y with
        | symbol s =>
            unfold unaryOp? at hnone
            rcases hs : s.unary? with _ | op
            · simp [unaryOf?, hs]
            · simp [hs] at hnone
        | _ => rfl
    simp only [look, hhead]
    rfl

lemma plan_operations (level : Nat) (left : Expr) : plan (operations level left) = look fun head =>
    match head with
    | some (.symbol (.binary op)) =>
        if level ≤ op.precedence then
          advance ((plan unary).andThen fun right => plan (operations level (left.attach op right)))
        else done left
    | _ => done left := by
  funext ts
  change outcome (operations level left ts) = _
  rw [operations]
  split
  · next op hop =>
    obtain ⟨op, rest, hrest⟩ := op
    obtain ⟨hts, hle⟩ : ts = .symbol (.binary op) :: rest ∧ level ≤ op.precedence :=
      binaryOp?_eq_some_iff.mp hop
    subst hts
    simp only [look, List.head?_cons]
    rw [if_pos hle]
    exact outcome_bind fun right => outcome_bind_self fun whole => rfl
  · next hnone =>
    rw [binaryOp?_eq_none_iff] at hnone
    rcases ts with _ | ⟨y, rest⟩
    · rfl
    · cases y with
      | symbol s =>
          cases s with
          | binary op =>
              simp only [look, List.head?_cons]
              rw [if_neg fun hle => hnone op hle rfl]
              rfl
          | _ => rfl
      | _ => rfl

lemma plan_binary (level : Nat) :
    plan (binary level) = (plan unary).andThen fun first => plan (operations level first) := by
  funext ts
  change outcome (binary level ts) = _
  rw [binary]
  exact outcome_bind fun first => outcome_bind_self fun whole => rfl

lemma plan_conditional : plan conditional = (plan (binary 0)).andThen fun c =>
    choice (.symbol .question)
      ((plan assignment).andThen fun a =>
        expecting .colon ((plan conditional).andThen fun b => done (.conditional c a b)))
      (done c) := by
  funext ts
  change outcome (conditional ts) = _
  rw [conditional]
  refine outcome_bind fun c => ?_
  split
  · next hnone =>
    rw [choice_of_accept_eq_none hnone]
    rfl
  · next question hquestion =>
    rw [choice_of_accept hquestion]
    exact outcome_bind fun a => outcome_expect fun colon => outcome_bind fun b => rfl

lemma plan_assignment : plan assignment = (plan conditional).andThen fun target =>
    look fun head =>
      match head with
      | some (.symbol (.assign op)) =>
          match target with
          | .name x =>
              advance ((plan assignment).andThen fun value => done (.assign (.name x) op value))
          | e => fail (.invalidTarget e)
      | _ => done target := by
  funext ts
  change outcome (assignment ts) = _
  rw [assignment]
  refine outcome_bind fun target => ?_
  split
  · next hnone =>
    rw [assignOp?_eq_none_iff] at hnone
    obtain ⟨target, behind, hbehind⟩ := target
    rcases behind with _ | ⟨y, rest⟩
    · rfl
    · cases y with
      | symbol s =>
          cases s with
          | assign op => exact absurd rfl (hnone op)
          | _ => rfl
      | _ => rfl
  · next op hop =>
    obtain ⟨op, rest, hrest⟩ := op
    obtain ⟨target, behind, hbehind⟩ := target
    have hts : behind = .symbol (.assign op) :: rest := assignOp?_eq_some_iff.mp hop
    subst hts
    cases target with
    | name x => exact outcome_bind fun value => rfl
    | _ => rfl

/-! ## Declarations and statements -/

lemma plan_initializer (type x : Text) : plan (initializer type x) = choice (.symbol (.assign .set))
    ((plan assignment).andThen fun value => refusingComma (done (.declare type x value)))
    (refusingComma (done (.declareBare type x))) := by
  funext ts
  change outcome (initializer type x ts) = _
  unfold initializer
  split
  · next sign hsign =>
    rw [choice_of_accept hsign]
    exact outcome_bind fun value => outcome_refuseComma rfl
  · next hnone =>
    rw [choice_of_accept_eq_none hnone]
    exact outcome_refuseComma rfl

lemma plan_declaration : plan declaration =
    expectingName fun type => expectingName fun x => plan (initializer type x) := by
  funext ts
  change outcome (declaration ts) = _
  unfold declaration
  exact outcome_expectName fun type _ => outcome_expectName fun x _ =>
    outcome_bind_self fun whole => rfl

/-- Two names in a row start a declaration. -/
lemma plan_declarationOrExpr_eq_declaration (type x : Text) (ts : List Lexeme) :
    plan declarationOrExpr (.name type :: .name x :: ts) =
      plan declaration (.name type :: .name x :: ts) :=
  rfl

lemma plan_declarationOrExpr_of_names (type x : Text) (ts : List Lexeme) :
    plan declarationOrExpr (.name type :: .name x :: ts) = plan (initializer type x) ts := by
  rw [plan_declarationOrExpr_eq_declaration, plan_declaration]
  rfl

lemma plan_declarationOrExpr_of_ne {ts : List Lexeme}
    (h : ∀ type x ts', ts ≠ .name type :: .name x :: ts') :
    plan declarationOrExpr ts = plan assignment ts := by
  change outcome (declarationOrExpr ts) = _
  unfold declarationOrExpr
  split
  · exact absurd rfl (h _ _ _)
  · rfl

lemma plan_condition : plan condition = expecting .leftParen
    ((plan assignment).andThen fun c => expecting .rightParen (done c)) := by
  funext ts
  change outcome (condition ts) = _
  unfold condition
  exact outcome_expect fun opening => outcome_bind fun c => outcome_expect fun close => rfl

lemma plan_block : plan block = expecting .leftBrace
    ((plan statements).andThen fun body => done (.block body)) := by
  funext ts
  change outcome (block ts) = _
  rw [block]
  exact outcome_expect fun opening => outcome_bind fun body => rfl

namespace Plan

/-- A choice, behind its first word. -/
def ifStatement : Plan Stmt :=
  (plan condition).andThen fun c => (plan statement).andThen fun thenStmt =>
    choice (.keyword .elseWord)
      ((plan statement).andThen fun elseStmt => done (.ifElse c thenStmt elseStmt))
      (done (.ifThen c thenStmt))

/-- A loop, behind its first word. -/
def whileStatement : Plan Stmt :=
  (plan condition).andThen fun c =>
    (plan statement).andThen fun body => done (.whileLoop c body)

/-- A return, behind its word. -/
def returnStatement : Plan Stmt :=
  choice (.symbol .semicolon) (done .returnVoid)
    ((plan assignment).andThen fun value => expecting .semicolon (done (.returnValue value)))

/-- A declaration or expression and its semicolon. -/
def exprStatement : Plan Stmt :=
  (plan declarationOrExpr).andThen fun e => expecting .semicolon (done (.expr e))

end Plan

lemma plan_statement : plan statement = look fun head =>
    match head with
    | some (.symbol .leftBrace) => plan block
    | some (.keyword .ifWord) => advance ifStatement
    | some (.keyword .whileWord) => advance whileStatement
    | some (.keyword .returnWord) => advance returnStatement
    | some (.symbol .semicolon) => advance (done .empty)
    | _ => exprStatement := by
  funext ts
  change outcome (statement ts) = _
  rw [statement.eq_def]
  split
  · rfl
  · refine outcome_bind fun c => outcome_bind fun thenStmt => ?_
    split
    · next word hword =>
      rw [choice_of_acceptKeyword hword]
      exact outcome_bind fun elseStmt => rfl
    · next hnone =>
      rw [choice_of_acceptKeyword_eq_none hnone]
      rfl
  · exact outcome_bind fun c => outcome_bind fun body => rfl
  · next rest =>
    change _ = returnStatement rest
    unfold returnStatement
    split
    · next stop hstop =>
      rw [choice_of_accept hstop]
      rfl
    · next hnone =>
      rw [choice_of_accept_eq_none hnone]
      exact outcome_bind fun value => outcome_expect fun stop => rfl
  · rfl
  · next hbrace hif hwhile hreturn hsemicolon =>
    refine Eq.trans (b := exprStatement ts) ?_ ?_
    · exact outcome_bind fun e => outcome_expect fun stop => rfl
    rcases ts with _ | ⟨y, rest⟩
    · rfl
    · cases y with
      | symbol s =>
          cases s with
          | leftBrace => exact absurd rfl (hbrace rest)
          | semicolon => exact absurd rfl (hsemicolon rest)
          | _ => rfl
      | keyword k =>
          cases k with
          | ifWord => exact absurd rfl (hif rest)
          | whileWord => exact absurd rfl (hwhile rest)
          | returnWord => exact absurd rfl (hreturn rest)
          | _ => rfl
      | _ => rfl

lemma plan_statements : plan statements = look fun head =>
    match head with
    | none => fail (.expectedSymbol .rightBrace none)
    | some (.symbol .rightBrace) => advance (done [])
    | some _ => (plan statement).andThen fun first =>
        (plan statements).andThen fun others => done (first :: others) := by
  funext ts
  change outcome (statements ts) = _
  rw [statements.eq_def]
  split
  · rfl
  · rfl
  · next hnil hbrace =>
    refine Eq.trans (b := (plan statement).andThen (fun first =>
      (plan statements).andThen fun others => done (first :: others)) ts) ?_ ?_
    · exact outcome_bind fun first => outcome_bind fun others => rfl
    rcases ts with _ | ⟨y, rest⟩
    · exact absurd rfl hnil
    · cases y with
      | symbol s =>
          cases s with
          | rightBrace => exact absurd rfl (hbrace rest)
          | _ => rfl
      | _ => rfl

/-! ## Whole sources -/

/-- A parser up to the end of its source. -/
lemma bind_finish_eq {bound : List Lexeme → Nat}
    (parser : (ts : List Lexeme) → Except GrammarError (Parsed α (bound ts))) (ts : List Lexeme) :
    (parser ts >>= finish) = ((plan parser).whole ts).map Prod.fst := by
  unfold whole andThen plan
  rcases parser ts with e | ⟨tree, rest, hrest⟩
  · rfl
  · cases rest with
    | nil => rfl
    | cons x rest => rfl

end Parser

lemma Stmt.ofLexemes_eq (ts : List Lexeme) :
    Stmt.ofLexemes ts = ((Parser.plan Parser.statement).whole ts).map Prod.fst :=
  Parser.bind_finish_eq Parser.statement ts

lemma Expr.ofLexemes_eq (ts : List Lexeme) :
    Expr.ofLexemes ts = ((Parser.plan Parser.declarationOrExpr).whole ts).map Prod.fst :=
  Parser.bind_finish_eq Parser.declarationOrExpr ts

end LineShell
