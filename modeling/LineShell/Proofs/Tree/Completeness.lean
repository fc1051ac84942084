import LineShell.Proofs.Tree.Precedence
import LineShell.Proofs.Tree.Steps
import Mathlib.Order.Nat

/-!
# Parsers take every well-formed tree

The lexemes of a well-formed tree are parsed into that tree, whatever stands behind them, as long
as it does not go on with the tree (`statement_complete`, `declarationOrExpr_complete`).

What may follow depends on the form. A dot goes on with a name, a binary operator with a chain of
operators, an assignment operator with a variable; `Ends` says that nothing of the kind comes next.
The two loops build their trees from the left, so a tree is not parsed from its parts. Instead the
lexemes of the tree bring the loop to the point where it holds the tree (`Complete.postfixed`,
`Complete.chain`), and there the loop ends because of what follows.
-/

namespace LineShell

/-! ## What follows a tree -/

/-- The tightness of the forms that the lexeme goes on with. -/
def Lexeme.continues : Lexeme → Option Nat
  | .symbol .dot | .symbol .leftParen => some Expr.postfixTightness
  | .symbol (.binary _) => some 2
  | .symbol .question => some 1
  | .symbol (.assign _) => some 0
  | _ => none

namespace Parser

/-- Nothing comes next that goes on with a form of tightness `least` or more. -/
def Ends (least : Nat) (rest : List Lexeme) : Prop :=
  ∀ x, rest.head? = some x → ∀ k, x.continues = some k → k < least

lemma Ends.mono {least least' : Nat} {rest : List Lexeme} (h : Ends least rest)
    (hle : least ≤ least') : Ends least' rest :=
  fun x hx k hk => lt_of_lt_of_le (h x hx k hk) hle

lemma Ends.head_ne {least k : Nat} {rest : List Lexeme} {x : Lexeme} (h : Ends least rest)
    (hx : x.continues = some k) (hle : least ≤ k) : rest.head? ≠ some x :=
  fun hhead => absurd (h x hhead k hx) (by omega)

lemma ends_cons {least : Nat} {x : Lexeme} (h : ∀ k, x.continues = some k → k < least)
    (rest : List Lexeme) : Ends least (x :: rest) := by
  intro y hy
  cases hy
  exact h

/-- A lexeme that goes on with nothing ends every form. -/
lemma ends_cons_of_none (least : Nat) {x : Lexeme} (h : x.continues = none)
    (rest : List Lexeme) : Ends least (x :: rest) :=
  ends_cons (by simp [h]) rest

lemma ends_nil (least : Nat) : Ends least [] := by
  intro x hx
  cases hx

end Parser

/-! ## How trees start -/

namespace Expr

/-- Whether the lexeme starts a literal, a variable, a call or parentheses. -/
def startsPrimary : Lexeme → Bool
  | .literal _ | .name _ | .symbol .leftParen => true
  | _ => false

/-- An expression starts with a primary expression or a unary operator. -/
def startsExpr (x : Lexeme) : Prop :=
  startsPrimary x = true ∨ ∃ op, x = .symbol (.ofUnary op)

/-- Two names do not start the lexemes. -/
def NoTwoNames (ts : List Lexeme) : Prop :=
  ∀ x y rest, ts ≠ .name x :: .name y :: rest

lemma WellFormed.exists_startsPrimary {e : Expr} (he : e.WellFormed)
    (htight : postfixTightness ≤ e.tightness) :
    ∃ x ts, e.lexemes = x :: ts ∧ startsPrimary x = true := by
  induction he with
  | literal l => exact ⟨_, _, rfl, rfl⟩
  | name x =>
      obtain ⟨first, words, hwords, -⟩ := exists_words x
      exact ⟨_, _, hwords, rfl⟩
  | enclosed hinner ih => exact ⟨_, _, rfl, rfl⟩
  | call hargs ih => exact ⟨_, _, rfl, rfl⟩
  | scopedCall hscope hargs hle ih =>
      obtain ⟨x, ts, hts, hx⟩ := ih hle
      exact ⟨x, _, by rw [lexemes, hts, List.cons_append], hx⟩
  | binary hl hr hle hlt ihl ihr =>
      have := level_add_two_lt ‹BinaryOp›
      simp only [tightness, unaryTightness, postfixTightness] at htight this
      omega
  | unary h hle ih => exact absurd htight (Nat.not_succ_le_self _)
  | conditional => exact absurd htight (by decide : ¬ postfixTightness ≤ 1)
  | assign => exact absurd htight (Nat.not_succ_le_zero _)

lemma WellFormed.exists_startsExpr {e : Expr} (he : e.WellFormed) :
    ∃ x ts, e.lexemes = x :: ts ∧ startsExpr x := by
  -- Every form starts with its leftmost part.
  have hfront : ∀ {e : Expr} (rest : List Lexeme), (∃ x ts, e.lexemes = x :: ts ∧ startsExpr x) →
      ∃ x ts, e.lexemes ++ rest = x :: ts ∧ startsExpr x := by
    rintro e rest ⟨x, ts, hts, hx⟩
    exact ⟨x, ts ++ rest, by rw [hts, List.cons_append], hx⟩
  induction he with
  | literal l => exact ⟨_, _, rfl, .inl rfl⟩
  | name x =>
      obtain ⟨first, words, hwords, -⟩ := exists_words x
      exact ⟨_, _, hwords, .inl rfl⟩
  | enclosed hinner ih => exact ⟨_, _, rfl, .inl rfl⟩
  | call hargs ih => exact ⟨_, _, rfl, .inl rfl⟩
  | unary h hle ih => exact ⟨_, _, rfl, .inr ⟨_, rfl⟩⟩
  | scopedCall hscope hargs hle ih => exact hfront _ ih
  | binary hl hr hle hlt ihl ihr => exact hfront _ ihl
  | conditional hc ha hb hle hle' ihc iha ihb =>
      rw [lexemes, List.append_assoc]
      exact hfront _ ihc
  | assign hvalue ih =>
      obtain ⟨first, words, hwords, -⟩ := exists_words ‹Text›
      exact ⟨_, _, by rw [lexemes, lexemes, hwords, List.cons_append], .inl rfl⟩

lemma Declarative.exists_startsExpr {e : Expr} (he : e.Declarative) :
    ∃ x ts, e.lexemes = x :: ts ∧ startsExpr x := by
  cases he with
  | expr h => exact h.exists_startsExpr
  | declare h => exact ⟨_, _, rfl, .inl rfl⟩
  | declareBare type x => exact ⟨_, _, rfl, .inl rfl⟩

/-- No two names in a row start an expression, unless it is a single name and a name follows. -/
lemma WellFormed.noTwoNames {e : Expr} (he : e.WellFormed) {rest : List Lexeme}
    (hrest : ∀ x, rest.head? ≠ some (.name x)) : NoTwoNames (e.lexemes ++ rest) := by
  have hwords : ∀ (x : Text) {rest : List Lexeme}, (∀ x, rest.head? ≠ some (.name x)) →
      NoTwoNames (nameLexemes x ++ rest) := by
    intro x rest hrest a b ts heq
    obtain ⟨first, words, hwords, -⟩ := exists_words x
    rw [hwords] at heq
    cases words with
    | nil =>
        have hrest' : rest = .name b :: ts := by simpa using (List.cons.inj heq).2
        exact hrest b (by rw [hrest', List.head?_cons])
    | cons w words => simp at heq
  induction he generalizing rest with
  | literal l => simp [lexemes, NoTwoNames]
  | name x => exact hwords x hrest
  | enclosed hinner ih => simp [lexemes, NoTwoNames]
  | call hargs ih => simp [lexemes, NoTwoNames]
  | unary h hle ih => simp [lexemes, NoTwoNames]
  | scopedCall hscope hargs hle ih =>
      rw [lexemes, List.append_assoc]
      exact ih (by simp)
  | binary hl hr hle hlt ihl ihr =>
      rw [lexemes, List.append_assoc]
      exact ihl (by simp)
  | conditional hc ha hb hle hle' ihc iha ihb =>
      rw [lexemes, List.append_assoc, List.append_assoc]
      exact ihc (by simp)
  | assign hvalue ih =>
      rw [lexemes, lexemes, List.append_assoc]
      exact hwords _ (by simp)

end Expr

namespace Parser

/-! ## Expressions -/

/-- The parser takes the lexemes of the expression as a whole, if nothing of the tightness `least`
or more follows. -/
def TakesWhole (parser : (ts : List Lexeme) → Except GrammarError (Parsed Expr ts.length))
    (least : Nat) (e : Expr) : Prop :=
  ∀ rest : List Lexeme, Ends least rest → Takes (parser (e.lexemes ++ rest)) e rest

/-- Behind the lexemes of the expression the loop over calls and qualifications holds it. -/
def HeldByMembers (e : Expr) : Prop :=
  ∀ rest : List Lexeme, rest.head? ≠ some (.symbol .leftParen) → ∀ whole rest',
    Takes (members e rest) whole rest' → Takes (postfixed (e.lexemes ++ rest)) whole rest'

/-- Behind the lexemes of the expression the loop over operators holds it. -/
def HeldByOperations (e : Expr) : Prop :=
  ∀ rest : List Lexeme, Ends Expr.postfixTightness rest → ∀ whole rest',
    Takes (operations 0 e rest) whole rest' → Takes (binary 0 (e.lexemes ++ rest)) whole rest'

/-- If the loop over operators holds a chain, then behind an operator and the lexemes of the
expression it holds the chain that goes on with them. -/
def GraftedByOperations (e : Expr) : Prop :=
  ∀ (left : Expr) (op : BinaryOp) (rest : List Lexeme), Ends Expr.postfixTightness rest →
    ∀ whole rest', Takes (operations 0 (left.graft op e) rest) whole rest' →
    Takes (operations 0 left (.symbol (.binary op) :: (e.lexemes ++ rest))) whole rest'

/-- The lexemes of the expression are parsed into it by the parsers of all forms that are no
tighter. -/
structure Complete (e : Expr) : Prop where
  /-- As a primary expression with calls and qualifications. -/
  members : Expr.postfixTightness ≤ e.tightness → HeldByMembers e
  /-- As an operand. -/
  operand : Expr.unaryTightness ≤ e.tightness → TakesWhole unary Expr.postfixTightness e
  /-- As the beginning of a chain. -/
  chain : 2 ≤ e.tightness → HeldByOperations e
  /-- As what follows an operator. -/
  graft : 2 ≤ e.tightness → GraftedByOperations e
  /-- As a conditional. -/
  choice : 1 ≤ e.tightness → TakesWhole conditional 1 e
  /-- As an assignment. -/
  whole : TakesWhole assignment 0 e

/-! ### From tighter parsers to looser ones -/

lemma takes_members_self (e : Expr) {rest : List Lexeme} (h : Ends Expr.postfixTightness rest) :
    Takes (members e rest) e rest :=
  takes_members_iff.mpr (.inl ⟨h.head_ne rfl le_rfl, rfl, rfl⟩)

lemma takes_operations_self (e : Expr) {rest : List Lexeme} (h : Ends 2 rest) :
    Takes (operations 0 e rest) e rest :=
  takes_operations_iff.mpr (.inr ⟨fun _ _ => h.head_ne rfl le_rfl, rfl, rfl⟩)

lemma takesWhole_assignment {e : Expr} (h : TakesWhole conditional 1 e) :
    TakesWhole assignment 0 e := by
  intro rest hends
  have hconditional := h rest (hends.mono (Nat.zero_le 1))
  exact takes_assignment_iff.mpr (.inl ⟨hconditional, fun _ => hends.head_ne rfl le_rfl⟩)

lemma takesWhole_conditional {e : Expr} (h : HeldByOperations e) :
    TakesWhole conditional 1 e := by
  intro rest hends
  have hloop := takes_operations_self e (hends.mono (by decide))
  have hbinary := h rest (hends.mono (by decide)) e rest hloop
  exact takes_conditional_iff.mpr (.inl ⟨hbinary, hends.head_ne rfl le_rfl⟩)

lemma heldByOperations {e : Expr} (h : TakesWhole unary Expr.postfixTightness e) :
    HeldByOperations e := by
  intro rest hends whole rest' hloop
  exact takes_binary_iff.mpr ⟨e, rest, h rest hends, hloop⟩

lemma graftedByOperations {e : Expr} (h : TakesWhole unary Expr.postfixTightness e)
    (hgraft : ∀ left op, Expr.graft left op e = left.attach op e) : GraftedByOperations e := by
  intro left op rest hends whole rest' hloop
  rw [hgraft] at hloop
  exact takes_operations_iff.mpr
    (.inl ⟨op, e, _, rest, rfl, Nat.zero_le _, h rest hends, hloop⟩)

lemma takesWhole_unary {e : Expr} (he : e.WellFormed)
    (htight : Expr.postfixTightness ≤ e.tightness) (h : HeldByMembers e) :
    TakesWhole unary Expr.postfixTightness e := by
  intro rest hends
  have hparen := hends.head_ne (x := .symbol .leftParen) rfl le_rfl
  refine takes_unary_iff.mpr (.inr ⟨?_, h rest hparen e rest (takes_members_self e hends)⟩)
  -- A primary expression starts with no operator.
  intro op hop
  obtain ⟨x, ts, hts, hx⟩ := he.exists_startsPrimary htight
  rw [hts, List.cons_append, List.head?_cons, Option.some.injEq] at hop
  rw [hop] at hx
  cases op <;> simp [Symbol.ofUnary, Expr.startsPrimary] at hx

lemma complete_of_assignment {e : Expr} (hloose : e.tightness = 0)
    (h : TakesWhole assignment 0 e) : Complete e where
  members htight := absurd htight (by simp [hloose])
  operand htight := absurd htight (by simp [hloose])
  chain htight := absurd htight (by simp [hloose])
  graft htight := absurd htight (by simp [hloose])
  choice htight := absurd htight (by simp [hloose])
  whole := h

lemma complete_of_conditional {e : Expr} (hloose : e.tightness = 1)
    (h : TakesWhole conditional 1 e) : Complete e where
  members htight := absurd htight (by rw [hloose]; decide)
  operand htight := absurd htight (by rw [hloose]; decide)
  chain htight := absurd htight (by rw [hloose]; decide)
  graft htight := absurd htight (by rw [hloose]; decide)
  choice _ := h
  whole := takesWhole_assignment h

lemma complete_of_chain {e : Expr} (hloose : e.tightness < Expr.unaryTightness)
    (hchain : HeldByOperations e) (hgraft : GraftedByOperations e) : Complete e where
  members htight := absurd htight
    (by simp only [Expr.unaryTightness, Expr.postfixTightness] at hloose ⊢; omega)
  operand htight := absurd htight (by omega)
  chain _ := hchain
  graft _ := hgraft
  choice _ := takesWhole_conditional hchain
  whole := takesWhole_assignment (takesWhole_conditional hchain)

lemma complete_of_unary {e : Expr} (hloose : e.tightness < Expr.postfixTightness)
    (hgraft : ∀ left op, Expr.graft left op e = left.attach op e)
    (h : TakesWhole unary Expr.postfixTightness e) : Complete e where
  members htight := absurd htight (by omega)
  operand _ := h
  chain _ := heldByOperations h
  graft _ := graftedByOperations h hgraft
  choice _ := takesWhole_conditional (heldByOperations h)
  whole := takesWhole_assignment (takesWhole_conditional (heldByOperations h))

lemma complete_of_members {e : Expr} (he : e.WellFormed)
    (htight : Expr.postfixTightness ≤ e.tightness)
    (hgraft : ∀ left op, Expr.graft left op e = left.attach op e) (h : HeldByMembers e) :
    Complete e := by
  have hunary := takesWhole_unary he htight h
  have hchain := heldByOperations hunary
  have hchoice := takesWhole_conditional hchain
  exact ⟨fun _ => h, fun _ => hunary, fun _ => hchain, fun _ => graftedByOperations hunary hgraft,
    fun _ => hchoice, takesWhole_assignment hchoice⟩

/-! ### The forms of expression -/

lemma moreArguments_complete {args : List Expr} (h : ∀ a ∈ args, Complete a)
    (rest : List Lexeme) : Takes (moreArguments (Expr.moreLexemes args ++ rest)) args rest := by
  induction args with
  | nil => exact takes_moreArguments_iff.mpr (.inl ⟨rfl, rfl⟩)
  | cons a args ih =>
      have hmore := ih fun b hb => h b (List.mem_cons_of_mem a hb)
      have hends : Ends 0 (Expr.moreLexemes args ++ rest) := by
        cases args <;> exact ends_cons_of_none 0 rfl _
      have ha := (h a List.mem_cons_self).whole _ hends
      refine takes_moreArguments_iff.mpr (.inr ⟨a, args, _, _, ?_, ha, hmore, rfl⟩)
      simp [Expr.moreLexemes]

lemma arguments_complete {args : List Expr} (hwf : ∀ a ∈ args, a.WellFormed)
    (h : ∀ a ∈ args, Complete a) (rest : List Lexeme) :
    Takes (arguments (.symbol .leftParen :: (Expr.listLexemes args ++ rest))) args rest := by
  cases args with
  | nil => exact takes_arguments_iff.mpr (.inl ⟨rfl, rfl⟩)
  | cons a args =>
      have hmore := moreArguments_complete (fun b hb => h b (List.mem_cons_of_mem a hb)) rest
      have hends : Ends 0 (Expr.moreLexemes args ++ rest) := by
        cases args <;> exact ends_cons_of_none 0 rfl _
      have ha := (h a List.mem_cons_self).whole _ hends
      refine takes_arguments_iff.mpr (.inr ⟨a, args, _, _, rfl, ?_, ?_, hmore, rfl⟩)
      · obtain ⟨x, ts, hts, hx⟩ := (hwf a List.mem_cons_self).exists_startsExpr
        rw [Expr.listLexemes, hts]
        rintro hhead
        cases hhead
        rcases hx with hx | ⟨op, hop⟩
        · cases hx
        · cases op <;> cases hop
      · rw [Expr.listLexemes, List.append_assoc]
        exact ha

lemma heldByMembers_name (x : Text) : HeldByMembers (.name x) := by
  intro rest hparen whole rest' hloop
  obtain ⟨first, words, hwords, hjoin⟩ := Expr.exists_words x
  rw [Expr.lexemes, hwords, List.cons_append]
  -- The loop takes the words behind the first one, one at a time.
  have hrun : ∀ (words : List Text) (y : Text),
      Takes (members (.name (words.foldl (fun (y w : Text) => y ++ "." ++ w) y)) rest) whole rest' →
      Takes (members (.name y) ((words.flatMap fun w => [.symbol .dot, .name w]) ++ rest)) whole
        rest' := by
    intro words
    induction words with
    | nil =>
        intro y h
        exact h
    | cons w words ih =>
        intro y h
        refine takes_members_iff.mpr (.inr (.inr ⟨y, w, _, rfl, ?_, rfl, ih _ h⟩))
        cases words with
        | nil => exact hparen
        | cons v words => simp
  have hprimary : Takes (primary (.name first ::
      ((words.flatMap fun w => [.symbol .dot, .name w]) ++ rest))) (.name first)
      ((words.flatMap fun w => [.symbol .dot, .name w]) ++ rest) := by
    refine takes_primary_iff.mpr (.inr (.inr (.inr ⟨first, rfl, ?_, rfl⟩)))
    cases words with
    | nil => exact hparen
    | cons w words => simp
  refine takes_postfixed_iff.mpr ⟨_, _, hprimary, hrun words first ?_⟩
  rw [hjoin]
  exact hloop

/-- Every well-formed expression is parsed from its lexemes. -/
lemma complete {e : Expr} (he : e.WellFormed) : Complete e := by
  induction he with
  | literal l =>
      refine complete_of_members (.literal l) le_rfl (fun _ _ => rfl) ?_
      intro rest _ whole rest' hloop
      exact takes_postfixed_iff.mpr ⟨_, rest, takes_primary_iff.mpr (.inl ⟨l, rfl, rfl⟩), hloop⟩
  | name x => exact complete_of_members (.name x) le_rfl (fun _ _ => rfl) (heldByMembers_name x)
  | @binary op left right hl hr hle hlt ihl ihr =>
      have hgraft := Expr.graft_eq_binary hr hle hlt
      have hends : ∀ (o : BinaryOp) (ts : List Lexeme),
          Ends Expr.postfixTightness (.symbol (.binary o) :: ts) := by
        intro o ts
        refine ends_cons ?_ ts
        rintro k ⟨⟩
        decide
      refine complete_of_chain (Expr.level_add_two_lt op) ?_ ?_
      · intro rest hrest whole rest' hloop
        rw [Expr.lexemes, List.append_assoc]
        refine ihl.chain (by omega) _ (hends op _) whole rest' ?_
        exact ihr.graft (by omega) left op rest hrest whole rest' (hgraft ▸ hloop)
      · intro left' op' rest hrest whole rest' hloop
        rw [Expr.lexemes, List.append_assoc]
        refine ihl.graft (by omega) left' op' _ (hends op _) whole rest' ?_
        exact ihr.graft (by omega) _ op rest hrest whole rest' hloop
  | @unary op operand h hle ih =>
      refine complete_of_unary (Nat.lt_succ_self _) (fun _ _ => rfl) ?_
      intro rest hrest
      exact takes_unary_iff.mpr (.inl ⟨op, operand, _, rfl, ih.operand hle rest hrest, rfl⟩)
  | @enclosed inner h ih =>
      refine complete_of_members (.enclosed h) le_rfl (fun _ _ => rfl) ?_
      intro rest _ whole rest' hloop
      have hinner := ih.whole (.symbol .rightParen :: rest) (ends_cons_of_none 0 rfl rest)
      have hprimary : Takes (primary ((Expr.enclosed inner).lexemes ++ rest)) (.enclosed inner)
          rest := by
        refine takes_primary_iff.mpr (.inr (.inl ⟨inner, _, ?_, hinner, rfl⟩))
        simp [Expr.lexemes]
      exact takes_postfixed_iff.mpr ⟨_, rest, hprimary, hloop⟩
  | @conditional c a b hc ha hb hle hle' ihc iha ihb =>
      refine complete_of_conditional rfl ?_
      intro rest hrest
      have hquestion : Ends 2 (.symbol .question ::
          (a.lexemes ++ .symbol .colon :: (b.lexemes ++ rest))) := by
        refine ends_cons ?_ _
        rintro k ⟨⟩
        decide
      have hloop := takes_operations_self c hquestion
      have hc' := ihc.chain hle _ (hquestion.mono (by decide)) _ _ hloop
      have ha' := iha.whole (.symbol .colon :: (b.lexemes ++ rest)) (ends_cons_of_none 0 rfl _)
      have hb' := ihb.choice hle' rest hrest
      rw [Expr.lexemes, List.append_assoc, List.append_assoc]
      exact takes_conditional_iff.mpr (.inr ⟨c, a, b, _, _, hc', ha', hb', rfl⟩)
  | @call f args hargs ih =>
      refine complete_of_members (.call hargs) le_rfl (fun _ _ => rfl) ?_
      intro rest _ whole rest' hloop
      have hprimary : Takes (primary ((Expr.call f args).lexemes ++ rest)) (.call f args) rest :=
        takes_primary_iff.mpr
          (.inr (.inr (.inl ⟨f, args, _, rfl, rfl, arguments_complete hargs ih rest, rfl⟩)))
      exact takes_postfixed_iff.mpr ⟨_, rest, hprimary, hloop⟩
  | @scopedCall scope f args hscope hargs hle ihs iha =>
      refine complete_of_members (.scopedCall hscope hargs hle) le_rfl (fun _ _ => rfl) ?_
      intro rest _ whole rest' hloop
      rw [Expr.lexemes, List.append_assoc]
      refine ihs.members hle _ (by simp) whole rest' ?_
      exact takes_members_iff.mpr (.inr (.inl
        ⟨f, args, _, rest, rfl, rfl, arguments_complete hargs iha rest, hloop⟩))
  | @assign x op value hvalue ih =>
      refine complete_of_assignment rfl ?_
      intro rest hrest
      have hsign : Ends 1 (.symbol (.assign op) :: (value.lexemes ++ rest)) := by
        refine ends_cons ?_ _
        rintro k ⟨⟩
        decide
      have hname := complete_of_members (.name x) le_rfl (fun _ _ => rfl) (heldByMembers_name x)
      have htarget := hname.choice (Nat.le_add_left 1 _) _ hsign
      rw [Expr.lexemes, List.append_assoc]
      exact takes_assignment_iff.mpr (.inr ⟨x, op, value, _, htarget, ih.whole rest hrest, rfl⟩)

/-! ## Declarations and statements -/

/-- An expression or a declaration is parsed from its lexemes, if what follows goes on with neither
of them. -/
lemma declarationOrExpr_complete {e : Expr} (he : e.Declarative) {rest : List Lexeme}
    (hends : Ends 0 rest) (hname : ∀ x, rest.head? ≠ some (.name x))
    (hcomma : rest.head? ≠ some (.symbol .comma)) :
    Takes (declarationOrExpr (e.lexemes ++ rest)) e rest := by
  rw [takes_declarationOrExpr_iff]
  cases he with
  | expr h => exact .inr ⟨h.noTwoNames hname, (complete h).whole rest hends⟩
  | @declare type x value h =>
      have hvalue := (complete h).whole rest hends
      exact .inl ⟨type, x, _, rfl,
        takes_initializer_iff.mpr (.inl ⟨value, _, rfl, hvalue, hcomma, rfl⟩)⟩
  | declareBare type x =>
      have hsign := hends.head_ne (x := .symbol (.assign .set)) rfl le_rfl
      exact .inl ⟨type, x, rest, rfl,
        takes_initializer_iff.mpr (.inr ⟨hsign, hcomma, rfl, rfl⟩)⟩

lemma condition_complete {c : Expr} (hc : c.WellFormed) (rest : List Lexeme) :
    Takes (condition (.symbol .leftParen :: (c.lexemes ++ .symbol .rightParen :: rest))) c rest :=
  takes_condition_iff.mpr ⟨_, rfl, (complete hc).whole _ (ends_cons_of_none 0 rfl rest)⟩

/-- Whether the lexeme stands behind a statement and starts none. -/
def closesStatement : Lexeme → Bool
  | .symbol .rightBrace | .keyword .elseWord => true
  | _ => false

/-- An expression or a declaration starts neither as another form of statement nor with what stands
behind a statement. -/
lemma startsExpr_not_statement {x : Lexeme} (hx : Expr.startsExpr x) :
    announcesStatement x = false ∧ closesStatement x = false := by
  rcases hx with hx | ⟨op, rfl⟩
  · unfold Expr.startsPrimary at hx
    split at hx
    · exact ⟨rfl, rfl⟩
    · exact ⟨rfl, rfl⟩
    · exact ⟨rfl, rfl⟩
    · cases hx
  · cases op <;> exact ⟨rfl, rfl⟩

/-- The first lexeme of a statement does not stand behind a statement. -/
lemma closesStatement_head {s : Stmt} (hs : s.WellFormed) {rest : List Lexeme} {x : Lexeme}
    (hx : (s.lexemes ++ rest).head? = some x) : closesStatement x = false := by
  cases hs with
  | @expr e he =>
      obtain ⟨y, ts, hts, hy⟩ := he.exists_startsExpr
      rw [Stmt.lexemes, hts] at hx
      cases hx
      exact (startsExpr_not_statement hy).2
  | _ =>
      simp only [Stmt.lexemes, List.cons_append, List.head?_cons, Option.some.injEq] at hx
      subst hx
      rfl

/-- The parser takes the lexemes of the statement, if no `else` follows that would belong to it. -/
def CompleteStmt (s : Stmt) : Prop :=
  ∀ rest : List Lexeme, (s.EndsOpen → rest.head? ≠ some (.keyword .elseWord)) →
    Takes (statement (s.lexemes ++ rest)) s rest

lemma statements_complete {body : List Stmt} (hwf : ∀ s ∈ body, s.WellFormed)
    (h : ∀ s ∈ body, CompleteStmt s) (rest : List Lexeme) :
    Takes (statements (Stmt.bodyLexemes body ++ rest)) body rest := by
  induction body with
  | nil => exact takes_statements_iff.mpr (.inl ⟨rfl, rfl⟩)
  | cons s body ih =>
      rw [List.forall_mem_cons] at hwf h
      rw [Stmt.bodyLexemes, List.append_assoc]
      -- What follows in a block is a statement or a brace, and no `else`.
      have helse : (Stmt.bodyLexemes body ++ rest).head? ≠ some (.keyword .elseWord) := by
        cases body with
        | nil => simp [Stmt.bodyLexemes]
        | cons t body =>
            rw [Stmt.bodyLexemes, List.append_assoc]
            exact fun hhead =>
              Bool.noConfusion (closesStatement_head (hwf.2 t List.mem_cons_self) hhead)
      have hbrace : (s.lexemes ++ (Stmt.bodyLexemes body ++ rest)).head?
          ≠ some (.symbol .rightBrace) :=
        fun hhead => Bool.noConfusion (closesStatement_head hwf.1 hhead)
      exact takes_statements_iff.mpr
        (.inr ⟨s, body, _, hbrace, h.1 _ fun _ => helse, ih hwf.2 h.2, rfl⟩)

/-- Every well-formed statement is parsed from its lexemes. -/
lemma statement_complete {s : Stmt} (hs : s.WellFormed) : CompleteStmt s := by
  induction hs with
  | @expr e he =>
      intro rest _
      have he' : Takes (declarationOrExpr (e.lexemes ++ .symbol .semicolon :: rest)) e
          (.symbol .semicolon :: rest) :=
        declarationOrExpr_complete he (ends_cons_of_none 0 rfl rest) (by simp) (by simp)
      rw [Stmt.lexemes, List.append_assoc]
      refine takes_statement_iff.mpr (.expr ?_ he')
      intro x hx
      obtain ⟨y, ts, hts, hy⟩ := he.exists_startsExpr
      rw [hts] at hx
      cases hx
      exact (startsExpr_not_statement hy).1
  | @block body hbody ih =>
      intro rest _
      exact takes_statement_iff.mpr (.block (statements_complete hbody ih rest))
  | @ifThen c thenStmt hc hthen ih =>
      intro rest hopen
      have hnone := hopen trivial
      rw [Stmt.lexemes, List.append_assoc]
      have hthen' := ih rest fun _ => hnone
      exact takes_statement_iff.mpr (.ifThen (condition_complete hc _) hthen' hnone)
  | @ifElse c thenStmt elseStmt hc hthen helse closed iht ihe =>
      intro rest hopen
      have hthen' := iht (.keyword .elseWord :: (elseStmt.lexemes ++ rest)) fun h => absurd h closed
      rw [Stmt.lexemes, List.append_assoc, List.append_assoc]
      exact takes_statement_iff.mpr
        (.ifElse (condition_complete hc _) hthen' (ihe rest hopen))
  | @whileLoop c body hc hbody ih =>
      intro rest hopen
      rw [Stmt.lexemes, List.append_assoc]
      exact takes_statement_iff.mpr (.whileLoop (condition_complete hc _) (ih rest hopen))
  | returnVoid =>
      intro rest _
      exact takes_statement_iff.mpr .returnVoid
  | @returnValue value hvalue =>
      intro rest _
      have hvalue' := (complete hvalue).whole (.symbol .semicolon :: rest)
        (ends_cons_of_none 0 rfl rest)
      rw [Stmt.lexemes, List.append_assoc]
      refine takes_statement_iff.mpr (.returnValue ?_ hvalue')
      obtain ⟨y, ts, hts, hy⟩ := hvalue.exists_startsExpr
      rw [hts]
      rintro hhead
      cases hhead
      exact Bool.noConfusion (startsExpr_not_statement hy).1
  | empty =>
      intro rest _
      exact takes_statement_iff.mpr .empty

end Parser

end LineShell
