import LineShell.Proofs.Tree.Pieces
import LineShell.Proofs.Tree.Precedence
import LineShell.Tree.Render

/-!
# The lexemes of rendered trees

The rendering of a well-formed tree splits into the lexemes of the tree exactly if the tree is
steady (`Expr.WellFormed.rendersBack`, `Stmt.WellFormed.rendersBack`). The statements are about a
rendering with any text behind it that a tree can be followed by, so that they compose along the
tree.
-/

namespace LineShell

open Text Scan

/-! ## Expressions -/

/-- No expression starts with a symbol that goes on with another one. -/
lemma Expr.WellFormed.endsRun {e : Expr} (he : e.WellFormed)
    (hs : ∀ x ∈ e.lexemes, x.Spelled) (rest : Text) :
    EndsRun continuesSymbol (e.render ++ rest) := by
  induction he generalizing rest with
  | literal l => exact (hs _ List.mem_cons_self : l.Spelled).endsRun rest
  | name x => exact endsRun_name hs rest
  | binary hl hr hle hlt ihl ihr =>
      rw [Expr.lexemes, List.forall_mem_append] at hs
      simp only [Expr.render, List.append_assoc]
      exact ihl hs.1 _
  | @unary op operand h hle ih =>
      cases op with
      | neg => exact endsRun_cons (c := ('-' : Char)) (by decide) _
      | plus => exact endsRun_cons (c := ('+' : Char)) (by decide) _
      | not => exact endsRun_cons (c := ('!' : Char)) (by decide) _
      | complement => exact endsRun_cons (c := ('~' : Char)) (by decide) _
  | enclosed h ih => exact endsRun_cons (c := ('(' : Char)) (by decide) _
  | conditional hc ha hb hle hle' ihc iha ihb =>
      rw [Expr.lexemes, List.append_assoc, List.forall_mem_append] at hs
      simp only [Expr.render, List.append_assoc]
      exact ihc hs.1 _
  | @call f args hargs ih =>
      simp only [Expr.render, List.append_assoc]
      exact (hs (.name f) List.mem_cons_self).1.endsRun
        (fun c => Lexeme.continuesSymbol_of_startsWord) _
  | scopedCall hscope hargs hle ihs iha =>
      rw [Expr.lexemes, List.forall_mem_append] at hs
      simp only [Expr.render, List.append_assoc]
      exact ihs hs.1 _
  | @assign x op value hvalue ih =>
      rw [Expr.lexemes, List.forall_mem_append] at hs
      simp only [Expr.render, List.append_assoc]
      exact endsRun_name hs.1 _

namespace Expr

/-- The rendering of the expression splits into its lexemes exactly if the expression is steady,
whatever stands behind it. Only an expression that needs no parentheses can stand in front of a
dot, and an integer is split wrongly there. -/
def RendersBack (e : Expr) : Prop :=
  ∀ (rest : Text) (ls : List Lexeme), Separated rest →
    (StartsWithDot rest → postfixTightness ≤ e.tightness) →
    (Splits (e.render ++ rest) (e.lexemes ++ ls) ↔
      e.Steady ∧ (StartsWithDot rest → ∀ t, e ≠ .literal ⟨.int, t⟩) ∧ Splits rest ls)

/-- In front of everything but a dot there is nothing to say about integers. -/
lemma RendersBack.splits_iff {e : Expr} (h : e.RendersBack) {rest : Text} (hrest : Closes rest)
    {ls : List Lexeme} :
    Splits (e.render ++ rest) (e.lexemes ++ ls) ↔ e.Steady ∧ Splits rest ls := by
  rw [h rest ls hrest.separated fun hdot => absurd hdot hrest.not_dot]
  simp [hrest.not_dot]

/-- A form that is no integer, shown without the case of an integer in front of a dot. -/
lemma rendersBack_of_ne_literal {e : Expr} (hne : ∀ t, e ≠ .literal ⟨.int, t⟩)
    (h : ∀ (rest : Text) (ls : List Lexeme), Separated rest →
      (StartsWithDot rest → postfixTightness ≤ e.tightness) →
      (Splits (e.render ++ rest) (e.lexemes ++ ls) ↔ e.Steady ∧ Splits rest ls)) :
    e.RendersBack := by
  intro rest ls hrest htight
  rw [h rest ls hrest htight]
  simp [hne]

/-! ### Arguments -/

lemma splits_rightParen_iff {rest : Text} (hrest : Separated rest) {ls : List Lexeme} :
    Splits (")" ++ rest) (.symbol .rightParen :: ls) ↔ Splits rest ls :=
  splits_symbol_iff .rightParen (hrest.endsRun (by decide)) (by simp)

lemma splits_comma_iff {rest : Text} {ls : List Lexeme} :
    Splits (", " ++ rest) (.symbol .comma :: ls) ↔ Splits rest ls := by
  have hspace : Closes (" " ++ rest) := closes_append (by decide) rest
  have hcomma : Splits (Symbol.comma.text ++ (" " ++ rest)) (.symbol .comma :: ls) ↔ _ :=
    splits_symbol_iff .comma (hspace.separated.endsRun (by decide)) (by simp)
  exact hcomma.trans splits_space_iff

/-- Arguments up to the closing parenthesis, the first one apart. -/
lemma splits_joined_iff {a : Expr} {args : List Expr} (h : ∀ b ∈ a :: args, b.RendersBack)
    {rest : Text} (hrest : Separated rest) {ls : List Lexeme} :
    Splits (Text.joined ", " (renderAll (a :: args)) ++ (")" ++ rest))
      (a.lexemes ++ (moreLexemes args ++ ls)) ↔
    (∀ b ∈ a :: args, b.Steady) ∧ Splits rest ls := by
  induction args generalizing a with
  | nil =>
      have ha := h a List.mem_cons_self
      simp only [renderAll, Text.joined, moreLexemes, List.cons_append, List.nil_append,
        List.mem_singleton, forall_eq]
      rw [ha.splits_iff (closes_append (by decide) rest), splits_rightParen_iff hrest]
  | cons b args ih =>
      rw [List.forall_mem_cons] at h
      have htext : Text.joined ", " (renderAll (a :: b :: args)) ++ (")" ++ rest)
          = a.render ++ (", " ++ (Text.joined ", " (renderAll (b :: args)) ++ (")" ++ rest))) := by
        simp only [renderAll, Text.joined, List.append_assoc]
      rw [htext, moreLexemes, List.append_assoc, List.cons_append,
        h.1.splits_iff (closes_append (by decide) _), splits_comma_iff, ih h.2]
      simp only [List.forall_mem_cons, and_assoc]

/-- Arguments in their parentheses. -/
lemma splits_arguments_iff {args : List Expr} (h : ∀ a ∈ args, a.RendersBack)
    (hstart : ∀ a ∈ args, ∀ rest, EndsRun continuesSymbol (a.render ++ rest)) {rest : Text}
    (hrest : Separated rest) {ls : List Lexeme} :
    Splits ("(" ++ (Text.joined ", " (renderAll args) ++ (")" ++ rest)))
      (.symbol .leftParen :: (listLexemes args ++ ls)) ↔
    (∀ a ∈ args, a.Steady) ∧ Splits rest ls := by
  have hends : EndsRun continuesSymbol (Text.joined ", " (renderAll args) ++ (")" ++ rest)) := by
    cases args with
    | nil => exact endsRun_cons (c := (')' : Char)) (by decide) _
    | cons a args =>
        have ha := hstart a List.mem_cons_self
        cases args with
        | nil => exact ha _
        | cons b args =>
            simp only [renderAll, Text.joined, List.append_assoc]
            exact ha _
  refine Iff.trans (splits_symbol_iff .leftParen hends (by simp)) ?_
  cases args with
  | nil =>
      simp only [renderAll, Text.joined, listLexemes, List.cons_append, List.nil_append,
        List.not_mem_nil, false_implies, implies_true, true_and]
      exact splits_rightParen_iff hrest
  | cons a args =>
      rw [listLexemes, List.append_assoc]
      exact splits_joined_iff h hrest

/-- The name of a function and the arguments of its call. -/
lemma splits_call_iff {f : Text} (hf : (Lexeme.name f).Spelled) {args : List Expr}
    (h : ∀ a ∈ args, a.RendersBack)
    (hstart : ∀ a ∈ args, ∀ rest, EndsRun continuesSymbol (a.render ++ rest)) {rest : Text}
    (hrest : Separated rest) {ls : List Lexeme} :
    Splits (f ++ ("(" ++ (Text.joined ", " (renderAll args) ++ (")" ++ rest))))
      (.name f :: .symbol .leftParen :: (listLexemes args ++ ls)) ↔
    (∀ a ∈ args, a.Steady) ∧ Splits rest ls := by
  have hparen : EndsRun Lexeme.continuesWord
      ("(" ++ (Text.joined ", " (renderAll args) ++ (")" ++ rest))) :=
    (closes_append (by decide) _).separated.endsRun (by decide)
  rw [splits_word_iff hf hparen, splits_arguments_iff h hstart hrest]

/-! ### Forms -/

/-- In front of a dot stands a postfix form, so what follows a looser form is no dot. -/
lemma closes_of_tightness_lt {e : Expr} (htight : e.tightness < postfixTightness) {rest : Text}
    (hrest : Separated rest) (hdot : StartsWithDot rest → postfixTightness ≤ e.tightness) :
    Closes rest :=
  ⟨hrest, fun h => absurd (hdot h) (Nat.not_le_of_lt htight)⟩

lemma spelled_of_mem_listLexemes {args : List Expr} (hs : ∀ x ∈ listLexemes args, x.Spelled) :
    ∀ a ∈ args, ∀ x ∈ a.lexemes, x.Spelled := by
  have hmore : ∀ args : List Expr, (∀ x ∈ moreLexemes args, x.Spelled) →
      ∀ a ∈ args, ∀ x ∈ a.lexemes, x.Spelled := by
    intro args
    induction args with
    | nil => simp
    | cons b args ih =>
        intro hs
        simp only [moreLexemes, List.forall_mem_append, List.forall_mem_cons] at hs
        rw [List.forall_mem_cons]
        exact ⟨hs.1.2, ih hs.2⟩
  cases args with
  | nil => simp
  | cons a args =>
      rw [listLexemes, List.forall_mem_append] at hs
      rw [List.forall_mem_cons]
      exact ⟨hs.1, hmore args hs.2⟩

lemma rendersBack_literal {l : Literal} (hl : l.Spelled) : (literal l).RendersBack := by
  intro rest ls hrest _
  have hkind : l.kind ≠ .int ↔ ∀ t, literal l ≠ .literal ⟨.int, t⟩ := by
    obtain ⟨kind, t⟩ := l
    simp
  rw [steady_literal_iff, ← hkind]
  exact splits_literal_iff hl hrest

lemma rendersBack_name {x : Text} (hx : ∀ y ∈ nameLexemes x, y.Spelled) : (name x).RendersBack := by
  refine rendersBack_of_ne_literal (by simp) ?_
  intro rest ls hrest _
  rw [and_iff_right (steady_name x)]
  exact splits_name_iff hx hrest

lemma rendersBack_binary (op : BinaryOp) {left right : Expr} (hleft : left.RendersBack)
    (hright : right.RendersBack) : (binary op left right).RendersBack := by
  refine rendersBack_of_ne_literal (by simp) ?_
  intro rest ls hrest htight
  have hclose : Closes rest := by
    refine closes_of_tightness_lt ?_ hrest htight
    exact (level_add_two_lt op).trans (Nat.lt_succ_self _)
  have htext : (binary op left right).render ++ rest
      = left.render ++ (" " ++ op.text ++ " " ++ (right.render ++ rest)) := by
    simp only [render, List.append_assoc]
  have hlexemes : (binary op left right).lexemes ++ ls
      = left.lexemes ++ .symbol (.binary op) :: (right.lexemes ++ ls) := by
    simp [lexemes]
  rw [htext, hlexemes, hleft.splits_iff (closes_append rfl _),
    splits_spaced_iff (.binary op) (by simp) (" " ++ op.text ++ " ") rfl,
    hright.splits_iff hclose, steady_binary_iff, and_assoc]

/-- A sign is read by itself because no operand starts with a part of a longer symbol. -/
lemma rendersBack_unary (op : UnaryOp) {operand : Expr} (h : operand.RendersBack)
    (hstart : ∀ rest, EndsRun continuesSymbol (operand.render ++ rest)) :
    (unary op operand).RendersBack := by
  refine rendersBack_of_ne_literal (by simp) ?_
  intro rest ls hrest htight
  have hclose := closes_of_tightness_lt (Nat.lt_succ_self _) hrest htight
  rw [render, ← Symbol.text_ofUnary, List.append_assoc, lexemes, List.cons_append,
    splits_symbol_iff _ (hstart rest) (by cases op <;> simp [Symbol.ofUnary]),
    h.splits_iff hclose, steady_unary_iff]

lemma rendersBack_enclosed {inner : Expr} (h : inner.RendersBack)
    (hstart : ∀ rest, EndsRun continuesSymbol (inner.render ++ rest)) :
    (enclosed inner).RendersBack := by
  refine rendersBack_of_ne_literal (by simp) ?_
  intro rest ls hrest _
  have htext : (enclosed inner).render ++ rest
      = Symbol.leftParen.text ++ (inner.render ++ (")" ++ rest)) := by
    simp only [render, List.append_assoc]
    rfl
  have hlexemes : (enclosed inner).lexemes ++ ls
      = .symbol .leftParen :: (inner.lexemes ++ .symbol .rightParen :: ls) := by
    simp [lexemes]
  rw [htext, hlexemes, splits_symbol_iff .leftParen (hstart _) (by simp),
    h.splits_iff (closes_append (by decide) rest), splits_rightParen_iff hrest,
    steady_enclosed_iff]

lemma rendersBack_conditional {c a b : Expr} (hc : c.RendersBack) (ha : a.RendersBack)
    (hb : b.RendersBack) : (conditional c a b).RendersBack := by
  refine rendersBack_of_ne_literal (by simp) ?_
  intro rest ls hrest htight
  have hclose : Closes rest := by
    refine closes_of_tightness_lt ?_ hrest htight
    show 1 < postfixTightness
    decide
  have htext : (conditional c a b).render ++ rest
      = c.render ++ (" ? " ++ (a.render ++ (" : " ++ (b.render ++ rest)))) := by
    simp only [render, List.append_assoc]
  have hlexemes : (conditional c a b).lexemes ++ ls
      = c.lexemes ++ .symbol .question :: (a.lexemes ++ .symbol .colon :: (b.lexemes ++ ls)) := by
    simp [lexemes]
  rw [htext, hlexemes, hc.splits_iff (closes_append (by decide) _),
    splits_spaced_iff .question (by simp) " ? " rfl,
    ha.splits_iff (closes_append (by decide) _),
    splits_spaced_iff .colon (by simp) " : " rfl, hb.splits_iff hclose,
    steady_conditional_iff, and_assoc, and_assoc]

lemma rendersBack_call {f : Text} (hf : (Lexeme.name f).Spelled) {args : List Expr}
    (h : ∀ a ∈ args, a.RendersBack)
    (hstart : ∀ a ∈ args, ∀ rest, EndsRun continuesSymbol (a.render ++ rest)) :
    (call f args).RendersBack := by
  refine rendersBack_of_ne_literal (by simp) ?_
  intro rest ls hrest _
  have htext : (call f args).render ++ rest
      = f ++ ("(" ++ (Text.joined ", " (renderAll args) ++ (")" ++ rest))) := by
    simp only [render, List.append_assoc]
  rw [htext, lexemes, List.cons_append, List.cons_append, splits_call_iff hf h hstart hrest,
    steady_call_iff]

/-- The only form with a dot behind another form: here an integer as scope takes the dot. -/
lemma rendersBack_scopedCall {scope : Expr} (hscope : scope.RendersBack)
    (hle : postfixTightness ≤ scope.tightness) {f : Text} (hf : (Lexeme.name f).Spelled)
    {args : List Expr} (h : ∀ a ∈ args, a.RendersBack)
    (hstart : ∀ a ∈ args, ∀ rest, EndsRun continuesSymbol (a.render ++ rest)) :
    (scopedCall scope f args).RendersBack := by
  refine rendersBack_of_ne_literal (by simp) ?_
  intro rest ls hrest _
  have htext : (scopedCall scope f args).render ++ rest
      = scope.render ++ (Symbol.dot.text
        ++ (f ++ ("(" ++ (Text.joined ", " (renderAll args) ++ (")" ++ rest))))) := by
    simp only [render, List.append_assoc]
    rfl
  have hlexemes : (scopedCall scope f args).lexemes ++ ls
      = scope.lexemes ++ .symbol .dot :: .name f :: .symbol .leftParen ::
        (listLexemes args ++ ls) := by
    simp [lexemes]
  have hword : Lexeme.IsWord f := hf.1
  have hdot : ∀ t : Text, Separated (Symbol.dot.text ++ t) :=
    separated_cons (c := ('.' : Char)) (by decide)
  rw [htext, hlexemes, hscope _ _ (hdot _) fun _ => hle,
    splits_symbol_iff .dot (hword.endsRun (fun _ => Lexeme.continuesSymbol_of_startsWord) _)
      (fun _ => hword.endsRun (fun _ => Lexeme.hasDigitProperty_of_startsWord) _),
    splits_call_iff hf h hstart hrest, steady_scopedCall_iff]
  constructor
  · rintro ⟨hsteady, hinteger, hsteady', hrest'⟩
    exact ⟨⟨hinteger rfl, hsteady, hsteady'⟩, hrest'⟩
  · rintro ⟨⟨hinteger, hsteady, hsteady'⟩, hrest'⟩
    exact ⟨hsteady, fun _ => hinteger, hsteady', hrest'⟩

lemma rendersBack_assign {x : Text} (hx : ∀ y ∈ nameLexemes x, y.Spelled) (op : AssignOp)
    {value : Expr} (h : value.RendersBack) : (assign (.name x) op value).RendersBack := by
  refine rendersBack_of_ne_literal (by simp) ?_
  intro rest ls hrest htight
  have hclose : Closes rest := by
    refine closes_of_tightness_lt ?_ hrest htight
    exact Nat.succ_pos _
  have htext : (assign (.name x) op value).render ++ rest
      = x ++ (" " ++ op.text ++ " " ++ (value.render ++ rest)) := by
    simp only [render, List.append_assoc]
  have hspace : Closes (" " ++ op.text ++ " " ++ (value.render ++ rest)) :=
    closes_append rfl _
  have hlexemes : (assign (.name x) op value).lexemes ++ ls
      = nameLexemes x ++ .symbol (.assign op) :: (value.lexemes ++ ls) := by
    simp [lexemes]
  rw [htext, hlexemes, splits_name_iff hx hspace.separated,
    splits_spaced_iff (.assign op) (by simp) (" " ++ op.text ++ " ") rfl,
    h.splits_iff hclose, steady_assign_iff, and_iff_right (steady_name x)]

/-- A well-formed expression is read back from its rendering exactly if it is steady. -/
lemma WellFormed.rendersBack {e : Expr} (he : e.WellFormed) (hs : ∀ x ∈ e.lexemes, x.Spelled) :
    e.RendersBack := by
  induction he with
  | literal l => exact rendersBack_literal (hs _ List.mem_cons_self)
  | name x => exact rendersBack_name hs
  | @binary op left right _ _ _ _ ihl ihr =>
      rw [lexemes, List.forall_mem_append, List.forall_mem_cons] at hs
      exact rendersBack_binary op (ihl hs.1) (ihr hs.2.2)
  | @unary op operand h _ ih =>
      rw [lexemes, List.forall_mem_cons] at hs
      exact rendersBack_unary op (ih hs.2) (h.endsRun hs.2)
  | enclosed h ih =>
      rw [lexemes, List.cons_append, List.forall_mem_cons, List.forall_mem_append] at hs
      exact rendersBack_enclosed (ih hs.2.1) (h.endsRun hs.2.1)
  | conditional _ _ _ _ _ ihc iha ihb =>
      simp only [lexemes, List.forall_mem_append, List.forall_mem_cons] at hs
      exact rendersBack_conditional (ihc hs.1.1) (iha hs.1.2.2) (ihb hs.2.2)
  | call hargs ih =>
      simp only [lexemes, List.forall_mem_cons] at hs
      have hspelled := spelled_of_mem_listLexemes hs.2.2
      exact rendersBack_call hs.1 (fun a ha => ih a ha (hspelled a ha))
        fun a ha => (hargs a ha).endsRun (hspelled a ha)
  | scopedCall _ hargs hle ihs iha =>
      simp only [lexemes, List.forall_mem_append, List.forall_mem_cons] at hs
      have hspelled := spelled_of_mem_listLexemes hs.2.2.2.2
      exact rendersBack_scopedCall (ihs hs.1) hle hs.2.2.1 (fun a ha => iha a ha (hspelled a ha))
        fun a ha => (hargs a ha).endsRun (hspelled a ha)
  | @assign x op value _ ih =>
      rw [lexemes, List.forall_mem_append, List.forall_mem_cons] at hs
      exact rendersBack_assign hs.1 op (ih hs.2.2)

/-- An expression or a declaration is read back exactly if it is steady. -/
lemma Declarative.splits_iff {e : Expr} (he : e.Declarative) (hs : ∀ x ∈ e.lexemes, x.Spelled)
    {rest : Text} (hrest : Closes rest) {ls : List Lexeme} :
    Splits (e.render ++ rest) (e.lexemes ++ ls) ↔ e.Steady ∧ Splits rest ls := by
  cases he with
  | expr h => exact (h.rendersBack hs).splits_iff hrest
  | @declare type x value h =>
      simp only [lexemes, List.forall_mem_cons] at hs
      have htext : (Expr.declare type x value).render ++ rest
          = type ++ (" " ++ (x ++ (" = " ++ (value.render ++ rest)))) := by
        simp only [render, List.append_assoc]
      have hsteady : (Expr.declare type x value).Steady ↔ value.Steady := by
        simp [Steady, parts, Drifts]
      have hspace : Closes (" " ++ (x ++ (" = " ++ (value.render ++ rest)))) :=
        closes_append (by decide) _
      have hsign : Closes (" = " ++ (value.render ++ rest)) := closes_append (by decide) _
      rw [htext, hsteady, lexemes, List.cons_append, List.cons_append, List.cons_append,
        splits_word_iff hs.1 (hspace.separated.endsRun (by decide)), splits_space_iff,
        splits_word_iff hs.2.1 (hsign.separated.endsRun (by decide)),
        splits_spaced_iff (.assign .set) (by simp) " = " rfl,
        (h.rendersBack hs.2.2.2).splits_iff hrest]
  | declareBare type x =>
      simp only [lexemes, List.forall_mem_cons] at hs
      have htext : (Expr.declareBare type x).render ++ rest = type ++ (" " ++ (x ++ rest)) := by
        simp only [render, List.append_assoc]
      have hsteady : (Expr.declareBare type x).Steady := by
        simp [Steady, parts, Drifts]
      have hspace : Closes (" " ++ (x ++ rest)) := closes_append (by decide) _
      rw [htext, and_iff_right hsteady, lexemes, List.cons_append, List.cons_append,
        List.nil_append, splits_word_iff hs.1 (hspace.separated.endsRun (by decide)),
        splits_space_iff, splits_word_iff hs.2.1 (hrest.separated.endsRun (by decide))]

end Expr

/-! ## Statements -/

namespace Stmt

/-- The rendering of the statement splits into its lexemes exactly if the statement is steady. -/
def RendersBack (s : Stmt) : Prop :=
  ∀ (rest : Text) (ls : List Lexeme), Closes rest →
    (Splits (s.render ++ rest) (s.lexemes ++ ls) ↔ s.Steady ∧ Splits rest ls)

lemma splits_semicolon_iff {rest : Text} (hrest : Closes rest) {ls : List Lexeme} :
    Splits (";" ++ rest) (.symbol .semicolon :: ls) ↔ Splits rest ls :=
  splits_symbol_iff .semicolon (hrest.separated.endsRun (by decide)) (by simp)

/-- A keyword is read as such in front of every separator. -/
lemma splits_keyword_iff (k : Keyword) {rest : Text} (hrest : Closes rest) {ls : List Lexeme} :
    Splits (k.text ++ rest) (.keyword k :: ls) ↔ Splits rest ls := by
  have hword : Lexeme.IsWord k.text ∧ Lexeme.ofWord k.text = .keyword k := by
    cases k with
    | ifWord => exact ⟨⟨⟨('i' : Char), rfl, by decide⟩, by decide⟩, by decide⟩
    | elseWord => exact ⟨⟨⟨('e' : Char), rfl, by decide⟩, by decide⟩, by decide⟩
    | whileWord => exact ⟨⟨⟨('w' : Char), rfl, by decide⟩, by decide⟩, by decide⟩
    | returnWord => exact ⟨⟨⟨('r' : Char), rfl, by decide⟩, by decide⟩, by decide⟩
  have hreads := reads_word hword.1 (hrest.separated.endsRun (by decide))
  rw [hword.2] at hreads
  exact hreads.splits_cons_iff

/-- A keyword and a condition in parentheses. -/
lemma splits_condition_iff (k : Keyword) {c : Expr} (hc : c.WellFormed)
    (hs : ∀ x ∈ c.lexemes, x.Spelled) {rest : Text} {ls : List Lexeme} :
    Splits (k.text ++ (" (" ++ (c.render ++ (") " ++ rest))))
      (.keyword k :: .symbol .leftParen :: (c.lexemes ++ .symbol .rightParen :: ls)) ↔
    c.Steady ∧ Splits rest ls := by
  have hspace : Closes (" " ++ rest) := closes_append (by decide) rest
  have hopen : Splits ("(" ++ (c.render ++ (") " ++ rest)))
      (.symbol .leftParen :: (c.lexemes ++ .symbol .rightParen :: ls)) ↔ _ :=
    splits_symbol_iff .leftParen (hc.endsRun hs _) (by simp)
  have hshut : Splits (")" ++ (" " ++ rest)) (.symbol .rightParen :: ls) ↔ _ :=
    Expr.splits_rightParen_iff hspace.separated
  rw [splits_keyword_iff k (closes_append (by decide) _)]
  refine splits_space_iff.trans (hopen.trans ?_)
  rw [(hc.rendersBack hs).splits_iff (closes_append (by decide) _)]
  exact and_congr_right fun _ => hshut.trans splits_space_iff

lemma spelled_of_mem_bodyLexemes {body : List Stmt} (hs : ∀ x ∈ bodyLexemes body, x.Spelled) :
    ∀ s ∈ body, ∀ x ∈ s.lexemes, x.Spelled := by
  induction body with
  | nil => simp
  | cons s body ih =>
      rw [bodyLexemes, List.forall_mem_append] at hs
      rw [List.forall_mem_cons]
      exact ⟨hs.1, ih hs.2⟩

lemma splits_rightBrace_iff {rest : Text} (hrest : Closes rest) {ls : List Lexeme} :
    Splits (" \x7d" ++ rest) (.symbol .rightBrace :: ls) ↔ Splits rest ls := by
  have hbrace : Splits (Symbol.rightBrace.text ++ rest) (.symbol .rightBrace :: ls) ↔ _ :=
    splits_symbol_iff .rightBrace (hrest.separated.endsRun (by decide)) (by simp)
  exact splits_space_iff.trans hbrace

/-- The statements of a block up to its closing brace. -/
lemma splits_body_iff {body : List Stmt} (h : ∀ s ∈ body, s.RendersBack) {rest : Text}
    (hrest : Closes rest) {ls : List Lexeme} :
    Splits (Text.joined " " (renderAll body) ++ (" \x7d" ++ rest)) (bodyLexemes body ++ ls) ↔
      (∀ s ∈ body, s.Steady) ∧ Splits rest ls := by
  induction body with
  | nil =>
      simp only [renderAll, Text.joined, bodyLexemes, List.cons_append, List.nil_append,
        List.not_mem_nil, false_implies, implies_true, true_and]
      exact splits_rightBrace_iff hrest
  | cons s body ih =>
      rw [List.forall_mem_cons] at h
      rw [List.forall_mem_cons, and_assoc, ← ih h.2, bodyLexemes, List.append_assoc]
      cases body with
      | nil => exact h.1 _ _ (closes_append (by decide) rest)
      | cons t body =>
          have htext : Text.joined " " (renderAll (s :: t :: body)) ++ (" \x7d" ++ rest)
              = s.render ++ (" " ++ (Text.joined " " (renderAll (t :: body))
                ++ (" \x7d" ++ rest))) := by
            simp only [renderAll, Text.joined, List.append_assoc]
          rw [htext, h.1 _ _ (closes_append (by decide) _), splits_space_iff]

/-! ### Kinds of statements -/

lemma rendersBack_expr {e : Expr} (he : e.Declarative) (hs : ∀ x ∈ e.lexemes, x.Spelled) :
    (expr e).RendersBack := by
  intro rest ls hrest
  have hlexemes : (expr e).lexemes ++ ls = e.lexemes ++ .symbol .semicolon :: ls := by
    simp [lexemes]
  rw [render, List.append_assoc, hlexemes,
    he.splits_iff hs (closes_append (by decide) rest), splits_semicolon_iff hrest]
  rfl

lemma rendersBack_block {body : List Stmt} (h : ∀ s ∈ body, s.RendersBack) :
    (block body).RendersBack := by
  intro rest ls hrest
  have htext : (block body).render ++ rest = Symbol.leftBrace.text
      ++ (" " ++ (Text.joined " " (renderAll body) ++ (" \x7d" ++ rest))) := by
    simp only [render, List.append_assoc]
    rfl
  have hspace : Closes (" " ++ (Text.joined " " (renderAll body) ++ (" \x7d" ++ rest))) :=
    closes_append (by decide) _
  rw [htext, lexemes, List.cons_append,
    splits_symbol_iff .leftBrace (hspace.separated.endsRun (by decide)) (by simp),
    splits_space_iff, splits_body_iff h hrest, ← forall_listParts_iff]
  rfl

lemma rendersBack_ifThen {c : Expr} (hc : c.WellFormed) (hs : ∀ x ∈ c.lexemes, x.Spelled)
    {thenStmt : Stmt} (hthen : thenStmt.RendersBack) : (ifThen c thenStmt).RendersBack := by
  intro rest ls hrest
  have htext : (ifThen c thenStmt).render ++ rest
      = Keyword.ifWord.text ++ (" (" ++ (c.render ++ (") " ++ (thenStmt.render ++ rest)))) := by
    simp only [render, List.append_assoc]
    rfl
  have hlexemes : (ifThen c thenStmt).lexemes ++ ls
      = .keyword .ifWord :: .symbol .leftParen :: (c.lexemes ++ .symbol .rightParen ::
        (thenStmt.lexemes ++ ls)) := by
    simp [lexemes]
  have hsteady : (ifThen c thenStmt).Steady ↔ c.Steady ∧ thenStmt.Steady :=
    List.forall_mem_append
  rw [htext, hlexemes, splits_condition_iff .ifWord hc hs, hthen _ _ hrest, hsteady, and_assoc]

lemma rendersBack_ifElse {c : Expr} (hc : c.WellFormed) (hs : ∀ x ∈ c.lexemes, x.Spelled)
    {thenStmt elseStmt : Stmt} (hthen : thenStmt.RendersBack) (helse : elseStmt.RendersBack) :
    (ifElse c thenStmt elseStmt).RendersBack := by
  intro rest ls hrest
  have htext : (ifElse c thenStmt elseStmt).render ++ rest
      = Keyword.ifWord.text ++ (" (" ++ (c.render ++ (") " ++ (thenStmt.render ++ (" " ++
        (Keyword.elseWord.text ++ (" " ++ (elseStmt.render ++ rest)))))))) := by
    simp only [render, List.append_assoc]
    rfl
  have hlexemes : (ifElse c thenStmt elseStmt).lexemes ++ ls
      = .keyword .ifWord :: .symbol .leftParen :: (c.lexemes ++ .symbol .rightParen ::
        (thenStmt.lexemes ++ .keyword .elseWord :: (elseStmt.lexemes ++ ls))) := by
    simp [lexemes]
  have hsteady : (ifElse c thenStmt elseStmt).Steady ↔
      (c.Steady ∧ thenStmt.Steady) ∧ elseStmt.Steady :=
    List.forall_mem_append.trans (and_congr_left fun _ => List.forall_mem_append)
  rw [htext, hlexemes, splits_condition_iff .ifWord hc hs,
    hthen _ _ (closes_append (by decide) _), splits_space_iff,
    splits_keyword_iff .elseWord (closes_append (by decide) _), splits_space_iff,
    helse _ _ hrest, hsteady, and_assoc, and_assoc]

lemma rendersBack_whileLoop {c : Expr} (hc : c.WellFormed) (hs : ∀ x ∈ c.lexemes, x.Spelled)
    {body : Stmt} (hbody : body.RendersBack) : (whileLoop c body).RendersBack := by
  intro rest ls hrest
  have htext : (whileLoop c body).render ++ rest
      = Keyword.whileWord.text ++ (" (" ++ (c.render ++ (") " ++ (body.render ++ rest)))) := by
    simp only [render, List.append_assoc]
    rfl
  have hlexemes : (whileLoop c body).lexemes ++ ls
      = .keyword .whileWord :: .symbol .leftParen :: (c.lexemes ++ .symbol .rightParen ::
        (body.lexemes ++ ls)) := by
    simp [lexemes]
  have hsteady : (whileLoop c body).Steady ↔ c.Steady ∧ body.Steady :=
    List.forall_mem_append
  rw [htext, hlexemes, splits_condition_iff .whileWord hc hs, hbody _ _ hrest, hsteady, and_assoc]

lemma rendersBack_returnVoid : returnVoid.RendersBack := by
  intro rest ls hrest
  have htext : returnVoid.render ++ rest = Keyword.returnWord.text ++ (";" ++ rest) := by
    simp only [render]
    rfl
  have hsteady : returnVoid.Steady := by simp [Steady, parts]
  rw [htext, and_iff_right hsteady, lexemes, List.cons_append, List.cons_append,
    splits_keyword_iff .returnWord (closes_append (by decide) rest), List.nil_append,
    splits_semicolon_iff hrest]

lemma rendersBack_returnValue {value : Expr} (h : value.RendersBack) :
    (returnValue value).RendersBack := by
  intro rest ls hrest
  have htext : (returnValue value).render ++ rest
      = Keyword.returnWord.text ++ (" " ++ (value.render ++ (";" ++ rest))) := by
    simp only [render, List.append_assoc]
    rfl
  have hlexemes : (returnValue value).lexemes ++ ls
      = .keyword .returnWord :: (value.lexemes ++ .symbol .semicolon :: ls) := by
    simp [lexemes]
  rw [htext, hlexemes, splits_keyword_iff .returnWord (closes_append (by decide) _),
    splits_space_iff, h.splits_iff (closes_append (by decide) rest), splits_semicolon_iff hrest]
  rfl

lemma rendersBack_empty : empty.RendersBack := by
  intro rest ls hrest
  have hsteady : empty.Steady := by simp [Steady, parts]
  rw [and_iff_right hsteady]
  exact splits_semicolon_iff hrest

/-- A well-formed statement is read back from its rendering exactly if it is steady. -/
lemma WellFormed.rendersBack {s : Stmt} (h : s.WellFormed) (hs : ∀ x ∈ s.lexemes, x.Spelled) :
    s.RendersBack := by
  induction h with
  | expr he =>
      rw [lexemes, List.forall_mem_append] at hs
      exact rendersBack_expr he hs.1
  | block _ ih =>
      rw [lexemes, List.forall_mem_cons] at hs
      have hspelled := spelled_of_mem_bodyLexemes hs.2
      exact rendersBack_block fun s hs => ih s hs (hspelled s hs)
  | ifThen hc _ ih =>
      simp only [lexemes, List.cons_append, List.forall_mem_cons, List.forall_mem_append] at hs
      exact rendersBack_ifThen hc hs.2.2.1 (ih hs.2.2.2.2)
  | ifElse hc _ _ _ iht ihe =>
      simp only [lexemes, List.cons_append, List.append_assoc, List.forall_mem_cons,
        List.forall_mem_append] at hs
      exact rendersBack_ifElse hc hs.2.2.1 (iht hs.2.2.2.2.1) (ihe hs.2.2.2.2.2.2)
  | whileLoop hc _ ih =>
      simp only [lexemes, List.cons_append, List.forall_mem_cons, List.forall_mem_append] at hs
      exact rendersBack_whileLoop hc hs.2.2.1 (ih hs.2.2.2.2)
  | returnVoid => exact rendersBack_returnVoid
  | returnValue hvalue =>
      simp only [lexemes, List.cons_append, List.forall_mem_cons, List.forall_mem_append] at hs
      exact rendersBack_returnValue (hvalue.rendersBack hs.2.1)
  | empty => exact rendersBack_empty

end Stmt

end LineShell
