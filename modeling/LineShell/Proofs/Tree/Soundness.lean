import LineShell.Proofs.Tree.Precedence
import LineShell.Proofs.Tree.Steps
import Mathlib.Data.Nat.Init
import Mathlib.Order.Nat

/-!
# Parsers take well-formed trees only

Whatever a parser takes is well formed, and its lexemes are what stands in front of the rest
(`statement_sound`, `declarationOrExpr_sound`). So no lexeme is lost, added or moved.

Only an assignment is parsed from inside another expression by a call with fewer lexemes; all
other calls between the parsers go from a looser form to a tighter one. The proof follows this:
`assignment_sound` is by strong induction on the number of lexemes, and the lemmas about the
tighter forms, from the tightest on, take its induction hypothesis as an argument.

A word of the source holds no dot (`Dotless`). This is what makes the lexemes of a qualified name
readable from the name.
-/

namespace LineShell

namespace Parser

/-! ## Words without dots -/

/-- The words of the lexemes hold no dot. -/
def Dotless (ts : List Lexeme) : Prop :=
  ∀ word, .name word ∈ ts → (('.' : Char) : CodePoint) ∉ word

lemma Dotless.tail {x : Lexeme} {ts : List Lexeme} (h : Dotless (x :: ts)) : Dotless ts :=
  fun word hword => h word (List.mem_cons_of_mem x hword)

lemma Dotless.behind {front rest : List Lexeme} (h : Dotless (front ++ rest)) : Dotless rest :=
  fun word hword => h word (List.mem_append_right front hword)

/-! ## Expressions -/

/-- The tree is well formed and as tight as wanted, and its lexemes stand in front of `rest`. -/
structure Spells (least : Nat) (e : Expr) (ts rest : List Lexeme) : Prop where
  /-- The tree is well formed. -/
  wellFormed : e.WellFormed
  /-- The tree binds at least this tightly. -/
  tight : least ≤ e.tightness
  /-- The lexemes are those of the tree and the rest. -/
  split : ts = e.lexemes ++ rest

lemma Spells.weaken {least least' : Nat} {e : Expr} {ts rest : List Lexeme}
    (h : Spells least e ts rest) (hle : least' ≤ least) : Spells least' e ts rest :=
  ⟨h.wellFormed, hle.trans h.tight, h.split⟩

lemma Spells.dotless {least : Nat} {e : Expr} {ts rest : List Lexeme}
    (h : Spells least e ts rest) (hdots : Dotless ts) : Dotless rest := by
  rw [h.split] at hdots
  exact hdots.behind

/-- Assignments of fewer than `n` lexemes are parsed into what spells them. -/
def SoundBelow (n : Nat) : Prop :=
  ∀ ts : List Lexeme, ts.length < n → Dotless ts → ∀ e rest,
    Takes (assignment ts) e rest → Spells 0 e ts rest

section

variable {n : Nat} (ih : SoundBelow n)
include ih

lemma moreArguments_sound {args : List Expr} {ts rest : List Lexeme} (hn : ts.length ≤ n)
    (hdots : Dotless ts) (h : Takes (moreArguments ts) args rest) :
    (∀ a ∈ args, a.WellFormed) ∧ ts = Expr.moreLexemes args ++ rest := by
  induction args generalizing ts with
  | nil =>
      rcases takes_moreArguments_iff.mp h with ⟨rfl, -⟩ | ⟨_, _, _, _, _, _, _, hnil⟩
      · exact ⟨by simp, by simp [Expr.moreLexemes]⟩
      · cases hnil
  | cons a args iha =>
      rcases takes_moreArguments_iff.mp h with ⟨-, hnil⟩ | ⟨_, _, ts', mid, rfl, hnext, hmore, heq⟩
      · cases hnil
      · cases heq
        rw [List.length_cons] at hn
        have ha := ih ts' (by omega) hdots.tail a mid hnext
        have hmid := hnext.shorter
        obtain ⟨hargs, hsplit⟩ := iha (by omega) (ha.dotless hdots.tail) hmore
        refine ⟨by simpa using ⟨ha.wellFormed, hargs⟩, ?_⟩
        rw [ha.split, hsplit]
        simp [Expr.moreLexemes]

lemma arguments_sound {args : List Expr} {ts rest : List Lexeme} (hn : ts.length ≤ n)
    (hdots : Dotless ts) (h : Takes (arguments ts) args rest) :
    (∀ a ∈ args, a.WellFormed) ∧
      ts = .symbol .leftParen :: Expr.listLexemes args ++ rest := by
  rcases takes_arguments_iff.mp h with ⟨rfl, rfl⟩ |
    ⟨first, others, ts', mid, rfl, -, hfirst, hothers, rfl⟩
  · exact ⟨by simp, by simp [Expr.listLexemes]⟩
  · rw [List.length_cons] at hn
    have ha := ih ts' (by omega) hdots.tail first mid hfirst
    have hmid := hfirst.shorter
    obtain ⟨hargs, hsplit⟩ :=
      moreArguments_sound ih (by omega) (ha.dotless hdots.tail) hothers
    refine ⟨by simpa using ⟨ha.wellFormed, hargs⟩, ?_⟩
    rw [ha.split, hsplit]
    simp [Expr.listLexemes]

lemma primary_sound {e : Expr} {ts rest : List Lexeme} (hn : ts.length ≤ n) (hdots : Dotless ts)
    (h : Takes (primary ts) e rest) : Spells Expr.postfixTightness e ts rest := by
  rcases takes_primary_iff.mp h with ⟨l, rfl, rfl⟩ | ⟨inner, ts', rfl, hinner, rfl⟩ |
    ⟨x, args, ts', rfl, -, hargs, rfl⟩ | ⟨x, rfl, -, rfl⟩
  · exact ⟨.literal l, le_rfl, by simp [Expr.lexemes]⟩
  · rw [List.length_cons] at hn
    have hspells := ih ts' (by omega) hdots.tail inner _ hinner
    refine ⟨.enclosed hspells.wellFormed, le_rfl, ?_⟩
    rw [hspells.split]
    simp [Expr.lexemes]
  · rw [List.length_cons] at hn
    obtain ⟨hwf, hsplit⟩ := arguments_sound ih (by omega) hdots.tail hargs
    refine ⟨.call hwf, le_rfl, ?_⟩
    rw [hsplit]
    simp [Expr.lexemes]
  · refine ⟨.name x, le_rfl, ?_⟩
    have hx := hdots x (by simp)
    simp [Expr.lexemes, Expr.nameLexemes_of_not_mem hx]

lemma members_sound {e whole : Expr} {ts rest : List Lexeme} (hn : ts.length ≤ n)
    (hdots : Dotless ts) (hwf : e.WellFormed) (htight : Expr.postfixTightness ≤ e.tightness)
    (h : Takes (members e ts) whole rest) :
    Spells Expr.postfixTightness whole (e.lexemes ++ ts) rest := by
  -- Each turn of the loop takes a dot, a word and possibly arguments.
  induction hlen : ts.length using Nat.strong_induction_on generalizing e ts with
  | _ k ihk =>
    rcases takes_members_iff.mp h with ⟨-, rfl, rfl⟩ |
      ⟨f, args, ts', mid, rfl, -, hargs, hmembers⟩ | ⟨x, word, ts', rfl, -, rfl, hmembers⟩
    · exact ⟨hwf, htight, rfl⟩
    · simp only [List.length_cons] at hn hlen
      obtain ⟨hargswf, hsplit⟩ := arguments_sound ih (by omega) hdots.tail.tail hargs
      have hmid := hargs.shorter
      have hdots' := hdots.tail.tail
      rw [hsplit] at hdots'
      have hwhole := ihk mid.length (by omega) (by omega) hdots'.behind
        (.scopedCall hwf hargswf htight) le_rfl hmembers rfl
      rw [hsplit]
      simpa [Expr.lexemes] using hwhole
    · simp only [List.length_cons] at hn hlen
      have hword := hdots word (by simp)
      have hwhole := ihk ts'.length (by omega) (by omega) hdots.tail.tail (.name _) le_rfl
        hmembers rfl
      rw [Expr.lexemes, Expr.nameLexemes_qualified x hword] at hwhole
      simpa [Expr.lexemes] using hwhole

lemma postfixed_sound {e : Expr} {ts rest : List Lexeme} (hn : ts.length ≤ n)
    (hdots : Dotless ts) (h : Takes (postfixed ts) e rest) :
    Spells Expr.postfixTightness e ts rest := by
  obtain ⟨first, mid, hfirst, hmembers⟩ := takes_postfixed_iff.mp h
  have hspells := primary_sound ih hn hdots hfirst
  have hmid := hfirst.shorter
  rw [hspells.split]
  exact members_sound ih (by omega) (hspells.dotless hdots) hspells.wellFormed hspells.tight
    hmembers

lemma unary_sound {e : Expr} {ts rest : List Lexeme} (hn : ts.length ≤ n) (hdots : Dotless ts)
    (h : Takes (unary ts) e rest) : Spells Expr.unaryTightness e ts rest := by
  induction hlen : ts.length using Nat.strong_induction_on generalizing e ts with
  | _ k ihk =>
    rcases takes_unary_iff.mp h with ⟨op, operand, ts', rfl, hoperand, rfl⟩ | ⟨-, hpostfixed⟩
    · simp only [List.length_cons] at hn hlen
      have hspells := ihk ts'.length (by omega) (by omega) hdots.tail hoperand rfl
      refine ⟨.unary hspells.wellFormed hspells.tight, le_rfl, ?_⟩
      rw [hspells.split]
      simp [Expr.lexemes]
    · exact (postfixed_sound ih hn hdots hpostfixed).weaken (Nat.le_succ _)

lemma operations_sound {left e : Expr} {ts rest : List Lexeme} (hn : ts.length ≤ n)
    (hdots : Dotless ts) (hwf : left.WellFormed) (htight : 2 ≤ left.tightness)
    (h : Takes (operations 0 left ts) e rest) : Spells 2 e (left.lexemes ++ ts) rest := by
  -- The chain so far is the invariant of the loop: it stays well formed as operands attach.
  induction hlen : ts.length using Nat.strong_induction_on generalizing left ts with
  | _ k ihk =>
    rcases takes_operations_iff.mp h with ⟨op, right, ts', mid, rfl, -, hright, hwhole⟩ |
      ⟨-, rfl, rfl⟩
    · simp only [List.length_cons] at hn hlen
      have hspells := unary_sound ih (by omega) hdots.tail hright
      have hmid := hright.shorter
      have hmin := Expr.min_le_tightness_attach left op right
      have hwhole := ihk mid.length (by omega) (by omega) (hspells.dotless hdots.tail)
        (hwf.attach hspells.wellFormed htight hspells.tight) (by omega) hwhole rfl
      rw [hspells.split]
      simpa [Expr.lexemes_attach] using hwhole
    · exact ⟨hwf, htight, rfl⟩

lemma binary_sound {e : Expr} {ts rest : List Lexeme} (hn : ts.length ≤ n) (hdots : Dotless ts)
    (h : Takes (binary 0 ts) e rest) : Spells 2 e ts rest := by
  obtain ⟨first, mid, hfirst, hwhole⟩ := takes_binary_iff.mp h
  have hspells := unary_sound ih hn hdots hfirst
  have hmid := hfirst.shorter
  rw [hspells.split]
  exact operations_sound ih (by omega) (hspells.dotless hdots) hspells.wellFormed
    (hspells.weaken (by simp)).tight hwhole

lemma conditional_sound {e : Expr} {ts rest : List Lexeme} (hn : ts.length ≤ n)
    (hdots : Dotless ts) (h : Takes (conditional ts) e rest) : Spells 1 e ts rest := by
  induction hlen : ts.length using Nat.strong_induction_on generalizing e ts with
  | _ k ihk =>
    rcases takes_conditional_iff.mp h with ⟨hbinary, -⟩ |
      ⟨c, a, b, mid, mid', hc, ha, hb, rfl⟩
    · exact (binary_sound ih hn hdots hbinary).weaken (by simp)
    · have hcs := binary_sound ih hn hdots hc
      have hmid := hc.shorter
      have hmid' := ha.shorter
      simp only [List.length_cons] at hmid hmid'
      have has := ih mid (by omega) (hcs.dotless hdots).tail a _ ha
      have hdots' := (has.dotless (hcs.dotless hdots).tail).tail
      have hbs := ihk mid'.length (by omega) (by omega) hdots' hb rfl
      refine ⟨.conditional hcs.wellFormed has.wellFormed hbs.wellFormed hcs.tight hbs.tight,
        le_rfl, ?_⟩
      rw [hcs.split, has.split, hbs.split]
      simp [Expr.lexemes]

end

/-- What is parsed as an assignment is well formed and spells the lexemes in front of the rest. -/
lemma soundBelow (n : Nat) : SoundBelow n := by
  induction n with
  | zero =>
      intro ts hlt
      exact absurd hlt (Nat.not_lt_zero _)
  | succ n ih =>
      intro ts hlt hdots e rest h
      have hn : ts.length ≤ n := by omega
      rcases takes_assignment_iff.mp h with ⟨hconditional, -⟩ | ⟨x, op, value, mid, hx, hvalue, rfl⟩
      · exact (conditional_sound ih hn hdots hconditional).weaken (Nat.zero_le _)
      · have hxs := conditional_sound ih hn hdots hx
        have hmid := hx.shorter
        rw [List.length_cons] at hmid
        have hvs := ih mid (by omega) (hxs.dotless hdots).tail value rest hvalue
        refine ⟨.assign hvs.wellFormed, Nat.zero_le _, ?_⟩
        rw [hxs.split, hvs.split]
        simp [Expr.lexemes]

lemma assignment_sound {e : Expr} {ts rest : List Lexeme} (hdots : Dotless ts)
    (h : Takes (assignment ts) e rest) : Spells 0 e ts rest :=
  soundBelow (ts.length + 1) ts (Nat.lt_succ_self _) hdots e rest h

/-! ## Declarations and statements -/

lemma initializer_sound {type x : Text} {e : Expr} {ts rest : List Lexeme} (hdots : Dotless ts)
    (h : Takes (initializer type x ts) e rest) :
    e.Declarative ∧ .name type :: .name x :: ts = e.lexemes ++ rest := by
  rcases takes_initializer_iff.mp h with ⟨value, ts', rfl, hvalue, -, rfl⟩ | ⟨-, -, rfl, rfl⟩
  · have hspells := assignment_sound hdots.tail hvalue
    refine ⟨.declare hspells.wellFormed, ?_⟩
    rw [hspells.split]
    simp [Expr.lexemes]
  · exact ⟨.declareBare type x, by simp [Expr.lexemes]⟩

/-- What is parsed as a declaration or expression may stand under a statement, and its lexemes
stand in front of the rest. -/
lemma declarationOrExpr_sound {e : Expr} {ts rest : List Lexeme} (hdots : Dotless ts)
    (h : Takes (declarationOrExpr ts) e rest) : e.Declarative ∧ ts = e.lexemes ++ rest := by
  rcases takes_declarationOrExpr_iff.mp h with ⟨type, x, ts', rfl, hinit⟩ | ⟨-, hexpr⟩
  · exact initializer_sound hdots.tail.tail hinit
  · have hspells := assignment_sound hdots hexpr
    exact ⟨.expr hspells.wellFormed, hspells.split⟩

lemma condition_sound {e : Expr} {ts rest : List Lexeme} (hdots : Dotless ts)
    (h : Takes (condition ts) e rest) :
    e.WellFormed ∧ Dotless rest ∧
      ts = .symbol .leftParen :: e.lexemes ++ .symbol .rightParen :: rest := by
  obtain ⟨ts', rfl, hinner⟩ := takes_condition_iff.mp h
  have hspells := assignment_sound hdots.tail hinner
  exact ⟨hspells.wellFormed, (hspells.dotless hdots.tail).tail,
    by rw [hspells.split, List.cons_append]⟩

/-- The statement is well formed, its lexemes stand in front of `rest`, and no `else` that would
belong to it comes next. -/
structure SpellsStmt (s : Stmt) (ts rest : List Lexeme) : Prop where
  /-- The statement is well formed. -/
  wellFormed : s.WellFormed
  /-- The lexemes are those of the statement and the rest. -/
  split : ts = s.lexemes ++ rest
  /-- An `else` that follows belongs to no `if` of the statement. -/
  complete : s.EndsOpen → rest.head? ≠ some (.keyword .elseWord)

lemma SpellsStmt.dotless {s : Stmt} {ts rest : List Lexeme} (h : SpellsStmt s ts rest)
    (hdots : Dotless ts) : Dotless rest := by
  rw [h.split] at hdots
  exact hdots.behind

/-- Statements of at most `n` lexemes are parsed into what spells them. -/
def StmtSoundUpTo (n : Nat) : Prop :=
  ∀ ts : List Lexeme, ts.length ≤ n → Dotless ts → ∀ s rest,
    Takes (statement ts) s rest → SpellsStmt s ts rest

lemma statements_sound {n : Nat} (ih : StmtSoundUpTo n) {body : List Stmt}
    {ts rest : List Lexeme} (hn : ts.length ≤ n) (hdots : Dotless ts)
    (h : Takes (statements ts) body rest) :
    (∀ s ∈ body, s.WellFormed) ∧ ts = Stmt.bodyLexemes body ++ rest := by
  induction body generalizing ts with
  | nil =>
      rcases takes_statements_iff.mp h with ⟨rfl, -⟩ | ⟨_, _, _, _, _, _, hnil⟩
      · exact ⟨by simp, by simp [Stmt.bodyLexemes]⟩
      · cases hnil
  | cons s body ihb =>
      rcases takes_statements_iff.mp h with ⟨-, hnil⟩ | ⟨_, _, mid, -, hfirst, hothers, heq⟩
      · cases hnil
      · cases heq
        have hs := ih ts hn hdots s mid hfirst
        have hmid := hfirst.shorter
        obtain ⟨hbody, hsplit⟩ := ihb (by omega) (hs.dotless hdots) hothers
        refine ⟨by simpa using ⟨hs.wellFormed, hbody⟩, ?_⟩
        rw [hs.split, hsplit]
        simp [Stmt.bodyLexemes]

lemma stmtSoundUpTo (n : Nat) : StmtSoundUpTo n := by
  induction n with
  | zero =>
      intro ts hn _ s rest h
      exact absurd h.shorter (by omega)
  | succ n ih =>
      intro ts hn hdots s rest h
      cases takes_statement_iff.mp h with
      | block hbody =>
          rw [List.length_cons] at hn
          obtain ⟨hwf, hsplit⟩ := statements_sound ih (by omega) hdots.tail hbody
          refine ⟨.block hwf, ?_, False.elim⟩
          rw [hsplit]
          simp [Stmt.lexemes]
      | @ifElse ts' mid mid' _ c thenStmt elseStmt hc hthen helse =>
          have hlt := hc.shorter
          have hlt' := hthen.shorter
          simp only [List.length_cons] at hn hlt'
          obtain ⟨hcwf, hdots', hsplit⟩ := condition_sound hdots.tail hc
          have hts := ih mid (by omega) hdots' thenStmt _ hthen
          have hes := ih mid' (by omega) (hts.dotless hdots').tail elseStmt rest helse
          -- The then-branch was left at an `else`, so it is closed.
          have hclosed : ¬ thenStmt.EndsOpen := fun hopen => hts.complete hopen rfl
          refine ⟨.ifElse hcwf hts.wellFormed hes.wellFormed hclosed, ?_, hes.complete⟩
          rw [hsplit, hts.split, hes.split]
          simp [Stmt.lexemes]
      | @ifThen ts' mid _ c thenStmt hc hthen hnone =>
          have hlt := hc.shorter
          simp only [List.length_cons] at hn
          obtain ⟨hcwf, hdots', hsplit⟩ := condition_sound hdots.tail hc
          have hts := ih mid (by omega) hdots' thenStmt rest hthen
          refine ⟨.ifThen hcwf hts.wellFormed, ?_, fun _ => hnone⟩
          rw [hsplit, hts.split]
          simp [Stmt.lexemes]
      | @whileLoop ts' mid _ c body hc hbody =>
          have hlt := hc.shorter
          simp only [List.length_cons] at hn
          obtain ⟨hcwf, hdots', hsplit⟩ := condition_sound hdots.tail hc
          have hbs := ih mid (by omega) hdots' body rest hbody
          refine ⟨.whileLoop hcwf hbs.wellFormed, ?_, hbs.complete⟩
          rw [hsplit, hbs.split]
          simp [Stmt.lexemes]
      | returnVoid => exact ⟨.returnVoid, by simp [Stmt.lexemes], False.elim⟩
      | returnValue _ hvalue =>
          have hspells := assignment_sound hdots.tail hvalue
          refine ⟨.returnValue hspells.wellFormed, ?_, False.elim⟩
          rw [hspells.split]
          simp [Stmt.lexemes]
      | empty => exact ⟨.empty, by simp [Stmt.lexemes], False.elim⟩
      | expr _ he =>
          obtain ⟨hdecl, hsplit⟩ := declarationOrExpr_sound hdots he
          refine ⟨.expr hdecl, ?_, False.elim⟩
          rw [hsplit]
          simp [Stmt.lexemes]

/-- What is parsed as a statement is well formed, and its lexemes stand in front of the rest. -/
lemma statement_sound {s : Stmt} {ts rest : List Lexeme} (hdots : Dotless ts)
    (h : Takes (statement ts) s rest) : SpellsStmt s ts rest :=
  stmtSoundUpTo ts.length ts le_rfl hdots s rest h

end Parser

end LineShell
