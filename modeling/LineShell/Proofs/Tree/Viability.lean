import LineShell.Proofs.Lexeme.Spelling
import LineShell.Proofs.Tree.Plan
import LineShell.Proofs.Tree.Soundness

/-!
# What stands in front of an error can be continued

Where a parser fails, the lexemes in front of the error are the beginning of something that the
grammar allows. The continuation closes what is open at that place: it supplies a missing operand,
the other branch of a conditional, a parenthesis, a semicolon.

A parser reads from left to right, so the argument does: `FailsViably L front ts result` says that
`front` was read, `ts` comes next, and if the result is an error then all that was read up to there
begins a word of `L`. For a parser that calls itself `front` is the tree that it was given.
-/

namespace LineShell

namespace Parser

variable {α β τ : Type}

/-! ## Viable errors -/

/-- Lexemes that a source can spell, behind `front`, make a word of `L`. -/
def Viable (L : List Lexeme → Prop) (front : List Lexeme) : Prop :=
  ∃ more, (∀ x ∈ more, x.Spelled) ∧ L (front ++ more)

/-- If the result on the lexemes `ts` behind `front` is an error, then what stands in front of the
error begins a word of `L`. -/
def FailsViably (L : List Lexeme → Prop) (front ts : List Lexeme)
    (result : Except GrammarError (α × List Lexeme)) : Prop :=
  ∀ e, result = .error e →
    ∃ mid rest, ts = mid ++ rest ∧ rest.length = e.left ∧ Viable L (front ++ mid)

/-- A name for places where one is missing. -/
def filler : Lexeme :=
  .name "x"

@[simp] lemma spelled_filler : filler.Spelled :=
  ⟨⟨⟨_, rfl, by decide⟩, by decide⟩, by decide⟩

@[simp] lemma nameLexemes_filler : Expr.nameLexemes "x" = [filler] := by
  decide

@[simp] lemma spelled_symbol (s : Symbol) : (Lexeme.symbol s).Spelled :=
  trivial

namespace FailsViably

variable {L L' : List Lexeme → Prop} {front mid ts : List Lexeme}
  {result : Except GrammarError (α × List Lexeme)}

lemma ok {a : α} {rest : List Lexeme} : FailsViably L front ts (.ok (a, rest)) := by
  intro e he
  cases he

lemma error (h : Viable L front) (issue : GrammarIssue) :
    FailsViably L front ts (.error ⟨issue, ts.length⟩ : Except GrammarError (α × List Lexeme)) := by
  intro e he
  cases he
  exact ⟨[], ts, rfl, rfl, by rwa [List.append_nil]⟩

/-- An error stands behind lexemes that were read. -/
lemma behind (h : FailsViably L (front ++ mid) ts result) :
    FailsViably L front (mid ++ ts) result := by
  intro e he
  obtain ⟨mid', rest, rfl, hlength, hviable⟩ := h e he
  exact ⟨mid ++ mid', rest, by rw [List.append_assoc], hlength, by rwa [← List.append_assoc]⟩

lemma cons {x : Lexeme} (h : FailsViably L (front ++ [x]) ts result) :
    FailsViably L front (x :: ts) result :=
  behind h

/-- An error inside a part: the part is completed first, and then the whole. -/
lemma part (h : FailsViably L' [] ts result) (hpart : ∀ ls, L' ls → Viable L (front ++ ls)) :
    FailsViably L front ts result := by
  intro e he
  obtain ⟨mid, rest, hts, hlength, more, hmore, hword⟩ := h e he
  obtain ⟨more', hmore', hword'⟩ := hpart _ hword
  refine ⟨mid, rest, hts, hlength, more ++ more', ?_, ?_⟩
  · intro x hx
    exact (List.mem_append.mp hx).elim (hmore x) (hmore' x)
  · simpa using hword'

lemma andThen {first : Plan α} {next : α → Plan β} (hfirst : FailsViably L front ts (first ts))
    (hnext : ∀ a rest, first ts = .ok (a, rest) → FailsViably L front ts (next a rest)) :
    FailsViably L front ts (first.andThen next ts) := by
  intro e he
  rcases Plan.andThen_eq_error_iff.mp he with he | ⟨a, rest, hok, he⟩
  · exact hfirst e he
  · exact hnext a rest hok e he

lemma peek {x : Lexeme} {found other : Plan α}
    (hfound : ∀ rest, ts = x :: rest → FailsViably L front ts (found ts))
    (hother : FailsViably L front ts (other ts)) :
    FailsViably L front ts (Plan.peek x found other ts) := by
  by_cases hhead : ts.head? = some x
  · rw [Plan.peek_of_head? hhead]
    obtain ⟨rest, hts⟩ := List.head?_eq_some_iff.mp hhead
    exact hfound rest hts
  · rw [Plan.peek_of_head?_ne hhead]
    exact hother

lemma choice {x : Lexeme} {found other : Plan α}
    (hfound : ∀ rest, ts = x :: rest → FailsViably L (front ++ [x]) rest (found rest))
    (hother : FailsViably L front ts (other ts)) :
    FailsViably L front ts (Plan.choice x found other ts) := by
  refine peek ?_ hother
  rintro rest rfl
  exact (hfound rest rfl).behind

lemma expecting {s : Symbol} {next : Plan α} (h : Viable L front)
    (hnext : ∀ rest, ts = .symbol s :: rest →
      FailsViably L (front ++ [.symbol s]) rest (next rest)) :
    FailsViably L front ts (Plan.expecting s next ts) :=
  choice hnext (error h _)

lemma expectingName {next : Text → Plan α} (h : Viable L front)
    (hnext : ∀ x rest, ts = .name x :: rest → FailsViably L front ts (next x rest)) :
    FailsViably L front ts (Plan.expectingName next ts) := by
  rcases ts with _ | ⟨y, rest⟩
  · exact error h _
  · cases y with
    | name x => exact hnext x rest rfl
    | _ => exact error h _

lemma refusingComma {next : Plan α} (h : Viable L front)
    (hnext : FailsViably L front ts (next ts)) :
    FailsViably L front ts (Plan.refusingComma next ts) :=
  peek (fun _ _ => error h _) hnext

end FailsViably

/-! ## Parts of a tree -/

/-- The lexemes of the trees that `P` allows. -/
def Words (P : τ → Prop) (lexemes : τ → List Lexeme) (ls : List Lexeme) : Prop :=
  ∃ t, P t ∧ lexemes t = ls

/-- On `ts` the plan takes a tree that `P` allows, or fails viably. -/
structure Parses (P : τ → Prop) (lexemes : τ → List Lexeme) (F : Plan τ) (ts : List Lexeme) :
    Prop where
  /-- The lexemes of the tree stand in front of the rest. -/
  takes : ∀ t rest, F ts = .ok (t, rest) → P t ∧ ts = lexemes t ++ rest
  /-- Something is taken. -/
  shorter : ∀ t rest, F ts = .ok (t, rest) → rest.length < ts.length
  /-- An error is viable. -/
  fails : FailsViably (Words P lexemes) [] ts (F ts)

namespace Parses

variable {P : τ → Prop} {lexemes : τ → List Lexeme} {ts : List Lexeme}

lemma ofPlan {parser : (ts : List Lexeme) → Except GrammarError (Parsed τ ts.length)}
    (htakes : ∀ t rest, Takes (parser ts) t rest → P t ∧ ts = lexemes t ++ rest)
    (hfails : FailsViably (Words P lexemes) [] ts (plan parser ts)) :
    Parses P lexemes (plan parser) ts :=
  ⟨fun t rest h => htakes t rest (plan_eq_ok_iff.mp h),
    fun _ _ h => (plan_eq_ok_iff.mp h).shorter, hfails⟩

/-- A part of a tree and what comes behind it. With any such part the whole can be completed, so it
can be while the part is read. -/
lemma andThen {F : Plan τ} {next : τ → Plan β} {L : List Lexeme → Prop} {front : List Lexeme}
    (h : Parses P lexemes F ts) (hdots : Dotless ts)
    (hpart : ∀ t, P t → Viable L (front ++ lexemes t))
    (hnext : ∀ t rest, F ts = .ok (t, rest) → P t → rest.length < ts.length → Dotless rest →
      FailsViably L (front ++ lexemes t) rest (next t rest)) :
    FailsViably L front ts (F.andThen next ts) := by
  refine .andThen (h.fails.part ?_) fun t rest hok => ?_
  · rintro _ ⟨t, ht, rfl⟩
    exact hpart t ht
  · obtain ⟨ht, hsplit⟩ := h.takes t rest hok
    have hdots' : Dotless rest := by
      rw [hsplit] at hdots
      exact hdots.behind
    have hbehind := hnext t rest hok ht (h.shorter t rest hok) hdots'
    rw [hsplit]
    exact hbehind.behind

/-- The last part of a tree. -/
lemma last {F : Plan τ} {a : τ → α} {L : List Lexeme → Prop} {front : List Lexeme}
    (h : Parses P lexemes F ts) (hdots : Dotless ts)
    (hpart : ∀ t, P t → Viable L (front ++ lexemes t)) :
    FailsViably L front ts (F.andThen (fun t => Plan.done (a t)) ts) :=
  h.andThen hdots hpart fun _ _ _ _ _ _ => .ok

end Parses

/-! ## Expressions -/

/-- On `ts` the plan takes an expression that binds at least as tightly as `least`, or fails
viably. -/
abbrev ParsesExpr (least : Nat) (F : Plan Expr) (ts : List Lexeme) : Prop :=
  Parses (fun e => e.WellFormed ∧ least ≤ e.tightness) Expr.lexemes F ts

/-- The lexemes of an expression that binds at least as tightly as `least`. -/
abbrev IsExpr (least : Nat) : List Lexeme → Prop :=
  Words (fun e => e.WellFormed ∧ least ≤ e.tightness) Expr.lexemes

lemma Spells.takes {least : Nat} {e : Expr} {ts rest : List Lexeme} (h : Spells least e ts rest) :
    (e.WellFormed ∧ least ≤ e.tightness) ∧ ts = e.lexemes ++ rest :=
  ⟨⟨h.wellFormed, h.tight⟩, h.split⟩

/-- A tighter form may stand where a looser one does. -/
lemma viable_of_le {least least' : Nat} (hle : least' ≤ least) (e : Expr)
    (he : e.WellFormed ∧ least ≤ e.tightness) : Viable (IsExpr least') ([] ++ e.lexemes) :=
  ⟨[], by simp, e, ⟨he.1, hle.trans he.2⟩, by simp⟩

/-- Assignments of fewer than `n` lexemes are read. -/
def ParsesBelow (n : Nat) : Prop :=
  ∀ ts : List Lexeme, ts.length < n → Dotless ts → ParsesExpr 0 (plan assignment) ts

section

variable {n : Nat} (ih : ParsesBelow n)
include ih

lemma moreArguments_parses {ts : List Lexeme} (hn : ts.length ≤ n) (hdots : Dotless ts) :
    Parses (fun args => ∀ a ∈ args, a.WellFormed) Expr.moreLexemes (plan moreArguments) ts := by
  induction hlen : ts.length using Nat.strong_induction_on generalizing ts with
  | _ k ihk =>
    refine .ofPlan (fun args rest h => moreArguments_sound (soundBelow n) hn hdots h) ?_
    rw [plan_moreArguments]
    refine .choice ?_ (.expecting ⟨[.symbol .rightParen], by simp, [], by simp,
      by simp [Expr.moreLexemes]⟩ fun _ _ => .ok)
    rintro ts' rfl
    rw [List.length_cons] at hn hlen
    refine (ih ts' (by omega) hdots.tail).andThen hdots.tail ?_ fun a mid _ ha hmid hdots' => ?_
    · intro a ha
      exact ⟨[.symbol .rightParen], by simp, [a], by simpa using ha.1, by simp [Expr.moreLexemes]⟩
    · refine (ihk mid.length (by omega) (by omega) hdots' rfl).last hdots' ?_
      intro args hargs
      exact ⟨[], by simp, a :: args, by simpa using ⟨ha.1, hargs⟩, by simp [Expr.moreLexemes]⟩

lemma arguments_parses {ts : List Lexeme} (hn : ts.length ≤ n) (hdots : Dotless ts) :
    Parses (fun args => ∀ a ∈ args, a.WellFormed)
      (fun args => .symbol .leftParen :: Expr.listLexemes args) (plan arguments) ts := by
  refine .ofPlan (fun args rest h => arguments_sound (soundBelow n) hn hdots h) ?_
  rw [plan_arguments]
  refine .expecting ⟨[.symbol .leftParen, .symbol .rightParen], by simp, [], by simp,
    by simp [Expr.listLexemes]⟩ ?_
  rintro ts' rfl
  rw [List.length_cons] at hn
  refine .choice (fun _ _ => .ok) ?_
  refine (ih ts' (by omega) hdots.tail).andThen hdots.tail ?_ fun a mid _ ha hmid hdots' => ?_
  · intro a ha
    exact ⟨[.symbol .rightParen], by simp, [a], by simpa using ha.1,
      by simp [Expr.listLexemes, Expr.moreLexemes]⟩
  · refine (moreArguments_parses ih (by omega) hdots').last hdots' ?_
    intro args hargs
    exact ⟨[], by simp, a :: args, by simpa using ⟨ha.1, hargs⟩, by simp [Expr.listLexemes]⟩

lemma primary_parses {ts : List Lexeme} (hn : ts.length ≤ n) (hdots : Dotless ts) :
    ParsesExpr Expr.postfixTightness (plan primary) ts := by
  refine .ofPlan (fun e rest h => (primary_sound (soundBelow n) hn hdots h).takes) ?_
  have hname : Viable (IsExpr Expr.postfixTightness) [] :=
    ⟨[filler], by simp, .name "x", ⟨.name "x", le_rfl⟩, by simp [Expr.lexemes]⟩
  rw [plan_primary]
  rcases ts with _ | ⟨y, ts'⟩
  · exact .error hname _
  · rw [List.length_cons] at hn
    cases y with
    | literal l => exact .ok
    | keyword k => exact .error hname _
    | name x =>
        refine .cons (.peek (fun _ _ => ?_) .ok)
        refine (arguments_parses ih (by omega) hdots.tail).last hdots.tail ?_
        intro args hargs
        exact ⟨[], by simp, .call x args, ⟨.call hargs, le_rfl⟩, by simp [Expr.lexemes]⟩
    | symbol s =>
        cases s with
        | leftParen =>
            have hclose : ∀ e : Expr, e.WellFormed ∧ 0 ≤ e.tightness →
                Viable (IsExpr Expr.postfixTightness) ([.symbol .leftParen] ++ e.lexemes) :=
              fun e he => ⟨[.symbol .rightParen], by simp, .enclosed e, ⟨.enclosed he.1, le_rfl⟩,
                by simp [Expr.lexemes]⟩
            refine .cons ?_
            exact (ih ts' (by omega) hdots.tail).andThen hdots.tail hclose
              fun e rest _ he _ _ => .expecting (hclose e he) fun _ _ => .ok
        | _ => exact .error hname _

lemma members_viable {e : Expr} {ts : List Lexeme} (hn : ts.length ≤ n) (hdots : Dotless ts)
    (hwf : e.WellFormed) (htight : Expr.postfixTightness ≤ e.tightness) :
    FailsViably (IsExpr Expr.postfixTightness) e.lexemes ts (plan (members e) ts) := by
  induction hlen : ts.length using Nat.strong_induction_on generalizing e ts with
  | _ k ihk =>
    rw [plan_members]
    refine .choice ?_ .ok
    rintro ts' rfl
    -- Behind a dot a call may stand, whatever is in front of it.
    have hcall : Viable (IsExpr Expr.postfixTightness) (e.lexemes ++ [.symbol .dot]) :=
      ⟨[filler, .symbol .leftParen, .symbol .rightParen], by simp, .scopedCall e "x" [],
        ⟨.scopedCall hwf (by simp) htight, le_rfl⟩,
        by simp [Expr.lexemes, Expr.listLexemes, filler]⟩
    refine .expectingName hcall ?_
    rintro word behind rfl
    simp only [List.length_cons] at hn hlen
    by_cases hopen : behind.head? = some (.symbol .leftParen)
    · rw [Plan.peek_of_head? hopen]
      refine .cons ?_
      refine (arguments_parses ih (by omega) hdots.tail.tail).andThen hdots.tail.tail ?_
        fun args rest _ hargs hrest hdots' => ?_
      · intro args hargs
        exact ⟨[], by simp, .scopedCall e word args, ⟨.scopedCall hwf hargs htight, le_rfl⟩,
          by simp [Expr.lexemes]⟩
      · have hwhole := ihk rest.length (by omega) (by omega) hdots'
          (.scopedCall (f := word) hwf hargs htight) le_rfl rfl
        simpa [Expr.lexemes] using hwhole
    · rw [Plan.peek_of_head?_ne hopen]
      cases e with
      | name x =>
          have hword := hdots word (by simp)
          have hwhole := ihk behind.length (by omega) (by omega) hdots.tail.tail
            (.name (x ++ "." ++ word)) le_rfl rfl
          rw [Expr.lexemes, Expr.nameLexemes_qualified x hword] at hwhole
          refine .cons ?_
          simpa [Expr.lexemes] using hwhole
      | _ => exact .error hcall _

lemma postfixed_parses {ts : List Lexeme} (hn : ts.length ≤ n) (hdots : Dotless ts) :
    ParsesExpr Expr.postfixTightness (plan postfixed) ts := by
  refine .ofPlan (fun e rest h => (postfixed_sound (soundBelow n) hn hdots h).takes) ?_
  rw [plan_postfixed]
  exact (primary_parses ih hn hdots).andThen hdots (viable_of_le le_rfl)
    fun e rest _ he hrest hdots' => members_viable ih (by omega) hdots' he.1 he.2

lemma unary_parses {ts : List Lexeme} (hn : ts.length ≤ n) (hdots : Dotless ts) :
    ParsesExpr Expr.unaryTightness (plan unary) ts := by
  induction hlen : ts.length using Nat.strong_induction_on generalizing ts with
  | _ k ihk =>
    refine .ofPlan (fun e rest h => (unary_sound (soundBelow n) hn hdots h).takes) ?_
    rw [plan_unary]
    rcases hop : ts.head?.bind unaryOf? with _ | op
    · simp only [Plan.look, hop]
      refine (postfixed_parses ih hn hdots).fails.part ?_
      rintro _ ⟨e, he, rfl⟩
      exact viable_of_le (Nat.le_succ _) e he
    · simp only [Plan.look, hop]
      obtain ⟨ts', rfl⟩ := exists_of_unaryOf? hop
      rw [List.length_cons] at hn hlen
      refine .cons ?_
      refine (ihk ts'.length (by omega) (by omega) hdots.tail rfl).last hdots.tail ?_
      intro e he
      exact ⟨[], by simp, .unary op e, ⟨.unary he.1 he.2, le_rfl⟩, by simp [Expr.lexemes]⟩

lemma operations_viable {left : Expr} {ts : List Lexeme} (hn : ts.length ≤ n)
    (hdots : Dotless ts) (hwf : left.WellFormed) (htight : 2 ≤ left.tightness) :
    FailsViably (IsExpr 2) left.lexemes ts (plan (operations 0 left) ts) := by
  induction hlen : ts.length using Nat.strong_induction_on generalizing left ts with
  | _ k ihk =>
    rw [plan_operations]
    rcases ts with _ | ⟨y, ts'⟩
    · exact .ok
    · cases y with
      | symbol s =>
          cases s with
          | binary op =>
              have hattach : ∀ right : Expr,
                  right.WellFormed ∧ Expr.unaryTightness ≤ right.tightness →
                  (left.attach op right).WellFormed ∧ 2 ≤ (left.attach op right).tightness := by
                intro right hright
                have hmin := Expr.min_le_tightness_attach left op right
                exact ⟨hwf.attach hright.1 htight hright.2, by omega⟩
              rw [List.length_cons] at hn hlen
              simp only [Plan.look, List.head?_cons, if_pos (Nat.zero_le _)]
              refine .cons ?_
              refine (unary_parses ih (by omega) hdots.tail).andThen hdots.tail ?_
                fun right rest _ hright hrest hdots' => ?_
              · intro right hright
                exact ⟨[], by simp, left.attach op right, hattach right hright,
                  by simp [Expr.lexemes_attach]⟩
              · obtain ⟨hwf', htight'⟩ := hattach right hright
                have hwhole := ihk rest.length (by omega) (by omega) hdots' hwf' htight' rfl
                simpa [Expr.lexemes_attach] using hwhole
          | _ => exact .ok
      | _ => exact .ok

lemma binary_parses {ts : List Lexeme} (hn : ts.length ≤ n) (hdots : Dotless ts) :
    ParsesExpr 2 (plan (binary 0)) ts := by
  refine .ofPlan (fun e rest h => (binary_sound (soundBelow n) hn hdots h).takes) ?_
  have hle : 2 ≤ Expr.unaryTightness := by simp
  rw [plan_binary]
  exact (unary_parses ih hn hdots).andThen hdots (viable_of_le hle)
    fun e rest _ he hrest hdots' =>
      operations_viable ih (by omega) hdots' he.1 (hle.trans he.2)

lemma conditional_parses {ts : List Lexeme} (hn : ts.length ≤ n) (hdots : Dotless ts) :
    ParsesExpr 1 (plan conditional) ts := by
  induction hlen : ts.length using Nat.strong_induction_on generalizing ts with
  | _ k ihk =>
    refine .ofPlan (fun e rest h => (conditional_sound (soundBelow n) hn hdots h).takes) ?_
    rw [plan_conditional]
    refine (binary_parses ih hn hdots).andThen hdots (viable_of_le (by simp))
      fun c mid _ hc hmid hdots' => .choice ?_ .ok
    rintro ts' rfl
    have hbranch : ∀ a : Expr, a.WellFormed ∧ 0 ≤ a.tightness →
        Viable (IsExpr 1) ([] ++ c.lexemes ++ [.symbol .question] ++ a.lexemes) := fun a ha =>
      ⟨[.symbol .colon, filler], by simp, .conditional c a (.name "x"),
        ⟨.conditional hc.1 ha.1 (.name "x") hc.2 (by decide), le_rfl⟩, by simp [Expr.lexemes]⟩
    rw [List.length_cons] at hmid
    refine (ih ts' (by omega) hdots'.tail).andThen hdots'.tail hbranch
      fun a rest _ ha hrest hdots'' => .expecting (hbranch a ha) ?_
    rintro ts'' rfl
    rw [List.length_cons] at hrest
    refine (ihk ts''.length (by omega) (by omega) hdots''.tail rfl).last hdots''.tail ?_
    intro b hb
    exact ⟨[], by simp, .conditional c a b, ⟨.conditional hc.1 ha.1 hb.1 hc.2 hb.2, le_rfl⟩,
      by simp [Expr.lexemes]⟩

end

lemma parsesBelow (n : Nat) : ParsesBelow n := by
  induction n with
  | zero =>
      intro ts hlt
      exact absurd hlt (Nat.not_lt_zero _)
  | succ n ih =>
      intro ts hlt hdots
      refine .ofPlan (fun e rest h => (assignment_sound hdots h).takes) ?_
      rw [plan_assignment]
      refine (conditional_parses ih (by omega) hdots).andThen hdots (viable_of_le (Nat.zero_le _))
        fun target rest _ ht hrest hdots' => ?_
      rcases rest with _ | ⟨y, ts'⟩
      · exact .ok
      · cases y with
        | symbol s =>
            cases s with
            | assign op =>
                cases target with
                | name x =>
                    rw [List.length_cons] at hrest
                    refine .cons ?_
                    refine (ih ts' (by omega) hdots'.tail).last hdots'.tail ?_
                    intro value hvalue
                    exact ⟨[], by simp, .assign (.name x) op value,
                      ⟨.assign hvalue.1, Nat.zero_le _⟩, by simp [Expr.lexemes]⟩
                | _ => exact .error (viable_of_le (Nat.zero_le _) _ ht) _
            | _ => exact .ok
        | _ => exact .ok

lemma assignment_parses {ts : List Lexeme} (hdots : Dotless ts) :
    ParsesExpr 0 (plan assignment) ts :=
  parsesBelow (ts.length + 1) ts (Nat.lt_succ_self _) hdots

/-! ## Declarations and statements -/

/-- The lexemes of what may stand directly under an expression statement. -/
abbrev IsDeclarative : List Lexeme → Prop :=
  Words Expr.Declarative Expr.lexemes

/-- The lexemes of a statement. -/
abbrev IsStmt : List Lexeme → Prop :=
  Words Stmt.WellFormed Stmt.lexemes

lemma initializer_viable (type x : Text) {ts : List Lexeme} (hdots : Dotless ts) :
    FailsViably IsDeclarative [.name type, .name x] ts (plan (initializer type x) ts) := by
  rw [plan_initializer]
  refine .choice ?_ (.refusingComma ⟨[], by simp, .declareBare type x, .declareBare type x,
    by simp [Expr.lexemes]⟩ .ok)
  rintro ts' rfl
  have hdeclare : ∀ e : Expr, e.WellFormed ∧ 0 ≤ e.tightness →
      Viable IsDeclarative ([.name type, .name x] ++ [.symbol (.assign .set)] ++ e.lexemes) :=
    fun e he => ⟨[], by simp, .declare type x e, .declare he.1, by simp [Expr.lexemes]⟩
  exact (assignment_parses hdots.tail).andThen hdots.tail hdeclare
    fun e rest _ he _ _ => .refusingComma (hdeclare e he) .ok

lemma declarationOrExpr_parses {ts : List Lexeme} (hdots : Dotless ts) :
    Parses Expr.Declarative Expr.lexemes (plan declarationOrExpr) ts := by
  refine .ofPlan (fun e rest h => declarationOrExpr_sound hdots h) ?_
  by_cases hnames : ∃ type x rest, ts = .name type :: .name x :: rest
  · obtain ⟨type, x, rest, rfl⟩ := hnames
    rw [plan_declarationOrExpr_of_names]
    exact .cons (.cons (initializer_viable type x hdots.tail.tail))
  · rw [plan_declarationOrExpr_of_ne fun type x rest h => hnames ⟨type, x, rest, h⟩]
    refine (assignment_parses hdots).fails.part ?_
    rintro _ ⟨e, he, rfl⟩
    exact ⟨[], by simp, e, .expr he.1, by simp⟩

lemma condition_parses {ts : List Lexeme} (hdots : Dotless ts) :
    Parses Expr.WellFormed (fun e => .symbol .leftParen :: e.lexemes ++ [.symbol .rightParen])
      (plan condition) ts := by
  refine .ofPlan (fun e rest h => ?_) ?_
  · obtain ⟨he, -, hsplit⟩ := condition_sound hdots h
    exact ⟨he, by simpa using hsplit⟩
  rw [plan_condition]
  refine .expecting ⟨[.symbol .leftParen, filler, .symbol .rightParen], by simp, .name "x",
    .name "x", by simp [Expr.lexemes]⟩ ?_
  rintro ts' rfl
  have hclose : ∀ e : Expr, e.WellFormed ∧ 0 ≤ e.tightness → Viable (Words Expr.WellFormed
      fun e => .symbol .leftParen :: e.lexemes ++ [.symbol .rightParen])
        ([] ++ [.symbol .leftParen] ++ e.lexemes) :=
    fun e he => ⟨[.symbol .rightParen], by simp, e, he.1, by simp⟩
  exact (assignment_parses hdots.tail).andThen hdots.tail hclose
    fun e rest _ he _ _ => .expecting (hclose e he) fun _ _ => .ok

/-- Statements of fewer than `n` lexemes are read. -/
def StmtParsesBelow (n : Nat) : Prop :=
  ∀ ts : List Lexeme, ts.length < n → Dotless ts →
    Parses Stmt.WellFormed Stmt.lexemes (plan statement) ts

lemma statements_parses {n : Nat} (ih : StmtParsesBelow n) {ts : List Lexeme}
    (hn : ts.length < n) (hdots : Dotless ts) :
    Parses (fun body => ∀ s ∈ body, s.WellFormed) Stmt.bodyLexemes (plan statements) ts := by
  induction hlen : ts.length using Nat.strong_induction_on generalizing ts with
  | _ k ihk =>
    refine .ofPlan (fun body rest h => statements_sound (stmtSoundUpTo _) le_rfl hdots h) ?_
    rw [plan_statements]
    have hfirst : FailsViably (Words (fun body => ∀ s ∈ body, s.WellFormed) Stmt.bodyLexemes) [] ts
        ((plan statement).andThen (fun first =>
          (plan statements).andThen fun others => Plan.done (first :: others)) ts) := by
      refine (ih ts hn hdots).andThen hdots ?_ fun s rest _ hs hrest hdots' => ?_
      · intro s hs
        exact ⟨[.symbol .rightBrace], by simp, [s], by simpa using hs, by simp [Stmt.bodyLexemes]⟩
      · refine (ihk rest.length (by omega) (by omega) hdots' rfl).last hdots' ?_
        intro body hbody
        exact ⟨[], by simp, s :: body, by simpa using ⟨hs, hbody⟩, by simp [Stmt.bodyLexemes]⟩
    rcases ts with _ | ⟨y, ts'⟩
    · exact .error ⟨[.symbol .rightBrace], by simp, [], by simp, by simp [Stmt.bodyLexemes]⟩ _
    · cases y with
      | symbol s =>
          cases s with
          | rightBrace => exact .ok
          | _ => exact hfirst
      | _ => exact hfirst

lemma ifStatement_viable {n : Nat} (ih : StmtParsesBelow n) {ts : List Lexeme}
    (hn : ts.length < n) (hdots : Dotless ts) :
    FailsViably IsStmt [.keyword .ifWord] ts (Plan.ifStatement ts) := by
  refine (condition_parses hdots).andThen hdots ?_ fun c mid _ hc hmid hdots' => ?_
  · intro c hc
    exact ⟨[.symbol .semicolon], by simp, .ifThen c .empty, .ifThen hc .empty,
      by simp [Stmt.lexemes]⟩
  refine (ih mid (by omega) hdots').andThen hdots' ?_
    fun thenStmt rest hok hthen hrest hdots'' => ?_
  · intro thenStmt hthen
    exact ⟨[], by simp, .ifThen c thenStmt, .ifThen hc hthen, by simp [Stmt.lexemes]⟩
  refine .choice ?_ .ok
  rintro ts' rfl
  rw [List.length_cons] at hrest
  -- The then-branch was left at an `else`, so it is closed.
  have hclosed : ¬ thenStmt.EndsOpen := fun hopen =>
    (statement_sound hdots' (plan_eq_ok_iff.mp hok)).complete hopen rfl
  refine (ih ts' (by omega) hdots''.tail).last hdots''.tail ?_
  intro elseStmt helse
  exact ⟨[], by simp, .ifElse c thenStmt elseStmt, .ifElse hc hthen helse hclosed,
    by simp [Stmt.lexemes]⟩

lemma whileStatement_viable {n : Nat} (ih : StmtParsesBelow n) {ts : List Lexeme}
    (hn : ts.length < n) (hdots : Dotless ts) :
    FailsViably IsStmt [.keyword .whileWord] ts (Plan.whileStatement ts) := by
  refine (condition_parses hdots).andThen hdots ?_ fun c mid _ hc hmid hdots' => ?_
  · intro c hc
    exact ⟨[.symbol .semicolon], by simp, .whileLoop c .empty, .whileLoop hc .empty,
      by simp [Stmt.lexemes]⟩
  refine (ih mid (by omega) hdots').last hdots' ?_
  intro body hbody
  exact ⟨[], by simp, .whileLoop c body, .whileLoop hc hbody, by simp [Stmt.lexemes]⟩

lemma returnStatement_viable {ts : List Lexeme} (hdots : Dotless ts) :
    FailsViably IsStmt [.keyword .returnWord] ts (Plan.returnStatement ts) := by
  have hstop : ∀ e : Expr, e.WellFormed ∧ 0 ≤ e.tightness →
      Viable IsStmt ([.keyword .returnWord] ++ e.lexemes) := fun e he =>
    ⟨[.symbol .semicolon], by simp, .returnValue e, .returnValue he.1, by simp [Stmt.lexemes]⟩
  refine .choice (fun _ _ => .ok) ?_
  exact (assignment_parses hdots).andThen hdots hstop
    fun e rest _ he _ _ => .expecting (hstop e he) fun _ _ => .ok

lemma exprStatement_viable {ts : List Lexeme} (hdots : Dotless ts) :
    FailsViably IsStmt [] ts (Plan.exprStatement ts) := by
  have hstop : ∀ e : Expr, e.Declarative → Viable IsStmt ([] ++ e.lexemes) := fun e he =>
    ⟨[.symbol .semicolon], by simp, .expr e, .expr he, by simp [Stmt.lexemes]⟩
  exact (declarationOrExpr_parses hdots).andThen hdots hstop
    fun e rest _ he _ _ => .expecting (hstop e he) fun _ _ => .ok

lemma block_viable {n : Nat} (ih : StmtParsesBelow n) {ts : List Lexeme} (hn : ts.length ≤ n)
    (hdots : Dotless ts) : FailsViably IsStmt [] ts (plan block ts) := by
  rw [plan_block]
  refine .expecting ⟨[.symbol .semicolon], by simp, .empty, .empty, by simp [Stmt.lexemes]⟩ ?_
  rintro ts' rfl
  refine (statements_parses ih hn hdots.tail).last hdots.tail ?_
  intro body hbody
  exact ⟨[], by simp, .block body, .block hbody, by simp [Stmt.lexemes]⟩

lemma stmtParsesBelow (n : Nat) : StmtParsesBelow n := by
  induction n with
  | zero =>
      intro ts hlt
      exact absurd hlt (Nat.not_lt_zero _)
  | succ n ih =>
      intro ts hlt hdots
      refine .ofPlan (fun s rest h => ?_) ?_
      · have hspells := statement_sound hdots h
        exact ⟨hspells.wellFormed, hspells.split⟩
      have hexpr := exprStatement_viable hdots
      rw [plan_statement]
      rcases ts with _ | ⟨y, ts'⟩
      · exact hexpr
      · cases y with
        | symbol s =>
            cases s with
            | leftBrace => exact block_viable ih (Nat.le_of_lt_succ hlt) hdots
            | semicolon => exact .ok
            | _ => exact hexpr
        | keyword k =>
            have hlt' : ts'.length < n := Nat.lt_of_succ_lt_succ hlt
            cases k with
            | ifWord => exact .cons (ifStatement_viable ih hlt' hdots.tail)
            | whileWord => exact .cons (whileStatement_viable ih hlt' hdots.tail)
            | returnWord => exact .cons (returnStatement_viable hdots.tail)
            | _ => exact hexpr
        | _ => exact hexpr

lemma statement_parses {ts : List Lexeme} (hdots : Dotless ts) :
    Parses Stmt.WellFormed Stmt.lexemes (plan statement) ts :=
  stmtParsesBelow (ts.length + 1) ts (Nat.lt_succ_self _) hdots

/-! ## Whole sources -/

/-- Where lexemes stand behind a tree, that tree is a continuation. -/
lemma Parses.whole {P : τ → Prop} {lexemes : τ → List Lexeme} {F : Plan τ} {ts : List Lexeme}
    (h : Parses P lexemes F ts) (hdots : Dotless ts) :
    FailsViably (Words P lexemes) [] ts (F.whole ts) := by
  have htree : ∀ t, P t → Viable (Words P lexemes) ([] ++ lexemes t) :=
    fun t ht => ⟨[], by simp, t, ht, by simp⟩
  refine h.andThen hdots htree fun t rest _ ht _ _ => ?_
  rcases rest with _ | ⟨y, rest⟩
  · exact .ok
  · exact .error (htree t ht) _

end Parser

end LineShell
