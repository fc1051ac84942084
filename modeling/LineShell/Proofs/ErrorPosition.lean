import LineShell.Proofs.Scan.Compose
import LineShell.Proofs.Source
import LineShell.Proofs.Tree.Lookahead
import LineShell.Proofs.Tree.Viability

/-!
# Where grammatical errors stand

A source that is scanned but has no tree is refused at one of its tokens or at its end, and at the
right one (`syntaxError_position_exact`). What stands before it can be continued to lexemes that
have a tree, by `Parses.whole`. With it included nothing can, since the parser has seen no later
lexeme when it fails (`PromptAt.exists_error`); for a member access the lexeme behind it has to be
included too.
-/

namespace LineShell

/-! ## Positions of tokens -/

namespace Scan

/-- The tokens of a text stand inside it, one behind the other. -/
lemma pos_of_after {pos : Nat} {t : Text} {scan : Scan} (h : after pos t = .ok scan) :
    (∀ token ∈ scan.tokens, pos ≤ token.pos ∧ token.pos < pos + t.length) ∧
      scan.tokens.Pairwise (fun first second => first.pos < second.pos) := by
  fun_induction after pos t generalizing scan with
  | case1 pos =>
      cases h
      exact ⟨by simp, .nil⟩
  | case2 pos c rest hc ih =>
      obtain ⟨hbounds, hordered⟩ := ih h
      refine ⟨fun token htoken => ?_, hordered⟩
      have hpos := hbounds token htoken
      rw [List.length_cons]
      omega
  | case3 pos c rest hc hcomment =>
      cases h
      exact ⟨by simp, .nil⟩
  | case4 => cases h
  | case5 => cases h
  | case6 pos c rest hc hcomment reading hread inner hinner ih =>
      cases h
      obtain ⟨hbounds, hordered⟩ := ih hinner
      have hwidth := Lexeme.width_pos_of_read hread
      have hbehind : ∀ token ∈ inner.tokens,
          pos < token.pos ∧ token.pos < pos + (c :: rest).length := by
        intro token htoken
        have hpos := hbounds token htoken
        rw [List.length_drop] at hpos
        rw [List.length_cons]
        omega
      refine ⟨List.forall_mem_cons.mpr ⟨⟨Nat.le_refl _, by simp⟩, ?_⟩,
        List.pairwise_cons.mpr ⟨fun token htoken => (hbehind token htoken).1, hordered⟩⟩
      intro token htoken
      exact ⟨Nat.le_of_lt (hbehind token htoken).1, (hbehind token htoken).2⟩

/-- The entries of a listing are ordered by their positions, with the end behind all tokens. -/
lemma pairwise_listing {source : Text} {scan : Scan} (h : ofSource source = .ok scan) :
    (listing source scan).Pairwise (fun first second => first.2 < second.2) := by
  obtain ⟨hbounds, hordered⟩ := pos_of_after h
  refine List.pairwise_append.mpr ⟨List.pairwise_map.mpr hordered, List.pairwise_singleton _ _, ?_⟩
  rintro _ hentry _ hend
  obtain ⟨token, htoken, rfl⟩ := List.mem_map.mp hentry
  obtain rfl := List.mem_singleton.mp hend
  have hpos := (hbounds token htoken).2
  rwa [Nat.zero_add] at hpos

/-- The position of an error is that of an entry of the listing, the one with as many tokens from it
on as the error says. -/
lemma exists_listing_eq (source : Text) {scan : Scan} {before behind : List Token}
    (h : scan.tokens = before ++ behind) :
    ∃ found after, listing source scan
      = before.map (fun token => (some token.lexeme, token.pos))
        ++ (found, scan.position source.length behind.length) :: after := by
  unfold listing position
  rw [h]
  cases behind with
  | nil => exact ⟨none, [], by simp⟩
  | cons token behind =>
      refine ⟨some token.lexeme, behind.map (fun token => (some token.lexeme, token.pos))
        ++ [(none, source.length)], ?_⟩
      simp

end Scan

/-! ## Lexemes and their end -/

/-- The lexemes and behind them the end, which is no lexeme. -/
def withEnd (ls : List Lexeme) : List (Option Lexeme) :=
  ls.map some ++ [none]

lemma Scan.map_fst_listing (source : Text) (scan : Scan) :
    (Scan.listing source scan).map Prod.fst = withEnd scan.lexemes := by
  simp [Scan.listing, withEnd, Scan.lexemes]

/-- Only the whole of some lexemes starts with those lexemes and their end. -/
lemma eq_of_prefix_withEnd {ts ls : List Lexeme} (h : withEnd ts <+: withEnd ls) : ls = ts := by
  induction ts generalizing ls with
  | nil =>
      cases ls with
      | nil => rfl
      | cons y ls => simp [withEnd] at h
  | cons x ts ih =>
      cases ls with
      | nil => simp [withEnd] at h
      | cons y ls =>
          simp only [withEnd, List.map_cons, List.cons_append, List.cons_prefix_cons,
            Option.some.injEq] at h
          rw [h.1, ih h.2]

/-- What starts with some of the lexemes has these in front; what starts with all of them and the
end is the same. -/
lemma of_prefix_withEnd_take {n : Nat} {ts ls : List Lexeme}
    (h : (withEnd ts).take n <+: withEnd ls) :
    (n ≤ ts.length ∧ ∃ more, ls = ts.take n ++ more) ∨ ls = ts := by
  by_cases hn : n ≤ ts.length
  · refine .inl ⟨hn, ?_⟩
    have htake : (withEnd ts).take n = (ts.take n).map some := by
      rw [withEnd, List.take_append_of_le_length (by simpa using hn), List.map_take]
    rw [htake] at h
    obtain ⟨more, hmore⟩ : ts.take n <+: ls := by
      simpa [withEnd, -List.map_take] using h.filterMap id
    exact ⟨more, hmore.symm⟩
  · refine .inr (eq_of_prefix_withEnd ?_)
    rwa [List.take_of_length_le (by simp [withEnd]; omega)] at h

/-! ## Exact positions -/

/-- The parser accepts the lexemes. -/
def Accepts {α : Type} (parser : List Lexeme → Except GrammarError α) (ls : List Lexeme) : Prop :=
  ∃ tree, parser ls = .ok tree

/-- The position `p` is exact: one entry of the listing stands there, what stands before it can be
continued to accepted lexemes, and no accepted lexemes with their end start with what stands up to
there, as far as the issue looks ahead. -/
def ExactAt {α : Type} (parser : List Lexeme → Except GrammarError α)
    (listing : List (Option Lexeme × Nat)) (issue : GrammarIssue) (p : Nat) : Prop :=
  ∃ before found after, listing = before ++ (found, p) :: after ∧
    (∀ entry ∈ before, entry.2 < p) ∧ (∀ entry ∈ after, p < entry.2) ∧
    (∃ more, (∀ x ∈ more, x.Spelled) ∧ Accepts parser (before.filterMap Prod.fst ++ more)) ∧
    (∀ ls, Accepts parser ls →
      ¬ (before ++ ((found, p) :: after).take issue.lookahead).map Prod.fst <+: withEnd ls)

section

variable {τ : Type} {P : τ → Prop} {lexemes : τ → List Lexeme} {F : Parser.Plan τ}
  {parser : List Lexeme → Except GrammarError τ} {ts : List Lexeme} {e : GrammarError}
  (hparser : ∀ ls, parser ls = (F.whole ls).map Prod.fst)
include hparser

lemma error_iff_whole : parser ts = .error e ↔ F.whole ts = .error e := by
  rw [hparser]
  rcases F.whole ts with e' | result
  · simp [Except.map]
  · simp [Except.map]

/-- What stands in front of an error can be continued. -/
lemma exists_accepts_of_error (hspelled : ∀ x ∈ ts, x.Spelled)
    (hparses : Parser.Parses P lexemes F ts)
    (haccepts : ∀ ls, Parser.Dotless ls → Parser.Words P lexemes ls → Accepts parser ls)
    (he : parser ts = .error e) :
    ∃ front rest, ts = front ++ rest ∧ rest.length = e.left ∧
      ∃ more, (∀ x ∈ more, x.Spelled) ∧ Accepts parser (front ++ more) := by
  rw [error_iff_whole hparser] at he
  obtain ⟨front, rest, rfl, hleft, more, hmore, hword⟩ :=
    hparses.whole (Parser.dotless_of_spelled hspelled) e he
  refine ⟨front, rest, rfl, hleft, more, hmore, haccepts _ ?_ hword⟩
  refine Parser.dotless_of_spelled fun x hx => ?_
  rcases List.mem_append.mp hx with hx | hx
  · exact hspelled x (List.mem_append_left rest hx)
  · exact hmore x hx

/-- Nothing that is accepted starts with the lexemes up to the one at which the error is known. -/
lemma not_accepts_of_error (hprompt : F.PromptAt ts) (he : parser ts = .error e)
    {front rest ls : List Lexeme} (hts : ts = front ++ rest) (hleft : rest.length = e.left)
    (haccepts : Accepts parser ls) :
    ¬ (withEnd ts).take (front.length + e.issue.lookahead) <+: withEnd ls := by
  obtain ⟨tree, htree⟩ := haccepts
  intro hstart
  rcases of_prefix_withEnd_take hstart with ⟨hle, more, rfl⟩ | rfl
  · have hlt : (ts.drop (front.length + e.issue.lookahead)).length < e.decided := by
      have hlength := congrArg List.length hts
      rw [List.length_append] at hlength
      rw [List.length_drop, GrammarError.decided]
      omega
    rw [error_iff_whole hparser] at he
    rw [← List.take_append_drop (front.length + e.issue.lookahead) ts] at he hprompt
    obtain ⟨e', he'⟩ := hprompt.whole.exists_error he hlt more
    rw [hparser, he'] at htree
    cases htree
  · rw [he] at htree
    cases htree

/-- The position of an error is exact if the parser is prompt and fails viably. -/
lemma exactAt_of_error {source : Text} {scan : Scan} (hscan : Scan.ofSource source = .ok scan)
    (hparses : Parser.Parses P lexemes F scan.lexemes) (hprompt : F.PromptAt scan.lexemes)
    (haccepts : ∀ ls, Parser.Dotless ls → Parser.Words P lexemes ls → Accepts parser ls)
    (he : parser scan.lexemes = .error e) :
    ExactAt parser (Scan.listing source scan) e.issue (scan.position source.length e.left) := by
  have hspelled := (Scan.splits_of_after hscan).spelled
  obtain ⟨front, rest, hts, hleft, hmore⟩ :=
    exists_accepts_of_error hparser hspelled hparses haccepts he
  obtain ⟨before, behind, htokens, rfl, rfl⟩ := List.map_eq_append_iff.mp hts
  rw [List.length_map] at hleft
  obtain ⟨found, after, hlisting⟩ := Scan.exists_listing_eq source htokens
  rw [hleft] at hlisting
  have hordered := Scan.pairwise_listing hscan
  rw [hlisting] at hordered
  obtain ⟨-, hbehind, hbefore⟩ := List.pairwise_append.mp hordered
  refine ⟨_, found, after, hlisting, fun entry hentry => hbefore entry hentry _ List.mem_cons_self,
    (List.pairwise_cons.mp hbehind).1, ?_, ?_⟩
  · simpa [List.filterMap_map, Function.comp_def] using hmore
  · intro ls hls
    have hnone := not_accepts_of_error hparser hprompt he hts (by simpa using hleft) hls
    rwa [← Scan.map_fst_listing source scan, hlisting, ← List.map_take, List.length_map,
      ← List.length_map (fun token : Token => (some token.lexeme, token.pos)),
      List.take_length_add_append] at hnone

end

/-- A failure of a source that is scanned is a grammatical error with the position of its lexeme. -/
lemma Scan.exists_error_of_parse {α : Type} {parser : List Lexeme → Except GrammarError α}
    {source : Text} {scan : Scan} (hscan : ofSource source = .ok scan)
    {failure : Failure SyntaxError} (h : parse parser source = .error failure) :
    ∃ e, parser scan.lexemes = .error e ∧
      failure = .error (.grammatical e.issue (scan.position source.length e.left)) := by
  unfold parse at h
  simp only [hscan] at h
  split at h
  · next e he =>
    cases h
    exact ⟨e, he, rfl⟩
  · cases h

/-- **Error positions are exact.** A source that is scanned and refused, as a statement or as an
expression, is refused by a grammatical error at one of its tokens or at its end. The tokens before
can be continued by tokens that a source can spell to an accepted sequence. No accepted sequence
starts with these tokens and the offending one, or, if the error is a member access, with these, the
offending one and the next. -/
theorem syntaxError_position_exact (source : Text) (scan : Scan)
    (hscan : Scan.ofSource source = .ok scan) :
    (∀ failure, Stmt.ofSource source = .error failure →
      ∃ issue p, failure = .error (.grammatical issue p) ∧
        ExactAt Stmt.ofLexemes (Scan.listing source scan) issue p) ∧
    (∀ failure, Expr.ofSource source = .error failure →
      ∃ issue p, failure = .error (.grammatical issue p) ∧
        ExactAt Expr.ofLexemes (Scan.listing source scan) issue p) := by
  have hdots := Parser.dotless_of_spelled (Scan.splits_of_after hscan).spelled
  constructor
  · intro failure hfailure
    obtain ⟨e, he, rfl⟩ := Scan.exists_error_of_parse hscan hfailure
    refine ⟨e.issue, _, rfl, exactAt_of_error Stmt.ofLexemes_eq hscan
      (Parser.statement_parses hdots) (Parser.promptAt_statement _) ?_ he⟩
    rintro ls hls ⟨s, hs⟩
    exact ⟨s, (Stmt.ofLexemes_eq_ok_iff hls).mpr hs⟩
  · intro failure hfailure
    obtain ⟨e, he, rfl⟩ := Scan.exists_error_of_parse hscan hfailure
    refine ⟨e.issue, _, rfl, exactAt_of_error Expr.ofLexemes_eq hscan
      (Parser.declarationOrExpr_parses hdots) (Parser.promptAt_declarationOrExpr _) ?_ he⟩
    rintro ls hls ⟨e, he⟩
    exact ⟨e, (Expr.ofLexemes_eq_ok_iff hls).mpr he⟩

/-- A choice that assigns a member which is no call, with nothing behind it. -/
def memberAtEnd : Text :=
  "if (a) b.c = (d).e"

/-- The issue of a refused source and its position. -/
def refusal? {α : Type} : Except (Failure SyntaxError) α → Option (GrammarIssue × Nat)
  | .error (.error (.grammatical issue p)) => some (issue, p)
  | _ => none

lemma eq_of_refusal?_eq_some {α : Type} {result : Except (Failure SyntaxError) α}
    {refusal : GrammarIssue × Nat} (h : refusal? result = some refusal) :
    result = .error (.error (.grammatical refusal.1 refusal.2)) := by
  unfold refusal? at h
  split at h
  · cases h
    rfl
  · cases h

/-- As a statement it is refused at the member, once the end is seen, and as an expression at its
first word. -/
theorem syntaxError_position_exact_member :
    ∃ scan issue issue', Scan.ofSource memberAtEnd = .ok scan ∧
      Stmt.ofSource memberAtEnd = .error (.error (.grammatical issue 17)) ∧
      issue.message = "Unexpected member access: .e" ∧ issue.lookahead = 2 ∧
      ExactAt Stmt.ofLexemes (Scan.listing memberAtEnd scan) issue 17 ∧
      Expr.ofSource memberAtEnd = .error (.error (.grammatical issue' 0)) ∧
      issue'.message = "Unexpected token: if ('if')" ∧ issue'.lookahead = 1 ∧
      ExactAt Expr.ofLexemes (Scan.listing memberAtEnd scan) issue' 0 := by
  have hok : (Scan.ofSource memberAtEnd).isOk = true := by decide +kernel
  have hstmt : (refusal? (Stmt.ofSource memberAtEnd)).map
      (fun refusal => (refusal.1.message, refusal.1.lookahead, refusal.2))
        = some (("Unexpected member access: .e" : Text), 2, 17) := by decide +kernel
  have hexpr : (refusal? (Expr.ofSource memberAtEnd)).map
      (fun refusal => (refusal.1.message, refusal.1.lookahead, refusal.2))
        = some (("Unexpected token: if ('if')" : Text), 1, 0) := by decide +kernel
  rcases hscan : Scan.ofSource memberAtEnd with failure | scan
  · rw [hscan] at hok
    cases hok
  obtain ⟨⟨issue, p⟩, hissue, hparts⟩ := Option.map_eq_some_iff.mp hstmt
  obtain ⟨⟨issue', p'⟩, hissue', hparts'⟩ := Option.map_eq_some_iff.mp hexpr
  simp only [Prod.mk.injEq] at hparts hparts'
  obtain ⟨hmessage, hlookahead, rfl⟩ := hparts
  obtain ⟨hmessage', hlookahead', rfl⟩ := hparts'
  have hrefused := eq_of_refusal?_eq_some hissue
  have hrefused' := eq_of_refusal?_eq_some hissue'
  have hexact := syntaxError_position_exact memberAtEnd scan hscan
  obtain ⟨_, _, heq, hmember⟩ := hexact.1 _ hrefused
  cases heq
  obtain ⟨_, _, heq, hfirst⟩ := hexact.2 _ hrefused'
  cases heq
  exact ⟨scan, issue, issue', rfl, hrefused, hmessage, hlookahead, hmember, hrefused', hmessage',
    hlookahead', hfirst⟩

end LineShell
