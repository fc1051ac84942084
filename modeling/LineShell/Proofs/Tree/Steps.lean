import LineShell.Tree.Parser
import Mathlib.Tactic.Lemma

/-!
# What each parser does, as a relation

A parser returns its tree and the lexemes behind it together with a proof that these are fewer.
`Takes` forgets the proof: it relates the result of a parser to the tree and to the rest. Each
parser has one lemma here, which says exactly when it takes a tree. Statements about parsers are
proved from these lemmas, and no parser is opened anywhere else.
-/

namespace LineShell

namespace Parser

variable {α β : Type} {m n : Nat}

/-! ## Results -/

/-- The result is a success with this tree and this rest. -/
def Takes (result : Except GrammarError (Parsed α n)) (tree : α) (rest : List Lexeme) : Prop :=
  ∃ h : rest.length < n, result = .ok ⟨tree, rest, h⟩

/-- What is taken leaves fewer lexemes. -/
lemma Takes.shorter {result : Except GrammarError (Parsed α n)} {tree : α} {rest : List Lexeme}
    (h : Takes result tree rest) : rest.length < n :=
  h.1

@[simp] lemma takes_ok {p : Parsed α n} {tree : α} {rest : List Lexeme} :
    Takes (.ok p) tree rest ↔ p.tree = tree ∧ p.rest = rest := by
  constructor
  · rintro ⟨h, heq⟩
    cases heq
    exact ⟨rfl, rfl⟩
  · rintro ⟨rfl, rfl⟩
    exact ⟨p.shorter, rfl⟩

@[simp] lemma not_takes_error {e : GrammarError} {tree : α} {rest : List Lexeme} :
    ¬ Takes (.error e : Except GrammarError (Parsed α n)) tree rest := by
  rintro ⟨h, heq⟩
  cases heq

/-- Two parsers in a row: the second one starts where the first one stops. -/
lemma takes_bind {x : Except GrammarError (Parsed α m)}
    {f : Parsed α m → Except GrammarError (Parsed β n)} {tree : β} {rest : List Lexeme} :
    Takes (x >>= f) tree rest ↔
      ∃ a mid, ∃ h : Takes x a mid, Takes (f ⟨a, mid, h.shorter⟩) tree rest := by
  constructor
  · rintro ⟨h, heq⟩
    cases x with
    | error e => cases heq
    | ok p => exact ⟨p.tree, p.rest, ⟨p.shorter, rfl⟩, h, heq⟩
  · rintro ⟨a, mid, ⟨hmid, rfl⟩, htakes⟩
    exact htakes

/-! ## Single lexemes -/

lemma accept_eq_some_iff {s : Symbol} {ts : List Lexeme} {p : Parsed Unit ts.length} :
    accept s ts = some p ↔ ts = .symbol s :: p.rest := by
  obtain ⟨⟨⟩, rest, h⟩ := p
  unfold accept
  split
  · split <;> simp_all
  · simp_all

lemma accept_eq_none_iff {s : Symbol} {ts : List Lexeme} :
    accept s ts = none ↔ ts.head? ≠ some (.symbol s) := by
  unfold accept
  split
  · split <;> simp_all
  · cases ts <;> simp_all

@[simp] lemma accept_cons_self (s : Symbol) (rest : List Lexeme) :
    accept s (.symbol s :: rest) = some ⟨(), rest, Nat.lt_succ_self _⟩ := by
  simp [accept]

lemma acceptKeyword_eq_some_iff {k : Keyword} {ts : List Lexeme} {p : Parsed Unit ts.length} :
    acceptKeyword k ts = some p ↔ ts = .keyword k :: p.rest := by
  obtain ⟨⟨⟩, rest, h⟩ := p
  unfold acceptKeyword
  split
  · split <;> simp_all
  · simp_all

lemma acceptKeyword_eq_none_iff {k : Keyword} {ts : List Lexeme} :
    acceptKeyword k ts = none ↔ ts.head? ≠ some (.keyword k) := by
  unfold acceptKeyword
  split
  · split <;> simp_all
  · cases ts <;> simp_all

@[simp] lemma acceptKeyword_cons_self (k : Keyword) (rest : List Lexeme) :
    acceptKeyword k (.keyword k :: rest) = some ⟨(), rest, Nat.lt_succ_self _⟩ := by
  simp [acceptKeyword]

@[simp] lemma takes_expect_iff {s : Symbol} {ts rest : List Lexeme} {u : Unit} :
    Takes (expect s ts) u rest ↔ ts = .symbol s :: rest := by
  unfold expect
  split
  · next found hfound =>
    rw [accept_eq_some_iff] at hfound
    obtain ⟨⟨⟩, behind, hbehind⟩ := found
    obtain rfl : ts = .symbol s :: behind := hfound
    simp
  · next hnone =>
    rw [accept_eq_none_iff] at hnone
    simp only [not_takes_error, false_iff]
    rintro rfl
    exact hnone rfl

@[simp] lemma takes_expectName_iff {ts rest : List Lexeme} {x : Text} :
    Takes (expectName ts) x rest ↔ ts = .name x :: rest := by
  unfold expectName
  split
  · simp
  · simp_all

/-- An operator is missing exactly when none of its spellings comes next. -/
lemma found_eq_none_iff {ts : List Lexeme} {found : Option (Parsed α ts.length)}
    (spell : α → Lexeme) (allowed : α → Prop)
    (h : ∀ p, found = some p ↔ ts = spell p.tree :: p.rest ∧ allowed p.tree) :
    found = none ↔ ∀ a, allowed a → ts.head? ≠ some (spell a) := by
  constructor
  · rintro rfl a ha hhead
    obtain ⟨rest, rfl⟩ := List.head?_eq_some_iff.mp hhead
    cases (h ⟨a, rest, by simp⟩).mpr ⟨rfl, ha⟩
  · intro hnone
    rw [Option.eq_none_iff_forall_ne_some]
    intro p hp
    obtain ⟨hts, hallowed⟩ := (h p).mp hp
    exact hnone p.tree hallowed (List.head?_eq_some_iff.mpr ⟨p.rest, hts⟩)

lemma unaryOp?_eq_some_iff {ts : List Lexeme} {p : Parsed UnaryOp ts.length} :
    unaryOp? ts = some p ↔ ts = .symbol (.ofUnary p.tree) :: p.rest := by
  obtain ⟨op, rest, h⟩ := p
  unfold unaryOp?
  split
  · next s _ =>
    cases s with
    | binary o => cases o <;> cases op <;> simp [Symbol.unary?, Symbol.ofUnary]
    | _ => cases op <;> simp [Symbol.unary?, Symbol.ofUnary]
  · simp_all

@[simp] lemma unaryOp?_cons_self (op : UnaryOp) (rest : List Lexeme) :
    unaryOp? (.symbol (.ofUnary op) :: rest) = some ⟨op, rest, Nat.lt_succ_self _⟩ := by
  simp [unaryOp?, Symbol.unary?_ofUnary]

lemma unaryOp?_eq_none_iff {ts : List Lexeme} :
    unaryOp? ts = none ↔ ∀ op, ts.head? ≠ some (.symbol (.ofUnary op)) := by
  have hsome : ∀ p, unaryOp? ts = some p ↔ ts = .symbol (.ofUnary p.tree) :: p.rest ∧ True := by
    simp [unaryOp?_eq_some_iff]
  simpa using found_eq_none_iff (fun op => .symbol (.ofUnary op)) (fun _ => True) hsome

lemma binaryOp?_eq_some_iff {level : Nat} {ts : List Lexeme} {p : Parsed BinaryOp ts.length} :
    binaryOp? level ts = some p ↔
      ts = .symbol (.binary p.tree) :: p.rest ∧ level ≤ p.tree.precedence := by
  obtain ⟨op, rest, h⟩ := p
  unfold binaryOp?
  split
  · split
    · simp only [Option.some.injEq, Parsed.mk.injEq, List.cons.injEq, Lexeme.symbol.injEq,
        Symbol.binary.injEq]
      constructor
      · rintro ⟨rfl, rfl⟩
        exact ⟨⟨rfl, rfl⟩, ‹_›⟩
      · exact fun h => h.1
    · simp only [reduceCtorEq, List.cons.injEq, Lexeme.symbol.injEq, Symbol.binary.injEq,
        false_iff]
      rintro ⟨⟨rfl, -⟩, hle⟩
      contradiction
  · simp_all

lemma binaryOp?_cons_self {level : Nat} {op : BinaryOp} (h : level ≤ op.precedence)
    (rest : List Lexeme) :
    binaryOp? level (.symbol (.binary op) :: rest) = some ⟨op, rest, Nat.lt_succ_self _⟩ := by
  simp [binaryOp?, h]

lemma binaryOp?_eq_none_iff {level : Nat} {ts : List Lexeme} :
    binaryOp? level ts = none ↔
      ∀ op : BinaryOp, level ≤ op.precedence → ts.head? ≠ some (.symbol (.binary op)) :=
  found_eq_none_iff (fun op => .symbol (.binary op)) _ fun _ => binaryOp?_eq_some_iff

lemma assignOp?_eq_some_iff {ts : List Lexeme} {p : Parsed AssignOp ts.length} :
    assignOp? ts = some p ↔ ts = .symbol (.assign p.tree) :: p.rest := by
  obtain ⟨op, rest, h⟩ := p
  unfold assignOp?
  split
  · simp
  · simp_all

@[simp] lemma assignOp?_cons_self (op : AssignOp) (rest : List Lexeme) :
    assignOp? (.symbol (.assign op) :: rest) = some ⟨op, rest, Nat.lt_succ_self _⟩ := by
  simp [assignOp?]

lemma assignOp?_eq_none_iff {ts : List Lexeme} :
    assignOp? ts = none ↔ ∀ op, ts.head? ≠ some (.symbol (.assign op)) := by
  have hsome : ∀ p, assignOp? ts = some p ↔ ts = .symbol (.assign p.tree) :: p.rest ∧ True := by
    simp [assignOp?_eq_some_iff]
  simpa using found_eq_none_iff (fun op => .symbol (.assign op)) (fun _ => True) hsome

/-! ## Expressions -/

lemma takes_primary_iff {ts rest : List Lexeme} {e : Expr} :
    Takes (primary ts) e rest ↔
      (∃ l, ts = .literal l :: rest ∧ e = .literal l) ∨
      (∃ inner ts', ts = .symbol .leftParen :: ts' ∧
        Takes (assignment ts') inner (.symbol .rightParen :: rest) ∧ e = .enclosed inner) ∨
      (∃ x args ts', ts = .name x :: ts' ∧ ts'.head? = some (.symbol .leftParen) ∧
        Takes (arguments ts') args rest ∧ e = .call x args) ∨
      (∃ x, ts = .name x :: rest ∧ rest.head? ≠ some (.symbol .leftParen) ∧ e = .name x) := by
  constructor
  · intro h
    rw [primary.eq_def] at h
    split at h
    · next l behind =>
      obtain ⟨rfl, rfl⟩ := takes_ok.mp h
      exact .inl ⟨l, rfl, rfl⟩
    · next behind =>
      simp only [takes_bind, takes_ok, takes_expect_iff, exists_prop] at h
      obtain ⟨inner, mid, hinner, -, _, rfl, rfl, rfl⟩ := h
      exact .inr (.inl ⟨inner, behind, rfl, hinner, rfl⟩)
    · next x behind =>
      split at h
      · next open_ hopen =>
        rw [accept_eq_some_iff] at hopen
        simp only [takes_bind, takes_ok, exists_prop] at h
        obtain ⟨args, _, hargs, rfl, rfl⟩ := h
        exact .inr (.inr (.inl ⟨x, args, behind, rfl, by simp [hopen], hargs, rfl⟩))
      · next hnone =>
        rw [accept_eq_none_iff] at hnone
        obtain ⟨rfl, rfl⟩ := takes_ok.mp h
        exact .inr (.inr (.inr ⟨x, rfl, hnone, rfl⟩))
    · exact absurd h not_takes_error
  · rintro (⟨l, rfl, rfl⟩ | ⟨inner, ts', rfl, hinner, rfl⟩ |
      ⟨x, args, ts', rfl, hopen, hargs, rfl⟩ | ⟨x, rfl, hnone, rfl⟩)
    · simp [primary]
    · simp only [primary, takes_bind, takes_ok, takes_expect_iff, exists_prop]
      exact ⟨inner, _, hinner, (), rest, rfl, rfl, rfl⟩
    · obtain ⟨behind, rfl⟩ := List.head?_eq_some_iff.mp hopen
      simp only [primary, accept_cons_self, takes_bind, takes_ok, exists_prop]
      exact ⟨args, rest, hargs, rfl, rfl⟩
    · rw [primary, accept_eq_none_iff.mpr hnone]
      simp

lemma takes_arguments_iff {ts rest : List Lexeme} {args : List Expr} :
    Takes (arguments ts) args rest ↔
      (ts = .symbol .leftParen :: .symbol .rightParen :: rest ∧ args = []) ∨
      (∃ first others ts' mid, ts = .symbol .leftParen :: ts' ∧
        ts'.head? ≠ some (.symbol .rightParen) ∧ Takes (assignment ts') first mid ∧
        Takes (moreArguments mid) others rest ∧ args = first :: others) := by
  rw [arguments]
  simp only [takes_bind, takes_expect_iff]
  constructor
  · rintro ⟨_, ts', rfl, h⟩
    split at h
    · next close hclose =>
      rw [accept_eq_some_iff] at hclose
      obtain ⟨rfl, rfl⟩ := takes_ok.mp h
      exact .inl ⟨by simp [← hclose], rfl⟩
    · next hnone =>
      rw [accept_eq_none_iff] at hnone
      simp only [takes_bind, takes_ok, exists_prop] at h
      obtain ⟨first, mid, hfirst, others, _, hothers, rfl, rfl⟩ := h
      exact .inr ⟨first, others, ts', mid, rfl, hnone, hfirst, hothers, rfl⟩
  · rintro (⟨rfl, rfl⟩ | ⟨first, others, ts', mid, rfl, hnone, hfirst, hothers, rfl⟩)
    · refine ⟨(), _, rfl, ?_⟩
      simp
    · refine ⟨(), ts', rfl, ?_⟩
      rw [accept_eq_none_iff.mpr hnone]
      simp only [takes_bind, takes_ok, exists_prop]
      exact ⟨first, mid, hfirst, others, rest, hothers, rfl, rfl⟩

lemma takes_moreArguments_iff {ts rest : List Lexeme} {args : List Expr} :
    Takes (moreArguments ts) args rest ↔
      (ts = .symbol .rightParen :: rest ∧ args = []) ∨
      (∃ next others ts' mid, ts = .symbol .comma :: ts' ∧ Takes (assignment ts') next mid ∧
        Takes (moreArguments mid) others rest ∧ args = next :: others) := by
  constructor
  · intro h
    rw [moreArguments] at h
    split at h
    · next comma hcomma =>
      rw [accept_eq_some_iff] at hcomma
      simp only [takes_bind, takes_ok, exists_prop] at h
      obtain ⟨next, mid, hnext, others, _, hothers, rfl, rfl⟩ := h
      exact .inr ⟨next, others, comma.rest, mid, hcomma, hnext, hothers, rfl⟩
    · simp only [takes_bind, takes_ok, takes_expect_iff, exists_prop] at h
      obtain ⟨_, _, rfl, rfl, rfl⟩ := h
      exact .inl ⟨rfl, rfl⟩
  · rintro (⟨rfl, rfl⟩ | ⟨next, others, ts', mid, rfl, hnext, hothers, rfl⟩)
    · rw [moreArguments, accept_eq_none_iff.mpr (by simp)]
      simp [takes_bind]
    · rw [moreArguments, accept_cons_self]
      simp only [takes_bind, takes_ok, exists_prop]
      exact ⟨next, mid, hnext, others, rest, hothers, rfl, rfl⟩

lemma takes_members_iff {e whole : Expr} {ts rest : List Lexeme} :
    Takes (members e ts) whole rest ↔
      (ts.head? ≠ some (.symbol .dot) ∧ whole = e ∧ rest = ts) ∨
      (∃ f args ts' mid, ts = .symbol .dot :: .name f :: ts' ∧
        ts'.head? = some (.symbol .leftParen) ∧ Takes (arguments ts') args mid ∧
        Takes (members (.scopedCall e f args) mid) whole rest) ∨
      (∃ x word ts', ts = .symbol .dot :: .name word :: ts' ∧
        ts'.head? ≠ some (.symbol .leftParen) ∧ e = .name x ∧
        Takes (members (.name (x ++ "." ++ word)) ts') whole rest) := by
  constructor
  · intro h
    rw [members] at h
    split at h
    · next hnone =>
      rw [accept_eq_none_iff] at hnone
      obtain ⟨rfl, rfl⟩ := takes_ok.mp h
      exact .inl ⟨hnone, rfl, rfl⟩
    · next dot hdot =>
      rw [accept_eq_some_iff] at hdot
      simp only [takes_bind, takes_expectName_iff] at h
      obtain ⟨word, ts', hword, h⟩ := h
      rw [hword] at hdot
      split at h
      · next opening hopening =>
        rw [accept_eq_some_iff] at hopening
        simp only [takes_bind, takes_ok, exists_prop] at h
        obtain ⟨args, mid, hargs, _, _, hmembers, rfl, rfl⟩ := h
        exact .inr (.inl ⟨word, args, ts', mid, hdot, by simp [hopening], hargs, hmembers⟩)
      · next hnone =>
        rw [accept_eq_none_iff] at hnone
        split at h
        · next x =>
          simp only [takes_bind, takes_ok, exists_prop] at h
          obtain ⟨_, _, hmembers, rfl, rfl⟩ := h
          exact .inr (.inr ⟨x, word, ts', hdot, hnone, rfl, hmembers⟩)
        · exact absurd h not_takes_error
  · rintro (⟨hnone, rfl, rfl⟩ | ⟨f, args, ts', mid, rfl, hopen, hargs, hmembers⟩ |
      ⟨x, word, ts', rfl, hnone, rfl, hmembers⟩)
    · rw [members, accept_eq_none_iff.mpr hnone]
      simp
    · obtain ⟨behind, rfl⟩ := List.head?_eq_some_iff.mp hopen
      rw [members, accept_cons_self]
      simp only [takes_bind, takes_expectName_iff]
      refine ⟨f, _, rfl, ?_⟩
      rw [accept_cons_self]
      simp only [takes_bind, takes_ok, exists_prop]
      exact ⟨args, mid, hargs, whole, rest, hmembers, rfl, rfl⟩
    · rw [members, accept_cons_self]
      simp only [takes_bind, takes_expectName_iff]
      refine ⟨word, ts', rfl, ?_⟩
      rw [accept_eq_none_iff.mpr hnone]
      simp only [takes_bind, takes_ok, exists_prop]
      exact ⟨whole, rest, hmembers, rfl, rfl⟩

lemma takes_postfixed_iff {ts rest : List Lexeme} {e : Expr} :
    Takes (postfixed ts) e rest ↔
      ∃ first mid, Takes (primary ts) first mid ∧ Takes (members first mid) e rest := by
  rw [postfixed]
  simp only [takes_bind, takes_ok, exists_prop]
  constructor
  · rintro ⟨first, mid, hfirst, _, _, hmembers, rfl, rfl⟩
    exact ⟨first, mid, hfirst, hmembers⟩
  · rintro ⟨first, mid, hfirst, hmembers⟩
    exact ⟨first, mid, hfirst, e, rest, hmembers, rfl, rfl⟩

lemma takes_unary_iff {ts rest : List Lexeme} {e : Expr} :
    Takes (unary ts) e rest ↔
      (∃ op operand ts', ts = .symbol (.ofUnary op) :: ts' ∧ Takes (unary ts') operand rest ∧
        e = .unary op operand) ∨
      ((∀ op, ts.head? ≠ some (.symbol (.ofUnary op))) ∧ Takes (postfixed ts) e rest) := by
  constructor
  · intro h
    rw [unary] at h
    split at h
    · next op hop =>
      rw [unaryOp?_eq_some_iff] at hop
      simp only [takes_bind, takes_ok, exists_prop] at h
      obtain ⟨operand, _, hoperand, rfl, rfl⟩ := h
      exact .inl ⟨op.tree, operand, op.rest, hop, hoperand, rfl⟩
    · next hnone => exact .inr ⟨unaryOp?_eq_none_iff.mp hnone, h⟩
  · rintro (⟨op, operand, ts', rfl, hoperand, rfl⟩ | ⟨hnone, hpostfixed⟩)
    · rw [unary, unaryOp?_cons_self]
      simp only [takes_bind, takes_ok, exists_prop]
      exact ⟨operand, rest, hoperand, rfl, rfl⟩
    · rw [unary, unaryOp?_eq_none_iff.mpr hnone]
      exact hpostfixed

lemma takes_operations_iff {level : Nat} {left e : Expr} {ts rest : List Lexeme} :
    Takes (operations level left ts) e rest ↔
      (∃ op right ts' mid, ts = .symbol (.binary op) :: ts' ∧ level ≤ op.precedence ∧
        Takes (unary ts') right mid ∧
        Takes (operations level (left.attach op right) mid) e rest) ∨
      ((∀ op : BinaryOp, level ≤ op.precedence → ts.head? ≠ some (.symbol (.binary op))) ∧
        e = left ∧ rest = ts) := by
  constructor
  · intro h
    rw [operations] at h
    split at h
    · next op hop =>
      rw [binaryOp?_eq_some_iff] at hop
      simp only [takes_bind, takes_ok, exists_prop] at h
      obtain ⟨right, mid, hright, _, _, hwhole, rfl, rfl⟩ := h
      exact .inl ⟨op.tree, right, op.rest, mid, hop.1, hop.2, hright, hwhole⟩
    · next hnone =>
      obtain ⟨rfl, rfl⟩ := takes_ok.mp h
      exact .inr ⟨binaryOp?_eq_none_iff.mp hnone, rfl, rfl⟩
  · rintro (⟨op, right, ts', mid, rfl, hle, hright, hwhole⟩ | ⟨hnone, rfl, rfl⟩)
    · rw [operations, binaryOp?_cons_self hle]
      simp only [takes_bind, takes_ok, exists_prop]
      exact ⟨right, mid, hright, e, rest, hwhole, rfl, rfl⟩
    · rw [operations, binaryOp?_eq_none_iff.mpr hnone]
      simp

lemma takes_binary_iff {level : Nat} {ts rest : List Lexeme} {e : Expr} :
    Takes (binary level ts) e rest ↔
      ∃ first mid, Takes (unary ts) first mid ∧ Takes (operations level first mid) e rest := by
  rw [binary]
  simp only [takes_bind, takes_ok, exists_prop]
  constructor
  · rintro ⟨first, mid, hfirst, _, _, hwhole, rfl, rfl⟩
    exact ⟨first, mid, hfirst, hwhole⟩
  · rintro ⟨first, mid, hfirst, hwhole⟩
    exact ⟨first, mid, hfirst, e, rest, hwhole, rfl, rfl⟩

lemma takes_conditional_iff {ts rest : List Lexeme} {e : Expr} :
    Takes (conditional ts) e rest ↔
      (Takes (binary 0 ts) e rest ∧ rest.head? ≠ some (.symbol .question)) ∨
      (∃ condition thenExpr elseExpr mid mid',
        Takes (binary 0 ts) condition (.symbol .question :: mid) ∧
        Takes (assignment mid) thenExpr (.symbol .colon :: mid') ∧
        Takes (conditional mid') elseExpr rest ∧
        e = .conditional condition thenExpr elseExpr) := by
  constructor
  · intro h
    rw [conditional] at h
    simp only [takes_bind] at h
    obtain ⟨condition, behind, hcondition, h⟩ := h
    split at h
    · next hnone =>
      rw [accept_eq_none_iff] at hnone
      obtain ⟨rfl, rfl⟩ := takes_ok.mp h
      exact .inl ⟨hcondition, hnone⟩
    · next question hquestion =>
      rw [accept_eq_some_iff] at hquestion
      simp only [takes_bind, takes_ok, takes_expect_iff, exists_prop] at h
      obtain ⟨thenExpr, _, hthen, _, mid', rfl, elseExpr, _, helse, rfl, rfl⟩ := h
      rw [hquestion] at hcondition
      exact .inr ⟨condition, thenExpr, elseExpr, _, mid', hcondition, hthen, helse, rfl⟩
  · rintro (⟨hbinary, hnone⟩ | ⟨condition, thenExpr, elseExpr, mid, mid', hcondition, hthen, helse,
      rfl⟩)
    · rw [conditional, takes_bind]
      refine ⟨e, rest, hbinary, ?_⟩
      rw [accept_eq_none_iff.mpr hnone]
      simp
    · rw [conditional, takes_bind]
      refine ⟨condition, _, hcondition, ?_⟩
      rw [accept_cons_self]
      simp only [takes_bind, takes_ok, takes_expect_iff, exists_prop]
      exact ⟨thenExpr, _, hthen, (), mid', rfl, elseExpr, rest, helse, rfl, rfl⟩

lemma takes_assignment_iff {ts rest : List Lexeme} {e : Expr} :
    Takes (assignment ts) e rest ↔
      (Takes (conditional ts) e rest ∧ ∀ op, rest.head? ≠ some (.symbol (.assign op))) ∨
      (∃ x op value mid, Takes (conditional ts) (.name x) (.symbol (.assign op) :: mid) ∧
        Takes (assignment mid) value rest ∧ e = .assign (.name x) op value) := by
  constructor
  · intro h
    rw [assignment] at h
    simp only [takes_bind] at h
    obtain ⟨target, behind, htarget, h⟩ := h
    split at h
    · next hnone =>
      obtain ⟨rfl, rfl⟩ := takes_ok.mp h
      exact .inl ⟨htarget, assignOp?_eq_none_iff.mp hnone⟩
    · next op hop =>
      rw [assignOp?_eq_some_iff] at hop
      split at h
      · next x hx =>
        simp only [takes_bind, takes_ok, exists_prop] at h
        obtain ⟨value, _, hvalue, rfl, rfl⟩ := h
        rw [hop] at htarget
        exact .inr ⟨x, op.tree, value, op.rest, htarget, hvalue, rfl⟩
      · exact absurd h not_takes_error
  · rintro (⟨hconditional, hnone⟩ | ⟨x, op, value, mid, htarget, hvalue, rfl⟩)
    · rw [assignment, takes_bind]
      refine ⟨e, rest, hconditional, ?_⟩
      rw [assignOp?_eq_none_iff.mpr hnone]
      simp
    · rw [assignment, takes_bind]
      refine ⟨.name x, _, htarget, ?_⟩
      rw [assignOp?_cons_self]
      simp only [takes_bind, takes_ok, exists_prop]
      exact ⟨value, rest, hvalue, rfl, rfl⟩

/-! ## Declarations and statements -/

lemma refuseComma_eq_ok_iff {ts : List Lexeme} :
    refuseComma ts = .ok () ↔ ts.head? ≠ some (.symbol .comma) := by
  rw [← accept_eq_none_iff]
  unfold refuseComma
  split <;> simp_all

/-- A parser behind a check that a comma does not come next. -/
lemma takes_refuseComma_iff {ts rest : List Lexeme} {tree : α}
    {f : Unit → Except GrammarError (Parsed α n)} :
    Takes (refuseComma ts >>= f) tree rest ↔
      ts.head? ≠ some (.symbol .comma) ∧ Takes (f ()) tree rest := by
  rw [← refuseComma_eq_ok_iff]
  cases refuseComma ts with
  | error e =>
      simp only [reduceCtorEq, false_and, iff_false]
      exact not_takes_error
  | ok u => simp [bind, Except.bind]

lemma takes_initializer_iff {type x : Text} {ts rest : List Lexeme} {e : Expr} :
    Takes (initializer type x ts) e rest ↔
      (∃ value ts', ts = .symbol (.assign .set) :: ts' ∧ Takes (assignment ts') value rest ∧
        rest.head? ≠ some (.symbol .comma) ∧ e = .declare type x value) ∨
      (ts.head? ≠ some (.symbol (.assign .set)) ∧ ts.head? ≠ some (.symbol .comma) ∧
        e = .declareBare type x ∧ rest = ts) := by
  constructor
  · intro h
    unfold initializer at h
    split at h
    · next sign hsign =>
      rw [accept_eq_some_iff] at hsign
      simp only [takes_bind, takes_refuseComma_iff, takes_ok, exists_prop] at h
      obtain ⟨value, _, hvalue, hcomma, rfl, rfl⟩ := h
      exact .inl ⟨value, sign.rest, hsign, hvalue, hcomma, rfl⟩
    · next hnone =>
      rw [accept_eq_none_iff] at hnone
      rw [takes_refuseComma_iff, takes_ok] at h
      obtain ⟨hcomma, rfl, rfl⟩ := h
      exact .inr ⟨hnone, hcomma, rfl, rfl⟩
  · rintro (⟨value, ts', rfl, hvalue, hcomma, rfl⟩ | ⟨hnone, hcomma, rfl, rfl⟩)
    · rw [initializer, accept_cons_self]
      simp only [takes_bind, takes_refuseComma_iff, takes_ok, exists_prop]
      exact ⟨value, rest, hvalue, hcomma, rfl, rfl⟩
    · rw [initializer, accept_eq_none_iff.mpr hnone]
      simpa [takes_refuseComma_iff] using hcomma

lemma takes_declaration_iff {ts rest : List Lexeme} {e : Expr} :
    Takes (declaration ts) e rest ↔
      ∃ type x ts', ts = .name type :: .name x :: ts' ∧ Takes (initializer type x ts') e rest := by
  unfold declaration
  simp only [takes_bind, takes_expectName_iff, takes_ok, exists_prop]
  constructor
  · rintro ⟨type, _, rfl, x, ts', rfl, _, _, h, rfl, rfl⟩
    exact ⟨type, x, ts', rfl, h⟩
  · rintro ⟨type, x, ts', rfl, h⟩
    exact ⟨type, _, rfl, x, ts', rfl, e, rest, h, rfl, rfl⟩

lemma takes_declarationOrExpr_iff {ts rest : List Lexeme} {e : Expr} :
    Takes (declarationOrExpr ts) e rest ↔
      (∃ type x ts', ts = .name type :: .name x :: ts' ∧
        Takes (initializer type x ts') e rest) ∨
      ((∀ type x ts', ts ≠ .name type :: .name x :: ts') ∧ Takes (assignment ts) e rest) := by
  unfold declarationOrExpr
  split
  · next type x ts' =>
    rw [takes_declaration_iff]
    constructor
    · exact .inl
    · rintro (h | ⟨hne, -⟩)
      · exact h
      · exact absurd rfl (hne type x ts')
  · next hne =>
    constructor
    · exact fun h => .inr ⟨hne, h⟩
    · rintro (⟨type, x, ts', rfl, -⟩ | ⟨-, h⟩)
      · exact absurd rfl (hne type x ts')
      · exact h

lemma takes_condition_iff {ts rest : List Lexeme} {e : Expr} :
    Takes (condition ts) e rest ↔
      ∃ ts', ts = .symbol .leftParen :: ts' ∧
        Takes (assignment ts') e (.symbol .rightParen :: rest) := by
  unfold condition
  simp only [takes_bind, takes_expect_iff, takes_ok, exists_prop]
  constructor
  · rintro ⟨_, ts', rfl, _, _, h, _, _, rfl, rfl, rfl⟩
    exact ⟨ts', rfl, h⟩
  · rintro ⟨ts', rfl, h⟩
    exact ⟨(), ts', rfl, e, _, h, (), rest, rfl, rfl, rfl⟩

/-- The forms of statement that a lexeme of their own announces. Every other statement is an
expression or a declaration with a semicolon. -/
def announcesStatement : Lexeme → Bool
  | .symbol .leftBrace | .symbol .semicolon => true
  | .keyword .ifWord | .keyword .whileWord | .keyword .returnWord => true
  | _ => false

/-- What the parser takes as a statement, one rule for each form. -/
inductive TakesStatement : List Lexeme → Stmt → List Lexeme → Prop
  /-- A brace opens a block. -/
  | block {ts rest : List Lexeme} {body : List Stmt} (hbody : Takes (statements ts) body rest) :
      TakesStatement (.symbol .leftBrace :: ts) (.block body) rest
  /-- An `else` right behind the then-branch belongs to the choice. -/
  | ifElse {ts mid mid' rest : List Lexeme} {c : Expr} {thenStmt elseStmt : Stmt}
      (hc : Takes (condition ts) c mid)
      (hthen : Takes (statement mid) thenStmt (.keyword .elseWord :: mid'))
      (helse : Takes (statement mid') elseStmt rest) :
      TakesStatement (.keyword .ifWord :: ts) (.ifElse c thenStmt elseStmt) rest
  /-- Without an `else` behind it the then-branch ends the choice. -/
  | ifThen {ts mid rest : List Lexeme} {c : Expr} {thenStmt : Stmt}
      (hc : Takes (condition ts) c mid) (hthen : Takes (statement mid) thenStmt rest)
      (hnone : rest.head? ≠ some (.keyword .elseWord)) :
      TakesStatement (.keyword .ifWord :: ts) (.ifThen c thenStmt) rest
  /-- A loop has a condition and a body. -/
  | whileLoop {ts mid rest : List Lexeme} {c : Expr} {body : Stmt}
      (hc : Takes (condition ts) c mid) (hbody : Takes (statement mid) body rest) :
      TakesStatement (.keyword .whileWord :: ts) (.whileLoop c body) rest
  /-- A semicolon right behind `return` ends the statement. -/
  | returnVoid {rest : List Lexeme} :
      TakesStatement (.keyword .returnWord :: .symbol .semicolon :: rest) .returnVoid rest
  /-- Everything else behind `return` is a value. -/
  | returnValue {ts rest : List Lexeme} {value : Expr}
      (hnone : ts.head? ≠ some (.symbol .semicolon))
      (hvalue : Takes (assignment ts) value (.symbol .semicolon :: rest)) :
      TakesStatement (.keyword .returnWord :: ts) (.returnValue value) rest
  /-- A lone semicolon is a statement. -/
  | empty {rest : List Lexeme} : TakesStatement (.symbol .semicolon :: rest) .empty rest
  /-- What no lexeme announces is an expression or a declaration. -/
  | expr {ts rest : List Lexeme} {e : Expr}
      (hhead : ∀ x, ts.head? = some x → announcesStatement x = false)
      (he : Takes (declarationOrExpr ts) e (.symbol .semicolon :: rest)) :
      TakesStatement ts (.expr e) rest

lemma takesStatement_of_takes {ts rest : List Lexeme} {s : Stmt}
    (h : Takes (statement ts) s rest) : TakesStatement ts s rest := by
  rw [statement.eq_def] at h
  split at h
  · rw [block] at h
    simp only [takes_bind, takes_expect_iff, takes_ok, exists_prop] at h
    obtain ⟨_, _, hts, body, _, hbody, rfl, rfl⟩ := h
    cases hts
    exact .block hbody
  · simp only [takes_bind] at h
    obtain ⟨c, mid, hc, thenStmt, behind, hthen, h⟩ := h
    split at h
    · next word hword =>
      rw [acceptKeyword_eq_some_iff] at hword
      simp only [takes_bind, takes_ok, exists_prop] at h
      obtain ⟨elseStmt, _, helse, rfl, rfl⟩ := h
      rw [hword] at hthen
      exact .ifElse hc hthen helse
    · next hnone =>
      rw [acceptKeyword_eq_none_iff] at hnone
      obtain ⟨rfl, rfl⟩ := takes_ok.mp h
      exact .ifThen hc hthen hnone
  · simp only [takes_bind, takes_ok, exists_prop] at h
    obtain ⟨c, mid, hc, body, _, hbody, rfl, rfl⟩ := h
    exact .whileLoop hc hbody
  · next ts' =>
    split at h
    · next stop hstop =>
      rw [accept_eq_some_iff] at hstop
      obtain ⟨htree, hrest⟩ := takes_ok.mp h
      have hs : s = .returnVoid := htree.symm
      have hts : ts' = .symbol .semicolon :: rest := hstop.trans (congrArg _ hrest)
      rw [hs, hts]
      exact .returnVoid
    · next hnone =>
      rw [accept_eq_none_iff] at hnone
      simp only [takes_bind, takes_expect_iff, takes_ok, exists_prop] at h
      obtain ⟨value, _, hvalue, _, _, rfl, rfl, rfl⟩ := h
      exact .returnValue hnone hvalue
  · obtain ⟨rfl, rfl⟩ := takes_ok.mp h
    exact .empty
  · next hbrace hif hwhile hreturn hsemicolon =>
    simp only [takes_bind, takes_expect_iff, takes_ok, exists_prop] at h
    obtain ⟨e, _, he, _, _, rfl, rfl, rfl⟩ := h
    refine .expr ?_ he
    intro x hx
    obtain ⟨ts', rfl⟩ := List.head?_eq_some_iff.mp hx
    unfold announcesStatement
    split
    · exact absurd rfl (hbrace ts')
    · exact absurd rfl (hsemicolon ts')
    · exact absurd rfl (hif ts')
    · exact absurd rfl (hwhile ts')
    · exact absurd rfl (hreturn ts')
    · rfl

lemma TakesStatement.takes {ts rest : List Lexeme} {s : Stmt} (h : TakesStatement ts s rest) :
    Takes (statement ts) s rest := by
  cases h with
  | @block ts _ body hbody =>
      rw [statement, Parser.block]
      simp only [takes_bind, takes_expect_iff, takes_ok, exists_prop]
      exact ⟨(), ts, rfl, body, rest, hbody, rfl, rfl⟩
  | @ifElse ts mid mid' _ c thenStmt elseStmt hc hthen helse =>
      rw [statement]
      simp only [takes_bind]
      refine ⟨c, mid, hc, thenStmt, _, hthen, ?_⟩
      rw [acceptKeyword_cons_self]
      simp only [takes_bind, takes_ok, exists_prop]
      exact ⟨elseStmt, rest, helse, rfl, rfl⟩
  | @ifThen ts mid _ c thenStmt hc hthen hnone =>
      rw [statement]
      simp only [takes_bind]
      refine ⟨c, mid, hc, thenStmt, rest, hthen, ?_⟩
      rw [acceptKeyword_eq_none_iff.mpr hnone]
      simp
  | @whileLoop ts mid _ c body hc hbody =>
      rw [statement]
      simp only [takes_bind, takes_ok, exists_prop]
      exact ⟨c, mid, hc, body, rest, hbody, rfl, rfl⟩
  | returnVoid =>
      rw [statement, accept_cons_self]
      simp
  | @returnValue ts _ value hnone hvalue =>
      rw [statement, accept_eq_none_iff.mpr hnone]
      simp only [takes_bind, takes_expect_iff, takes_ok, exists_prop]
      exact ⟨value, _, hvalue, (), rest, rfl, rfl, rfl⟩
  | empty =>
      rw [statement]
      simp
  | @expr _ _ e hhead he =>
      rw [statement.eq_def]
      split
      · exact absurd (hhead _ rfl) (by simp [announcesStatement])
      · exact absurd (hhead _ rfl) (by simp [announcesStatement])
      · exact absurd (hhead _ rfl) (by simp [announcesStatement])
      · exact absurd (hhead _ rfl) (by simp [announcesStatement])
      · exact absurd (hhead _ rfl) (by simp [announcesStatement])
      · simp only [takes_bind, takes_expect_iff, takes_ok, exists_prop]
        exact ⟨e, _, he, (), rest, rfl, rfl, rfl⟩

lemma takes_statement_iff {ts rest : List Lexeme} {s : Stmt} :
    Takes (statement ts) s rest ↔ TakesStatement ts s rest :=
  ⟨takesStatement_of_takes, TakesStatement.takes⟩

lemma takes_statements_iff {ts rest : List Lexeme} {body : List Stmt} :
    Takes (statements ts) body rest ↔
      (ts = .symbol .rightBrace :: rest ∧ body = []) ∨
      (∃ first others mid, ts.head? ≠ some (.symbol .rightBrace) ∧
        Takes (statement ts) first mid ∧ Takes (statements mid) others rest ∧
        body = first :: others) := by
  constructor
  · intro h
    rw [statements.eq_def] at h
    split at h
    · exact absurd h not_takes_error
    · obtain ⟨rfl, rfl⟩ := takes_ok.mp h
      exact .inl ⟨rfl, rfl⟩
    · next hne hbrace =>
      simp only [takes_bind, takes_ok, exists_prop] at h
      obtain ⟨first, mid, hfirst, others, _, hothers, rfl, rfl⟩ := h
      refine .inr ⟨first, others, mid, ?_, hfirst, hothers, rfl⟩
      intro hhead
      obtain ⟨ts', rfl⟩ := List.head?_eq_some_iff.mp hhead
      exact hbrace ts' rfl
  · rintro (⟨rfl, rfl⟩ | ⟨first, others, mid, hbrace, hfirst, hothers, rfl⟩)
    · simp [statements]
    · rw [statements.eq_def]
      split
      · exact absurd hfirst.shorter (by simp)
      · exact absurd rfl hbrace
      · simp only [takes_bind, takes_ok, exists_prop]
        exact ⟨first, mid, hfirst, others, rest, hothers, rfl, rfl⟩

/-! ## Whole sources -/

lemma finish_bind_eq_ok_iff {result : Except GrammarError (Parsed α n)} {tree : α} :
    (result >>= finish) = .ok tree ↔ Takes result tree [] := by
  cases result with
  | error e =>
      simp only [not_takes_error, iff_false]
      exact fun h => nomatch h
  | ok p =>
      obtain ⟨a, rest, h⟩ := p
      rw [takes_ok]
      change finish ⟨a, rest, h⟩ = _ ↔ _
      unfold finish
      cases rest <;> simp

end Parser

end LineShell
