import LineShell.Proofs.Coercion.Integer
import LineShell.Proofs.Line.Attempts
import LineShell.Proofs.Session.Path

/-!
# Lines that end in a fault

An error of a line is answered, a fault is not. Main statement: a line ends in one of the faults of
`Fault` exactly if

* a digit of another script stands in it where a lexeme can start (`Scan.Strays`), or
* its evaluation comes to an integer with more digits than conversion allows (`Node.Overlong`):
  in a literal, or in a text that is written to a variable with an integer type

(`run_faults_iff`). For each function on the way there is one lemma that says when it ends in a
fault.

Running out of stack is no fault here. Lines may be nested to any depth, and no definition has a
limit for it, while a machine that runs them has one.
-/

namespace LineShell

/-! ## Integers with too many digits -/

/-- The text is an integer of `n` digits, more than conversion allows. -/
def Text.IsOverlong (t : Text) (n : Nat) : Prop :=
  ∃ sign digits : Text, t = sign ++ digits ∧ (sign = [] ∨ sign = "+" ∨ sign = "-") ∧
    (∀ c ∈ digits, c.isDigit = true) ∧ digits.length = n ∧ Coercion.digitLimit < n

/-- An integer holds nothing but digits and a sign. -/
lemma Text.IsOverlong.forall_mem {t : Text} {n : Nat} (h : t.IsOverlong n) :
    ∀ c ∈ t, c.isDigit = true ∨ c = ('+' : Char) ∨ c = ('-' : Char) := by
  obtain ⟨sign, digits, rfl, hsign, hdigits, -, -⟩ := h
  intro c hc
  rcases List.mem_append.mp hc with hc | hc
  · rcases hsign with rfl | rfl | rfl
    · cases hc
    · exact .inr (.inl (List.mem_singleton.mp hc))
    · exact .inr (.inr (List.mem_singleton.mp hc))
  · exact .inl (hdigits c hc)

/-- An integer of too many digits, by the grammar of integers. -/
lemma Text.isOverlong_iff {t : Text} {n : Nat} :
    t.IsOverlong n ↔ Coercion.digitLimit < n ∧ ∃ z, DenotesInteger t n z := by
  constructor
  · rintro ⟨sign, digits, rfl, hsign, hdigits, rfl, hlimit⟩
    have hne : digits ≠ [] := by
      rintro rfl
      exact absurd hlimit (Nat.not_lt_zero _)
    obtain ⟨negative, hmark⟩ : ∃ negative, IsSign sign negative := by
      rcases hsign with rfl | rfl | rfl
      · exact ⟨_, .none⟩
      · exact ⟨_, .plus⟩
      · exact ⟨_, .minus⟩
    exact ⟨hlimit, _, .mk hmark hne hdigits⟩
  · rintro ⟨hlimit, z, hz⟩
    obtain ⟨hmark, -, hdigits⟩ := hz
    refine ⟨_, _, rfl, ?_, hdigits, rfl, hlimit⟩
    cases hmark with
    | none => exact .inl rfl
    | plus => exact .inr (.inl rfl)
    | minus => exact .inr (.inr rfl)

/-- Reading an integer ends in a fault exactly if it has too many digits. -/
lemma Coercion.integer_eq_fault_iff {tag : Tag} {low high : Int} {t : Text} {f : Fault} :
    integer tag low high t = .error (.fault f) ↔
      ∃ n, f = .integerTooLong n ∧ t.IsOverlong n := by
  simp only [Text.isOverlong_iff]
  by_cases hdenotes : ∃ k z, DenotesInteger t k z
  · obtain ⟨k, z, hz⟩ := hdenotes
    have hlength : (∃ n, f = .integerTooLong n ∧ digitLimit < n ∧ ∃ y, DenotesInteger t n y) ↔
        f = .integerTooLong k ∧ digitLimit < k := by
      constructor
      · rintro ⟨n, hf, hlimit, y, hy⟩
        rw [(hz.unique hy).1]
        exact ⟨hf, hlimit⟩
      · rintro ⟨hf, hlimit⟩
        exact ⟨k, hf, hlimit, z, hz⟩
    rw [hlength, integer_of_denotes hz]
    split
    · next hlimit => simp [hlimit, eq_comm]
    · next hlimit => split <;> simp [hlimit]
  · rw [integer_of_not_denotes hdenotes]
    constructor
    · intro h
      cases h
    · rintro ⟨n, -, -, z, hz⟩
      exact absurd ⟨n, z, hz⟩ hdenotes

/-- Whether the kind is one of integers. -/
def Tag.isInteger : Tag → Bool
  | .int32 | .int64 => true
  | _ => false

lemma Tag.coerce_eq_fault_iff {tag : Tag} {t : Text} {f : Fault} :
    tag.coerce t = .error (.fault f) ↔
      tag.isInteger = true ∧ ∃ n, f = .integerTooLong n ∧ t.IsOverlong n := by
  have hmap : ∀ {α β : Type} (g : α → β) (r : Except (Failure CoercionError) α),
      r.map g = .error (.fault f) ↔ r = .error (.fault f) := by
    intro α β g r
    cases r <;> simp [Except.map]
  cases tag with
  | int32 => simp only [coerce, hmap, Coercion.integer_eq_fault_iff, isInteger, true_and]
  | int64 => simp only [coerce, hmap, Coercion.integer_eq_fault_iff, isInteger, true_and]
  | bool =>
      simp only [coerce, hmap, isInteger, Bool.false_eq_true, false_and, iff_false]
      unfold Coercion.boolean
      split
      · simp
      · split <;> simp
  | float32 =>
      simp only [coerce, hmap, isInteger, Bool.false_eq_true, false_and, iff_false]
      unfold Coercion.floating
      split <;> simp
  | float64 =>
      simp only [coerce, hmap, isInteger, Bool.false_eq_true, false_and, iff_false]
      unfold Coercion.floating
      split <;> simp
  | str => simp [coerce, isInteger]

lemma Store.coerced_eq_fault_iff {type : VarType} {t : Text} {f : Fault} :
    Store.coerced type t = .error (.fault f) ↔
      type.tag.isInteger = true ∧ ∃ n, f = .integerTooLong n ∧ t.IsOverlong n := by
  rw [← Tag.coerce_eq_fault_iff]
  unfold Store.coerced
  rcases type.tag.coerce t with (e | g) | v
  · simp [Failure.map]
  · simp [Failure.map]
  · simp

/-! ## Displays -/

namespace Binary

variable {F : Format}

/-- The text of a floating number is no integer: it has a point, or it is a word. -/
lemma exists_mem_layout (shown : Magnitude F → Decimal) (x : Binary F) :
    ∃ c ∈ x.layout shown, ¬ (c.isDigit = true ∨ c = ('+' : Char) ∨ c = ('-' : Char)) := by
  have hpoint : ∀ t : Text, (('.' : Char) : CodePoint) ∈ t →
      ∃ c ∈ t, ¬ (c.isDigit = true ∨ c = ('+' : Char) ∨ c = ('-' : Char)) :=
    fun t ht => ⟨_, ht, by decide⟩
  have hdot : ∀ a b : Text, (('.' : Char) : CodePoint) ∈ a ++ "." ++ b := by
    intro a b
    apply List.mem_append_left
    apply List.mem_append_right
    exact List.mem_singleton_self _
  rcases x with _ | negative | ⟨negative, m⟩
  · exact ⟨('N' : Char), List.mem_cons_self, by decide⟩
  · refine ⟨('I' : Char), ?_, by decide⟩
    exact List.mem_append_right _ List.mem_cons_self
  · apply hpoint
    rw [layout]
    split
    · exact List.mem_append_right _ (by decide)
    · apply List.mem_append_right
      split
      · unfold Decimal.plain
        split
        · exact List.mem_append_left _ (by decide)
        · exact hdot _ _
        · rw [List.append_assoc]
          exact List.mem_append_left _ (by decide)
      · unfold Decimal.scientific
        apply List.mem_append_left
        apply List.mem_append_left
        exact hdot _ _

end Binary

/-- Only a text is displayed by an integer with too many digits. -/
lemma Value.isOverlong_display_iff {v : Value} {n : Nat} :
    v.display.IsOverlong n ↔ ∃ t : Text, v = .str t ∧ t.IsOverlong n := by
  constructor
  · intro h
    -- An integer is read back from its display, which would be a fault.
    have hkind : v.tag.isInteger = false := by
      by_contra hinteger
      rw [Bool.not_eq_false] at hinteger
      have hfault : v.tag.coerce v.display = .error (.fault (.integerTooLong n)) :=
        Tag.coerce_eq_fault_iff.mpr ⟨hinteger, n, rfl, h⟩
      rw [v.coerce_display] at hfault
      cases hfault
    cases v with
    | int32 a => cases hkind
    | int64 a => cases hkind
    | bool b =>
        have hletter := h.forall_mem ('e' : Char) (by cases b <;> decide)
        exact absurd hletter (by decide)
    | float32 x =>
        obtain ⟨c, hc, hne⟩ := Binary.exists_mem_layout Magnitude.shortestSingle x
        exact absurd (h.forall_mem c hc) hne
    | float64 x =>
        obtain ⟨c, hc, hne⟩ := Binary.exists_mem_layout Magnitude.shortestDouble x
        exact absurd (h.forall_mem c hc) hne
    | str t => exact ⟨t, rfl, h⟩
  · rintro ⟨t, rfl, h⟩
    exact h

/-! ## Writes -/

namespace Evaluation

variable {v : Value} {s : Store} {f : Fault}

lemma andThen_eq_error_iff {first : Evaluation} {next : Value → Store → Evaluation}
    {failure : Failure EvalError} :
    (first.andThen next).result = .error failure ↔ first.result = .error failure ∨
      ∃ v, first.result = .ok v ∧ (next v first.store).result = .error failure := by
  rcases hresult : first.result with other | v
  · rw [andThen_of_error hresult, hresult]
    simp
  · rw [andThen_of_ok hresult]
    simp

/-- A declaration ends in a fault exactly if a new variable of an integer type is declared with too
many digits. -/
lemma declare_eq_fault_iff {typeName x : Text} :
    (declare typeName x v s).result = .error (.fault f) ↔
      (s.find? x = none ∧
        ∃ type, VarType.ofName? typeName = some type ∧ type.tag.isInteger = true) ∧
      ∃ n, f = .integerTooLong n ∧ v.display.IsOverlong n := by
  unfold declare
  rcases hfind : s.find? x with _ | b
  · unfold Store.declare Store.typeOf
    rw [Store.contains_eq_false_iff.mpr hfind, if_neg Bool.false_ne_true]
    rcases VarType.ofName? typeName with _ | type
    · simp [bind, Except.bind, still]
    · have hcoerced : Store.coerced type v.display = .error (.fault f) ↔ _ :=
        Store.coerced_eq_fault_iff
      rcases hv : Store.coerced type v.display with failure | w
      · rw [hv, Except.error.injEq] at hcoerced
        simpa [bind, Except.bind, still, hv] using hcoerced
      · rw [hv] at hcoerced
        simpa [bind, Except.bind, hv] using hcoerced
  · simp

/-- An assignment ends in a fault exactly if a variable of an integer type is assigned too many
digits. -/
lemma assign_eq_fault_iff {x : Text} :
    (assign x v s).result = .error (.fault f) ↔
      (∃ b, s.find? x = some b ∧ b.type.tag.isInteger = true) ∧
      ∃ n, f = .integerTooLong n ∧ v.display.IsOverlong n := by
  unfold assign Store.assign Store.binding
  rcases s.find? x with _ | b
  · simp [bind, Except.bind, still]
  · have hcoerced : Store.coerced b.type v.display = .error (.fault f) ↔ _ :=
      Store.coerced_eq_fault_iff
    rcases hv : Store.coerced b.type v.display with failure | w
    · rw [hv, Except.error.injEq] at hcoerced
      simpa [bind, Except.bind, still, hv] using hcoerced
    · rw [hv] at hcoerced
      simpa [bind, Except.bind, hv] using hcoerced

end Evaluation

/-! ## Expressions -/

/-- The expression is an integer literal of `n` digits, more than conversion allows. -/
def Expr.IsOverlongLiteral (e : Expr) (n : Nat) : Prop :=
  ∃ t : Text, e = .literal ⟨.int, t⟩ ∧ t.IsOverlong n

/-- Evaluating the expression in the store comes to an integer of `n` digits, more than conversion
allows. Nested writes come first, and an operand is looked at if those before it have a value. -/
def Expr.Overlong (s : Store) (n : Nat) : Expr → Prop
  | .literal l => (Expr.literal l).IsOverlongLiteral n
  | .binary _ left right =>
    left.IsOverlongLiteral n ∨ (∃ v, left.operand s = .ok v) ∧ right.IsOverlongLiteral n
  | .declare typeName x initializer =>
    Expr.Overlong s n initializer ∨
      ((initializer.eval s).store.find? x = none ∧
        ∃ type, VarType.ofName? typeName = some type ∧ type.tag.isInteger = true) ∧
      ∃ t : Text, (initializer.eval s).result = .ok (.str t) ∧ t.IsOverlong n
  | .assign (.name x) .set value =>
    Expr.Overlong s n value ∨
      (∃ b, (value.eval s).store.find? x = some b ∧ b.type.tag.isInteger = true) ∧
      ∃ t : Text, (value.eval s).result = .ok (.str t) ∧ t.IsOverlong n
  | _ => False

lemma Literal.eval_eq_fault_iff {l : Literal} {f : Fault} :
    l.eval = .error (.fault f) ↔
      ∃ n, f = .integerTooLong n ∧ (Expr.literal l).IsOverlongLiteral n := by
  obtain ⟨kind, t⟩ := l
  cases kind with
  | int =>
      show Store.coerced .int t = _ ↔ _
      rw [Store.coerced_eq_fault_iff]
      simp [Expr.IsOverlongLiteral, VarType.tag, Tag.isInteger]
  | _ => simp [Literal.eval, Expr.IsOverlongLiteral]

lemma Store.read_ne_fault (s : Store) (x : Text) (f : Fault) :
    s.read x ≠ .error (.fault f) := by
  unfold Store.read Store.binding
  split <;> simp [Except.map]

lemma BinaryOp.apply_ne_fault (op : BinaryOp) (a b : Value) (f : Fault) :
    op.apply a b ≠ .error (.fault f) := by
  unfold BinaryOp.apply
  split <;> simp

namespace Expr

variable {s : Store} {f : Fault}

lemma operand_eq_fault_iff {e : Expr} :
    e.operand s = .error (.fault f) ↔
      ∃ n, f = .integerTooLong n ∧ e.IsOverlongLiteral n := by
  cases e with
  | literal l => exact Literal.eval_eq_fault_iff
  | name x => simp [operand, s.read_ne_fault, IsOverlongLiteral]
  | _ => simp [operand, IsOverlongLiteral]

/-- An operation ends in a fault at its first operand that does. -/
lemma eval_binary_eq_fault_iff {op : BinaryOp} {left right : Expr} :
    ((binary op left right).eval s).result = .error (.fault f) ↔
      ∃ n, f = .integerTooLong n ∧ (binary op left right).Overlong s n := by
  have hparts : (∃ n, f = .integerTooLong n ∧ (binary op left right).Overlong s n) ↔
      left.operand s = .error (.fault f) ∨
        (∃ v, left.operand s = .ok v) ∧ right.operand s = .error (.fault f) := by
    rw [operand_eq_fault_iff, operand_eq_fault_iff]
    simp only [Overlong, and_or_left, exists_or]
    apply or_congr_right
    constructor
    · rintro ⟨n, hf, hv, hn⟩
      exact ⟨hv, n, hf, hn⟩
    · rintro ⟨hv, n, hf, hn⟩
      exact ⟨n, hf, hv, hn⟩
  rw [hparts]
  show (do
    let a ← left.operand s
    let b ← right.operand s
    op.apply a b) = .error (.fault f) ↔ _
  rcases left.operand s with failure | a
  · simp [bind, Except.bind]
  · rcases right.operand s with failure | b
    · simp [bind, Except.bind]
    · simp [bind, Except.bind, op.apply_ne_fault a b f]

/-- A write ends in a fault if the value to be written does, or if the value is a text with too many
digits for its target. -/
lemma write_eq_fault_iff {result : Except (Failure EvalError) Value} {inner : Nat → Prop}
    {target : Prop} :
    ((∃ n, f = .integerTooLong n ∧ inner n) ∨
      ∃ v, result = .ok v ∧ target ∧ ∃ n, f = .integerTooLong n ∧ v.display.IsOverlong n) ↔
    ∃ n, f = .integerTooLong n ∧
      (inner n ∨ target ∧ ∃ t : Text, result = .ok (.str t) ∧ t.IsOverlong n) := by
  constructor
  · rintro (⟨n, hf, hinner⟩ | ⟨v, hv, htarget, n, hf, hoverlong⟩)
    · exact ⟨n, hf, .inl hinner⟩
    · obtain ⟨t, rfl, ht⟩ := Value.isOverlong_display_iff.mp hoverlong
      exact ⟨n, hf, .inr ⟨htarget, t, hv, ht⟩⟩
  · rintro ⟨n, hf, hinner | ⟨htarget, t, ht, hoverlong⟩⟩
    · exact .inl ⟨n, hf, hinner⟩
    · exact .inr ⟨.str t, ht, htarget, n, hf, hoverlong⟩

/-- Evaluating an expression ends in a fault exactly if it comes to too many digits. -/
lemma eval_eq_fault_iff (e : Expr) :
    (e.eval s).result = .error (.fault f) ↔ ∃ n, f = .integerTooLong n ∧ e.Overlong s n := by
  induction e using Expr.induction_on_writes with
  | still e h =>
      cases e with
      | literal l => exact Literal.eval_eq_fault_iff
      | name x => simp [eval, Evaluation.still, s.read_ne_fault, Overlong]
      | binary op left right => exact eval_binary_eq_fault_iff
      | declare typeName x initializer => cases h
      | assign target op value =>
          have hnone : ∀ n, ¬ (assign target op value).Overlong s n := by
            intro n hn
            unfold Overlong at hn
            split at hn
            · next heq => cases heq
            · next heq => cases heq
            · next heq => cases heq
            · next heq =>
              cases heq
              cases h
            · exact hn
          obtain ⟨error, heval⟩ := exists_eval_eq_refuse h
          simp [heval, Evaluation.refuse, Evaluation.still, hnone]
      | _ => simp [eval, Evaluation.refuse, Evaluation.still, Overlong]
  | declare typeName x initializer ih =>
      rw [eval_declare, Evaluation.andThen_eq_error_iff, ih]
      simp only [Evaluation.declare_eq_fault_iff, Overlong]
      exact write_eq_fault_iff
  | assign x value ih =>
      rw [eval_assign, Evaluation.andThen_eq_error_iff, ih]
      simp only [Evaluation.assign_eq_fault_iff, Overlong]
      exact write_eq_fault_iff

end Expr

/-- Evaluating the node in the store comes to an integer of `n` digits, more than conversion
allows. -/
def Node.Overlong (node : Node) (s : Store) (n : Nat) : Prop :=
  ∃ e, node.expr? = some e ∧ e.Overlong s n

lemma Node.eval_eq_fault_iff {node : Node} {s : Store} {f : Fault} :
    (node.eval s).result = .error (.fault f) ↔
      ∃ n, f = .integerTooLong n ∧ node.Overlong s n := by
  unfold Node.Overlong
  fun_cases Node.eval node s with
  | case1 e => simp [Node.expr?, Expr.eval_eq_fault_iff]
  | case2 e => simp [Node.expr?, Expr.eval_eq_fault_iff]
  | case3 other hother =>
      have hnone : (Node.stmt other).expr? = none := by
        cases other with
        | expr e => exact absurd rfl (hother e)
        | _ => rfl
      simp [hnone, Evaluation.refuse, Evaluation.still]

/-! ## Lines -/

lemma Scan.parse_eq_fault_iff {α : Type} {parser : List Lexeme → Except GrammarError α}
    {source : Text} {f : Fault} :
    Scan.parse parser source = .error (.fault f) ↔ Scan.ofSource source = .error (.fault f) := by
  unfold Scan.parse
  rcases Scan.ofSource source with (e | g) | scan
  · simp [Failure.map]
  · simp [Failure.map]
  · simp only [reduceCtorEq, iff_false]
    split <;> simp

namespace Line

variable {line : Text} {f : Fault}

/-- The semicolon that is added has no part in a fault. -/
lemma ofSource_closed_eq_fault_iff {t : Text} :
    Scan.ofSource (closed t) = .error (.fault f) ↔ Scan.ofSource t = .error (.fault f) := by
  rcases closed_eq_or t with hclosed | hclosed
  · rw [hclosed]
  · rw [hclosed]
    exact Scan.ofSource_append_closer_eq_fault_iff (s := .semicolon) rfl

/-- Parsing a line ends in a fault exactly at a digit of another script. -/
lemma parse_eq_fault_iff :
    (parse line).result = .error (.fault f) ↔ f = .strayDigit ∧ Scan.Strays line.trim := by
  have hattempt : Stmt.ofSource (closed line.trim) = .error (.fault f) ↔
      Scan.ofSource line.trim = .error (.fault f) :=
    Scan.parse_eq_fault_iff.trans ofSource_closed_eq_fault_iff
  have hfallback : Expr.ofSource line.trim = .error (.fault f) ↔
      Scan.ofSource line.trim = .error (.fault f) := Scan.parse_eq_fault_iff
  rw [← Scan.ofSource_eq_fault_iff]
  constructor
  · intro h
    unfold parse at h
    split at h
    · cases h
    · next g hg =>
      cases h
      exact hattempt.mp hg
    · rcases hexpr : Expr.ofSource line.trim with failure | e
      · rw [hexpr] at h
        cases h
        exact hfallback.mp hexpr
      · rw [hexpr] at h
        cases h
  · intro h
    unfold parse
    rw [hattempt.mpr h]

/-- A line that asks to end the session consists of letters. -/
lemma isLetter_of_isExit (h : isExit line = true) : ∀ c ∈ line.trim, c.isLetter = true := by
  have hletters : ∀ c ∈ ("exit" : Text), c.isLetter = true := by decide
  intro c hc
  have hlower : c.lower ∈ ("exit" : Text) := by
    rw [← of_decide_eq_true h]
    exact List.mem_map_of_mem hc
  unfold CodePoint.lower at hlower
  split at hlower
  · next hrange =>
    rw [CodePoint.isLetter, CodePoint.within_iff.mpr hrange, Bool.true_or]
  · exact hletters c hlower

lemma isLetter_of_isForeignDigit {c : CodePoint} (h : c.isForeignDigit = true) :
    c.isLetter = false := by
  have hle := CodePoint.le_val_of_isForeignDigit h
  by_contra hletter
  simp only [CodePoint.isLetter, Bool.not_eq_false, Bool.or_eq_true, CodePoint.within_iff]
    at hletter
  omega

end Line

/-! ## Sessions -/

namespace Session

variable {line : Text} {node : Node} {f : Fault}

/-- A digit of another script where a lexeme can start ends the line in a fault. -/
lemma answer_of_strays (h : Scan.Strays line.trim) (session : Session) :
    (session.run line).answer = .error .strayDigit := by
  have hparse := Line.parse_eq_fault_iff.mpr ⟨rfl, h⟩
  obtain ⟨before, c, rest, tokens, htrim, -, hc⟩ := h
  have hmem : c ∈ line.trim := by
    rw [htrim]
    simp
  have hexit : ¬ Line.isExit line = true := by
    intro hexit
    have hletter := Line.isLetter_of_isExit hexit c hmem
    rw [Line.isLetter_of_isForeignDigit hc] at hletter
    cases hletter
  have hblank : ¬ Line.isBlank line = true := by
    intro hblank
    rw [of_decide_eq_true hblank] at hmem
    cases hmem
  rw [run, if_neg hexit, if_neg hblank]
  simp only [hparse]

/-- A line without a node ends in a fault only there. -/
lemma strays_of_answer (hnode : Line.node? line = none) {session : Session}
    (h : (session.run line).answer = .error f) : f = .strayDigit ∧ Scan.Strays line.trim := by
  rw [← Line.parse_eq_fault_iff]
  unfold run at h
  split at h
  · cases h
  · split at h
    · cases h
    · next hexit hblank =>
      rw [Line.node?, Bool.eq_false_iff.mpr hexit, Bool.eq_false_iff.mpr hblank] at hnode
      rcases hparse : (Line.parse line).result with (e | g) | node
      · simp only [hparse] at h
        cases h
      · simp only [hparse] at h
        cases h
        rfl
      · rw [hparse] at hnode
        cases hnode

/-- A line with a node ends in a fault exactly if evaluation comes to too many digits. -/
lemma answer_eq_error_iff (hnode : Line.node? line = some node) (session : Session) :
    (session.run line).answer = .error f ↔
      ∃ n, f = .integerTooLong n ∧ node.Overlong session.store n := by
  rw [run_of_node?_eq_some hnode, ← Node.eval_eq_fault_iff, node.result_evalRecorded]
  rcases (node.eval session.store).result with (e | g) | v
  · simp [answerOf]
  · simp [answerOf]
  · simp [answerOf]

end Session

/-- A line is answered, unless a digit of another script stands where a lexeme can start or
evaluation comes to an integer with too many digits. These two end in a fault, and are the only
faults there are as long as the stack has no limit: a limit of the machine on the depth of nested
lines is not accounted for. -/
theorem run_faults_iff (session : Session) (line : Text) (f : Fault) :
    (session.run line).answer = .error f ↔
      (f = .strayDigit ∧ Scan.Strays line.trim) ∨
      ∃ node n, f = .integerTooLong n ∧ Line.node? line = some node ∧
        node.Overlong session.store n := by
  constructor
  · intro h
    rcases hnode : Line.node? line with _ | node
    · exact .inl (Session.strays_of_answer hnode h)
    · obtain ⟨n, hf, hn⟩ := (Session.answer_eq_error_iff hnode session).mp h
      exact .inr ⟨node, n, hf, rfl, hn⟩
  · rintro (⟨rfl, h⟩ | ⟨node, n, hf, hnode, hn⟩)
    · exact Session.answer_of_strays h session
    · exact (Session.answer_eq_error_iff hnode session).mpr ⟨n, hf, hn⟩

/-- A line of digits is an integer literal. -/
lemma Line.node?_digits {digits : Text} (hne : digits ≠ [])
    (hdigits : ∀ c ∈ digits, c.isDigit = true) :
    node? digits = some (.stmt (.expr (.literal ⟨.int, digits⟩))) := by
  have htrim : digits.trim = digits :=
    Text.trim_of_forall fun c hc => CodePoint.isBlank_of_isDigit (hdigits c hc)
  have hexit : isExit digits = false := by
    by_contra hexit
    rw [Bool.not_eq_false] at hexit
    obtain ⟨c, rest, rfl⟩ := List.exists_cons_of_ne_nil hne
    have hdigit := hdigits c List.mem_cons_self
    have hletter := isLetter_of_isExit hexit c (by rw [htrim]; exact List.mem_cons_self)
    simp only [CodePoint.isLetter, CodePoint.isDigit, Bool.or_eq_true, CodePoint.within_iff]
      at hletter hdigit
    omega
  have hblank : isBlank digits = false := by
    rw [isBlank, htrim]
    exact decide_eq_false hne
  have hopen : closed digits = digits ++ ";" := by
    rw [closed, if_neg]
    intro hclosed
    rw [isClosed, Bool.or_eq_true, decide_eq_true_eq, decide_eq_true_eq] at hclosed
    rcases hclosed with hlast | hlast
    · exact absurd (hdigits _ (List.mem_of_getLast? hlast)) (by decide)
    · exact absurd (hdigits _ (List.mem_of_getLast? hlast)) (by decide)
  have hattempt : Stmt.ofSource (closed digits.trim) = .ok (.expr (.literal ⟨.int, digits⟩)) := by
    rw [htrim, hopen, Stmt.ofSource_eq_ok_iff]
    refine ⟨.expr (.expr (.literal _)), ?_⟩
    have hstop : Text.Closes ";" := Text.closes_append (t := ";") (by decide) []
    have hreads : Scan.Reads (digits ++ ";") (.literal ⟨.int, digits⟩) ";" :=
      reads_integer hdigits hne hstop.separated hstop.not_dot
    exact .lexeme hreads ((Scan.splits_text_iff .semicolon).mpr rfl)
  rw [node?, hexit, hblank, parse_eq_ok_iff.mpr (.inl ⟨_, hattempt, rfl⟩)]
  rfl

/-- Two lines that are not answered: a superscript digit, and a number of 4301 digits. -/
theorem run_faults :
    (Session.new.run "²").answer = .error .strayDigit ∧
    (Session.new.run (List.replicate 4301 ('1' : CodePoint))).answer
      = .error (.integerTooLong 4301) := by
  constructor
  · apply Session.answer_of_strays
    exact ⟨[], ('²' : Char), [], [], rfl, Scan.after_nil 0, by decide⟩
  · have hdigits : ∀ c ∈ List.replicate 4301 (('1' : Char) : CodePoint), c.isDigit = true := by
      intro c hc
      rw [List.eq_of_mem_replicate hc]
      decide
    have hlength : (List.replicate 4301 (('1' : Char) : CodePoint)).length = 4301 :=
      List.length_replicate
    generalize List.replicate 4301 (('1' : Char) : CodePoint) = digits at hdigits hlength
    have hne : digits ≠ [] := List.ne_nil_of_length_pos (by omega)
    refine (Session.answer_eq_error_iff (Line.node?_digits hne hdigits) Session.new).mpr ?_
    exact ⟨4301, rfl, _, rfl, digits, rfl, [], digits, rfl, .inl rfl, hdigits, hlength, by decide⟩

end LineShell
