import LineShell.Proofs.Fragment.Lines
import LineShell.Session

/-!
# Sessions run the fragment as the reference machine does

A new session that is given the lines of a well-typed program succeeds on every line, shows what
the machine shows, and holds at the end what the machine holds (`runAll_wellTyped`).

The session keeps a value by reading its display again on every write. So the heart of the proof is
that the display of a datum is read back as the same datum (`coerced_display`), for negative
integers too. `Represents` relates a store to an environment, one line keeps the relation
(`run_line`), and so does a program (`runAll_run`).
-/

namespace LineShell

/-! ## Integers as text -/

namespace Text

/-- A number below a power of ten has no more digits than that power. -/
lemma length_ofNat_le (k : Nat) {n : Nat} (h : n < Nat.pow 10 (k + 1)) :
    (ofNat n).length ≤ k + 1 := by
  induction k generalizing n with
  | zero =>
      rw [ofNat, if_pos (by simpa using h)]
      simp
  | succ k ih =>
      rw [ofNat]
      split
      · simp
      · have hdiv : n / 10 < Nat.pow 10 (k + 1) := by
          have hpower : n < Nat.pow 10 (k + 1) * 10 := h
          omega
        have := ih hdiv
        simp only [List.length_append, List.length_singleton]
        omega

/-- The digits of a number start with no sign. -/
lemma scanSign_ofNat (n : Nat) : Numeral.scanSign (ofNat n) = (none, ofNat n) := by
  obtain ⟨c, digits, hcons⟩ := List.exists_cons_of_ne_nil (ofNat_ne_nil n)
  have hc : c.isDigit = true := isDigit_of_mem_ofNat (hcons ▸ List.mem_cons_self)
  have hplus : c ≠ ('+' : Char) := by
    rintro rfl
    exact absurd hc (by decide)
  have hminus : c ≠ ('-' : Char) := by
    rintro rfl
    exact absurd hc (by decide)
  rw [hcons]
  simp only [Numeral.scanSign, hplus, hminus, or_self, if_false]

end Text

namespace Coercion

lemma all_isDigit_ofNat (n : Nat) : (Text.ofNat n).all CodePoint.isDigit = true :=
  List.all_eq_true.mpr fun _ hc => Text.isDigit_of_mem_ofNat hc

/-- The numeral of an integer splits into its sign and the digits of its absolute value. -/
lemma integerParts?_ofInt (n : Int) :
    integerParts? (Text.ofInt n) = some (decide (n < 0), Text.ofNat n.natAbs) := by
  unfold integerParts?
  cases n with
  | ofNat n =>
      simp only [Text.ofInt, Text.scanSign_ofNat]
      rw [if_pos ⟨Text.ofNat_ne_nil n, all_isDigit_ofNat n⟩]
      simp
  | negSucc n =>
      have hsign : Int.negSucc n < 0 := Int.negSucc_lt_zero n
      have hscan : Numeral.scanSign (Text.ofInt (.negSucc n))
          = (some (('-' : Char) : CodePoint), Text.ofNat (n + 1)) := rfl
      simp only [hscan]
      rw [if_pos ⟨Text.ofNat_ne_nil _, all_isDigit_ofNat _⟩]
      simp [hsign, Int.natAbs_negSucc]

/-- An integer of the range is read back from its numeral, if it is not too long. -/
lemma integer_ofInt (tag : Tag) {low high n : Int} (hlow : low ≤ n) (hhigh : n ≤ high)
    (hlength : (Text.ofNat n.natAbs).length ≤ digitLimit) :
    integer tag low high (Text.ofInt n) = .ok n := by
  have hsigned : signed (decide (n < 0)) (Text.ofNat n.natAbs) = n := by
    unfold signed
    rw [Text.natOfDigits_ofNat]
    split
    · next h =>
      have := of_decide_eq_true h
      omega
    · next h =>
      simp only [decide_eq_true_eq] at h
      omega
  unfold integer
  simp only [integerParts?_ofInt, if_neg (Nat.not_lt.mpr hlength), hsigned, hlow, hhigh, and_self,
    if_true]

end Coercion

namespace Fragment

/-! ## Data as values -/

/-- The value of a datum. -/
def Datum.value : Datum → Value
  | int w => .int32 (.ofInt w.val)
  | text t => .str t

lemma Word.toInt_ofInt (w : Word) : (Int32.ofInt w.val).toInt = w.val := by
  have hlow := w.low
  have hhigh := w.high
  apply Int32.toInt_ofInt_of_le
  · omega
  · omega

lemma Word.eq_ofInt_wrap {n : Int} {i : Int32} (h : i.toInt = n.bmod 4294967296) :
    i = .ofInt (Word.wrap n).val := by
  apply Int32.toInt.inj
  rw [Word.toInt_ofInt, h]
  unfold Word.wrap
  simp only [Int.bmod]
  omega

@[simp] lemma Datum.display_value (d : Datum) : d.value.display = d.display := by
  cases d with
  | int w => exact congrArg Text.ofInt w.toInt_ofInt
  | text t => rfl

/-- The display of a datum is read back as the datum, with the type of the datum. -/
lemma Datum.coerced_display (d : Datum) :
    Store.coerced d.ty.varType d.display = .ok d.value := by
  cases d with
  | int w =>
      have hlength : (Text.ofNat w.val.natAbs).length ≤ Coercion.digitLimit := by
        have hlow := w.low
        have hhigh := w.high
        have habs : w.val.natAbs < 10000000000 := by omega
        exact (Text.length_ofNat_le 9 habs).trans (by decide)
      have hread := Coercion.integer_ofInt .int32 w.low w.high hlength
      simp only [Store.coerced, Datum.ty, Ty.varType, VarType.tag, Tag.coerce, Datum.display, hread]
      rfl
  | text t => rfl

/-! ## Stores and environments -/

/-- The variable of an entry. -/
def binding (entry : Text × Datum) : Binding :=
  ⟨entry.1, entry.2.ty.varType, entry.2.value⟩

/-- The store holds the variables of the environment, each with its type and its value. -/
structure Represents (s : Store) (env : Env) : Prop where
  /-- The variables are those of the environment, in its order. -/
  bindings : s.bindings = env.map binding
  /-- No variable is there twice. -/
  distinct : env.Distinct

namespace Represents

variable {s : Store} {env : Env}

lemma find?_eq (h : Represents s env) (x : Text) :
    s.find? x = (env.lookup x).map fun d => binding (x, d) := by
  unfold Store.find?
  rw [h.bindings]
  clear h
  induction env with
  | nil => rfl
  | cons entry env ih =>
      obtain ⟨y, d⟩ := entry
      rw [List.map_cons, List.find?_cons, List.lookup_cons, ih]
      by_cases hxy : x = y
      · subst hxy
        simp [binding]
      · have hyx : ¬ (binding (y, d)).name = x := fun heq => hxy heq.symm
        rw [decide_eq_false hyx, beq_false_of_ne hxy]

lemma snapshot_eq (h : Represents s env) :
    s.snapshot = env.map fun entry => (entry.1, entry.2.display) := by
  unfold Store.snapshot
  rw [h.bindings, List.map_map]
  apply List.map_congr_left
  intro entry _
  simp [binding]

/-- A new variable stands behind all others. -/
lemma push (h : Represents s env) {x : Text} (hx : env.lookup x = none) (d : Datum) :
    Represents (s.push (binding (x, d))) (env ++ [(x, d)]) := by
  refine ⟨?_, ?_⟩
  · simp [Store.push, h.bindings]
  · unfold Env.Distinct
    rw [List.map_append, List.map_singleton, ← List.concat_eq_append, List.nodup_concat]
    exact ⟨Env.not_mem_of_lookup_eq_none hx, h.distinct⟩

/-- Another datum of the same type changes the value of the variable and nothing else. -/
lemma set (h : Represents s env) {x : Text} {old d : Datum} (hx : env.lookup x = some old)
    (hty : d.ty = old.ty) : Represents (s.set x d.value) (env.update x d) := by
  refine ⟨?_, ?_⟩
  · unfold Store.set Env.update
    simp only [h.bindings, List.map_map]
    apply List.map_congr_left
    intro entry hentry
    by_cases heq : entry.1 = x
    · have hold := h.distinct.lookup_of_mem hentry
      rw [heq, hx, Option.some.injEq] at hold
      simp [binding, heq, hty, hold]
    · simp [binding, heq]
  · unfold Env.Distinct
    rw [Env.map_fst_update]
    exact h.distinct

/-- A first declaration adds the variable. -/
lemma declare_eq (h : Represents s env) {x : Text} (hx : env.lookup x = none) (d : Datum) :
    s.declare x d.ty.varType.name d.display = .ok (d.value, s.push (binding (x, d))) := by
  have hfind := h.find?_eq x
  rw [hx, Option.map_none] at hfind
  have hcontains : s.contains x = false := by
    unfold Store.contains
    rw [hfind]
    rfl
  have htype : Store.typeOf d.ty.varType.name = .ok d.ty.varType := by
    unfold Store.typeOf
    rw [VarType.ofName?_name]
  unfold Store.declare
  rw [hcontains, htype]
  simp only [Bool.false_eq_true, if_false, bind, Except.bind, d.coerced_display]
  rfl

/-- An assignment of the type of the variable changes its value. -/
lemma assign_eq (h : Represents s env) {x : Text} {old d : Datum} (hx : env.lookup x = some old)
    (hty : d.ty = old.ty) : s.assign x d.display = .ok (d.value, s.set x d.value) := by
  have hfind := h.find?_eq x
  rw [hx, Option.map_some] at hfind
  have hbinding : s.binding x = .ok (binding (x, old)) := by
    unfold Store.binding
    rw [hfind]
  have hcoerced : Store.coerced (binding (x, old)).type d.display = .ok d.value := by
    unfold binding
    rw [← hty]
    exact d.coerced_display
  unfold Store.assign
  rw [hbinding]
  simp only [bind, Except.bind, hcoerced]

/-! ## Evaluation -/

/-- An operand has the value of its datum. -/
lemma operand_eq (h : Represents s env) {a : Operand} {d : Datum} (ha : a.value env = some d) :
    a.expr.operand s = .ok d.value := by
  cases a with
  | number n le =>
      cases ha
      exact Datum.coerced_display (.int ⟨n, by omega, by omega⟩)
  | text t =>
      cases ha
      rfl
  | var x =>
      have hfind := h.find?_eq x.word
      rw [show env.lookup x.word = some d from ha, Option.map_some] at hfind
      rw [Operand.expr, Expr.operand, Store.read, Store.binding, hfind]
      rfl

/-- An operand by itself has its value too. -/
lemma eval_operand (h : Represents s env) {a : Operand} {d : Datum} (ha : a.value env = some d) :
    a.expr.eval s = .still s (.ok d.value) := by
  have hoperand := h.operand_eq ha
  cases a <;> exact congrArg (Evaluation.still s) hoperand

/-- A term has the value of its datum and leaves the store as it is. -/
lemma eval_term (h : Represents s env) {e : Term} {d : Datum} (he : e.value env = some d) :
    e.expr.eval s = .still s (.ok d.value) := by
  cases e with
  | operand a => exact h.eval_operand he
  | add a b =>
      rw [Term.value] at he
      split at he
      · next m n ha hb =>
        cases he
        have hsum : Int32.ofInt m.val + Int32.ofInt n.val
            = .ofInt (Word.wrap (m.val + n.val)).val := by
          apply Word.eq_ofInt_wrap
          rw [Int32.toInt_add, m.toInt_ofInt, n.toInt_ofInt]
        simp only [Term.expr, Expr.eval, h.operand_eq ha, h.operand_eq hb]
        exact congrArg (fun i => Evaluation.still s (.ok (.int32 i))) hsum
      · next t u ha hb =>
        cases he
        simp only [Term.expr, Expr.eval, h.operand_eq ha, h.operand_eq hb]
        rfl
      · cases he
  | sub a b =>
      rw [Term.value] at he
      split at he
      · next m n ha hb =>
        cases he
        have hdiff : Int32.ofInt m.val - Int32.ofInt n.val
            = .ofInt (Word.wrap (m.val - n.val)).val := by
          apply Word.eq_ofInt_wrap
          rw [Int32.toInt_sub, m.toInt_ofInt, n.toInt_ofInt]
        simp only [Term.expr, Expr.eval, h.operand_eq ha, h.operand_eq hb]
        exact congrArg (fun i => Evaluation.still s (.ok (.int32 i))) hdiff
      · cases he

/-- One line: what the machine shows is the value, and the stores stay related. -/
lemma eval_command (h : Represents s env) {c : Command} {d : Datum} {next : Env}
    (hstep : c.step env = some (d, next)) :
    (c.expr.eval s).result = .ok d.value ∧ Represents (c.expr.eval s).store next := by
  cases c with
  | declare type x e =>
      obtain ⟨v, hv, hstep⟩ := Option.bind_eq_some_iff.mp hstep
      have hfind := h.find?_eq x.word
      rw [Command.expr, Expr.eval, h.eval_term hv, Evaluation.andThen_of_ok rfl,
        Evaluation.declare]
      cases hold : env.lookup x.word with
      | some old =>
          rw [hold] at hstep
          cases hstep
          rw [hold, Option.map_some] at hfind
          simp only [Evaluation.still, hfind]
          exact ⟨rfl, h⟩
      | none =>
          rw [hold] at hstep
          obtain ⟨rfl, hsome⟩ := Option.ite_none_right_eq_some.mp hstep
          cases hsome
          rw [hold, Option.map_none] at hfind
          simp only [Evaluation.still, hfind, Datum.display_value, h.declare_eq hold d]
          exact ⟨trivial, h.push hold d⟩
  | assign x e =>
      obtain ⟨v, hv, hstep⟩ := Option.bind_eq_some_iff.mp hstep
      obtain ⟨old, hold, hstep⟩ := Option.bind_eq_some_iff.mp hstep
      obtain ⟨hty, hsome⟩ := Option.ite_none_right_eq_some.mp hstep
      cases hsome
      rw [Command.expr, Expr.eval, if_pos rfl, h.eval_term hv, Evaluation.andThen_of_ok rfl,
        Evaluation.assign]
      simp only [Evaluation.still, Datum.display_value, h.assign_eq hold hty]
      exact ⟨trivial, h.set hold hty⟩
  | term e =>
      obtain ⟨v, hv, hstep⟩ := Option.bind_eq_some_iff.mp hstep
      cases hstep
      rw [Command.expr, h.eval_term hv]
      exact ⟨rfl, h⟩

end Represents

/-! ## Sessions -/

/-- Running a line succeeds with what the machine shows, and the stores stay related. -/
lemma run_line {session : Session} {env next : Env} (h : Represents session.store env)
    {c : Command} {d : Datum} (hstep : c.step env = some (d, next)) :
    (session.run c.line).answer = .ok (.value d.display) ∧
      Represents (session.run c.line).session.store next := by
  obtain ⟨hresult, hstore⟩ := h.eval_command hstep
  have heval : (Node.stmt (.expr c.expr)).evalRecorded session.store
      = c.expr.eval session.store := by
    unfold Node.evalRecorded
    rw [Node.eval]
    simp only [hresult]
  unfold Session.run
  rw [c.isExit_line, c.isBlank_line, c.parse_line]
  simp only [Bool.false_eq_true, if_false, heval, hresult, Session.answerOf, Datum.display_value]
  exact ⟨trivial, hstore⟩

/-- The session behind the last of some reports, if there is one. -/
def finalSession (start : Session) (reports : List Report) : Session :=
  (reports.getLast?.map Report.session).getD start

lemma finalSession_cons (start : Session) (report : Report) (reports : List Report) :
    finalSession start (report :: reports) = finalSession report.session reports := by
  unfold finalSession
  cases reports with
  | nil => rfl
  | cons next reports => rw [List.getLast?_cons_cons, List.getLast?_cons]; rfl

/-- Running a program gives an answer for every line, as the machine does, and the stores stay
related. -/
lemma runAll_run {session : Session} {env last : Env} (h : Represents session.store env)
    {p : List Command} {ds : List Datum} (hrun : run env p = some (ds, last)) :
    (session.runAll (p.map Command.line)).map Report.answer
        = ds.map (fun d => .ok (.value d.display)) ∧
      Represents (finalSession session (session.runAll (p.map Command.line))).store last := by
  induction p generalizing session env ds with
  | nil =>
      cases hrun
      exact ⟨rfl, h⟩
  | cons c rest ih =>
      obtain ⟨⟨d, next⟩, hstep, hrun⟩ := Option.bind_eq_some_iff.mp hrun
      obtain ⟨⟨ds', last'⟩, hrest, hrun⟩ := Option.bind_eq_some_iff.mp hrun
      cases hrun
      obtain ⟨hanswer, hstore⟩ := run_line h hstep
      obtain ⟨hanswers, hlast⟩ := ih hstore hrest
      rw [List.map_cons, Session.runAll, finalSession_cons, List.map_cons, List.map_cons, hanswer,
        hanswers]
      exact ⟨rfl, hlast⟩

/-- A new session runs every well-typed program as the reference machine does. Every line succeeds
and outputs what the machine shows for it, and at the end the store displays the environment of
the machine in the order of declaration. -/
theorem runAll_wellTyped (p : List Command) (h : WellTyped [] p) :
    ∃ ds env, run [] p = some (ds, env) ∧
      (Session.new.runAll (p.map Command.line)).map (fun report =>
          report.answer.map fun answer => (answer.isOk, answer.output))
        = ds.map (fun d => .ok (true, some ("==> " ++ d.display))) ∧
      (finalSession .new (Session.new.runAll (p.map Command.line))).store.snapshot
        = env.map fun entry => (entry.1, entry.2.display) := by
  have hnew : Represents Session.new.store [] := ⟨rfl, List.nodup_nil⟩
  have hdistinct : Env.Distinct [] := List.nodup_nil
  obtain ⟨ds, env, hrun⟩ := WellTyped.exists_run hdistinct h
  obtain ⟨hanswers, hstore⟩ := runAll_run hnew hrun
  refine ⟨ds, env, hrun, ?_, hstore.snapshot_eq⟩
  have houtput := congrArg (List.map (Except.map fun answer : Answer =>
    (answer.isOk, answer.output))) hanswers
  rw [List.map_map, List.map_map] at houtput
  exact houtput

/-- The greatest integer and one, kept in the variable `x` under a second declaration. -/
def overflow : List Command :=
  let x : Ident := ⟨"x", ⟨⟨⟨('x' : Char), rfl, by decide⟩, by decide⟩, by decide⟩⟩
  [.declare .int x (.operand (.number 2147483647 le_rfl)),
    .assign x (.add (.var x) (.number 1 (by decide))),
    .declare .text x (.operand (.text "a\"b"))]

/-- The sum wraps around, its negative value survives the write, and declaring the variable again
shows it. -/
theorem runAll_wellTyped_overflow :
    WellTyped [] overflow ∧
      (Session.new.runAll (overflow.map Command.line)).map (fun report =>
          report.answer.map fun answer => (answer.isOk, answer.output))
        = [.ok (true, some "==> 2147483647"), .ok (true, some "==> -2147483648"),
          .ok (true, some "==> -2147483648")] ∧
      (finalSession .new (Session.new.runAll (overflow.map Command.line))).store.snapshot
        = [(("x" : Text), ("-2147483648" : Text))] := by
  have htyped : WellTyped [] overflow :=
    .cons (.declare rfl (.operand .number)) (.cons (.assign rfl (.add (.var rfl) .number))
      (.cons (.redeclare rfl (.operand .text)) .nil))
  obtain ⟨ds, env, hrun, houtput, hsnapshot⟩ := runAll_wellTyped overflow htyped
  have hhigh : Text.ofInt 2147483647 = ("2147483647" : Text) := by
    show Text.ofNat 2147483647 = _
    simp only [Text.ofNat, Nat.reduceLT, Nat.reduceDiv, Nat.reduceMod, ↓reduceIte]
    rfl
  have hlow : Text.ofInt (-2147483648) = ("-2147483648" : Text) := by
    show (('-' : Char) : CodePoint) :: Text.ofNat 2147483648 = _
    simp only [Text.ofNat, Nat.reduceLT, Nat.reduceDiv, Nat.reduceMod, ↓reduceIte]
    rfl
  have hshow : ("==> " : Text) ++ Text.ofInt 2147483647 = "==> 2147483647" := by
    rw [hhigh]
    rfl
  have hshow' : ("==> " : Text) ++ Text.ofInt (-2147483648) = "==> -2147483648" := by
    rw [hlow]
    rfl
  cases hrun
  refine ⟨htyped, houtput.trans ?_, hsnapshot.trans ?_⟩
  · rw [← hshow, ← hshow']
    rfl
  · rw [← hlow]
    rfl

end Fragment

end LineShell
