import LineShell.Command.Loops
import LineShell.Proofs.Session.Faults
import LineShell.Proofs.Session.Independence

/-!
# The two commands agree

Both commands run lines in one session until a line asks to end it, a fault ends it or there are no
more lines. `Session.Hears` is the trace that the two loops have in common: the answers that are
heard, and the fault at the end if there is one. What either command prints and the code it exits
with are functions of this trace (`evalLines_of_hears`, `replLines_of_hears`).

What an answer puts on the screen (`Answer.Prints`) and the exit code that answers come to
(`Answer.exitCode`) are said here without the loops. The lines that `eval` is given and the input of
`repl` spell the same lines, if no line holds a line end (`lines_flatMap`). Main statement:
`commands_agree`.
-/

namespace LineShell

/-! ## Answers on the screen -/

namespace Answer

/-- What is seen of a line with this answer: the output and a line end, and nothing of a blank
line. -/
inductive Prints : Answer → Text → Prop
  /-- Nothing is seen of a blank line. -/
  | blank : Prints .blank []
  /-- Every other line has an output. -/
  | output {answer : Answer} {text : Text} (hne : answer ≠ .blank)
      (h : answer.output = some text) : Prints answer (text ++ "\n")

/-- The exit code that answers come to: whether a line failed. -/
def exitCode : List Answer → Nat
  | [] => 0
  | .failed _ _ :: _ => 1
  | _ :: rest => exitCode rest

/-- What is seen of a line is what the loops print for it. -/
lemma prints_iff {answer : Answer} {out : Text} :
    answer.Prints out ↔ Command.printed answer = out := by
  constructor
  · intro h
    cases h with
    | blank => rfl
    | output hne h =>
        unfold Command.printed
        rw [h]
  · rintro rfl
    by_cases hblank : answer = .blank
    · subst hblank
      exact .blank
    · obtain ⟨text, htext⟩ : ∃ text, answer.output = some text := by
        cases answer with
        | blank => exact absurd rfl hblank
        | _ => exact ⟨_, rfl⟩
      unfold Command.printed
      rw [htext]
      exact .output hblank htext

lemma forall₂_prints_iff {answers : List Answer} {outs : List Text} :
    List.Forall₂ Prints answers outs ↔ answers.map Command.printed = outs := by
  have hprints : Prints = fun answer out => Command.printed answer = out := by
    funext answer out
    exact propext prints_iff
  rw [hprints, ← List.forall₂_map_left_iff, List.forall₂_eq_eq_eq]

lemma exitCode_eq (answers : List Answer) :
    exitCode answers = if answers.all isOk then 0 else 1 := by
  induction answers with
  | nil => rfl
  | cons answer rest ih =>
      cases answer with
      | failed kind message => rfl
      | _ => exact ih

end Answer

/-! ## Lines that are run -/

/-- The lines up to the first one that asks to end the session, or all of them. -/
def Line.untilExit (lines : List Text) : List Text :=
  lines.take (lines.findIdx Line.isExit + 1)

lemma Line.untilExit_cons (line : Text) (rest : List Text) :
    untilExit (line :: rest) = line :: if isExit line then [] else untilExit rest := by
  unfold untilExit
  rw [List.findIdx_cons, List.take_succ_cons]
  cases isExit line with
  | true => rfl
  | false => rfl

namespace Session

/-- Running the lines in the session, these answers are heard until a line asks to end it, a fault
ends it, or there are no more lines. -/
inductive Hears : Session → List Text → List Answer → Option Fault → Prop
  /-- There are no more lines. -/
  | done (session : Session) : Hears session [] [] none
  /-- The line ends in a fault. -/
  | fault {session : Session} {line : Text} {f : Fault} (rest : List Text)
      (h : (session.run line).answer = .error f) : Hears session (line :: rest) [] (some f)
  /-- The line asks to end the session. -/
  | exit {session : Session} {line : Text} {answer : Answer} (rest : List Text)
      (h : (session.run line).answer = .ok answer) (hexit : Line.isExit line = true) :
      Hears session (line :: rest) [answer] none
  /-- The line is answered, and the next one is run. -/
  | next {session : Session} {line : Text} {rest : List Text} {answer : Answer}
      {answers : List Answer} {fault : Option Fault}
      (h : (session.run line).answer = .ok answer) (hexit : Line.isExit line = false)
      (hrest : Hears (session.run line).session rest answers fault) :
      Hears session (line :: rest) (answer :: answers) fault

variable {session : Session} {lines : List Text} {answers : List Answer} {fault : Option Fault}

/-- What is heard are the answers of the lines that are run, up to the first fault among them. -/
lemma hears_of_answers {tail : List (Except Fault Answer)}
    (h : (session.runAll (Line.untilExit lines)).map Report.answer = answers.map .ok ++ tail)
    (htail : tail.head? = fault.map .error) : Hears session lines answers fault := by
  induction lines generalizing session answers with
  | nil =>
      obtain ⟨hanswers, rfl⟩ := List.append_eq_nil_iff.mp h.symm
      rw [List.map_eq_nil_iff.mp hanswers]
      rcases fault with _ | f
      · exact .done session
      · cases htail
  | cons line rest ih =>
      rw [Line.untilExit_cons, runAll, List.map_cons] at h
      cases answers with
      | nil =>
          rw [List.map_nil, List.nil_append] at h
          rw [← h, List.head?_cons] at htail
          rcases fault with _ | f
          · cases htail
          · exact .fault rest (Option.some.inj htail)
      | cons answer answers =>
          rw [List.map_cons, List.cons_append] at h
          obtain ⟨hline, hrest⟩ := List.cons.inj h
          by_cases hexit : Line.isExit line = true
          · rw [if_pos hexit, runAll, List.map_nil] at hrest
            obtain ⟨hanswers, rfl⟩ := List.append_eq_nil_iff.mp hrest.symm
            rw [List.map_eq_nil_iff.mp hanswers]
            rcases fault with _ | f
            · exact .exit rest hline hexit
            · cases htail
          · rw [if_neg hexit] at hrest
            exact .next hline (Bool.eq_false_iff.mpr hexit) (ih hrest)

end Session

/-! ## The two loops -/

namespace Command

open Session (Hears finished_run)

variable {session : Session} {lines : List Text} {answers : List Answer} {fault : Option Fault}

/-- What `eval` comes to: it prints the answers, and fails if a line failed or a fault ended it. -/
lemma evalLines_of_hears (h : Hears session lines answers fault)
    (hsession : session.finished = false) (failed : Bool) :
    evalLines session failed lines =
      ⟨if fault.isSome || failed || !answers.all Answer.isOk then 1 else 0,
        answers.flatMap printed, fault⟩ := by
  induction h generalizing failed with
  | done session => simp [evalLines]
  | fault rest h => simp [evalLines, h]
  | exit rest h hexit => simp [evalLines, h, finished_run, hexit, Outcome.after]
  | @next session line rest answer answers fault h hexit hrest ih =>
      have hnext : (session.run line).session.finished = false := by
        rw [finished_run, hexit, hsession, Bool.false_or]
      rw [evalLines]
      simp only [h, hnext, ih hnext, Bool.false_eq_true, if_false, Outcome.after]
      simp [Bool.or_assoc]

/-- What `repl` comes to: it prints every answer behind the prompt. Behind the answers stands the
prompt of the line that ended in a fault, or that of the end of the input. -/
lemma replLines_of_hears (prompt : Text) (h : Hears session lines answers fault)
    (hsession : session.finished = false) :
    replLines prompt session lines =
      ⟨if fault.isSome then 1 else 0,
        answers.flatMap (fun answer => prompt ++ printed answer) ++
          if fault.isSome then prompt
          else if lines.any Line.isExit then [] else prompt ++ "\n", fault⟩ := by
  induction h with
  | done session => simp [replLines]
  | fault rest h => simp [replLines, h]
  | exit rest h hexit => simp [replLines, h, finished_run, hexit, Outcome.after]
  | @next session line rest answer answers fault h hexit hrest ih =>
      have hnext : (session.run line).session.finished = false := by
        rw [finished_run, hexit, hsession, Bool.false_or]
      rw [replLines]
      simp only [h, hnext, ih hnext, Bool.false_eq_true, if_false, Outcome.after]
      simp [hexit]

end Command

/-! ## Lines of the input -/

namespace Text

/-- A line ends at the next line feed, if it holds no line end itself. -/
lemma linesFrom_append (line : Text) {t : Text}
    (h : (('\r' : Char) : CodePoint) ∉ t ∧ (('\n' : Char) : CodePoint) ∉ t) (rest : Text) :
    linesFrom line (t ++ "\n" ++ rest) = (line.reverse ++ t) :: linesFrom [] rest := by
  induction t generalizing line with
  | nil =>
      rw [List.append_nil]
      show linesFrom line ((('\n' : Char) : CodePoint) :: rest) = _
      rw [linesFrom.eq_def]
      exact if_pos rfl
  | cons c t ih =>
      simp only [List.mem_cons, not_or] at h
      rw [List.cons_append, List.cons_append, linesFrom.eq_def]
      dsimp only
      rw [if_neg (Ne.symm h.2.1), if_neg (Ne.symm h.1.1), ih _ ⟨h.1.2, h.2.2⟩,
        List.reverse_cons, List.append_assoc]
      rfl

/-- The lines of a text that is written line by line. -/
lemma lines_flatMap {ts : List Text}
    (h : ∀ t ∈ ts, (('\r' : Char) : CodePoint) ∉ t ∧ (('\n' : Char) : CodePoint) ∉ t) :
    lines (ts.flatMap fun (t : Text) => t ++ "\n") = ts := by
  unfold lines
  induction ts with
  | nil => rfl
  | cons t ts ih =>
      rw [List.forall_mem_cons] at h
      rw [List.flatMap_cons, linesFrom_append [] h.1, ih h.2]
      rfl

end Text

/-- **The two commands agree.** They run the lines up to the first one that asks to end the session,
in one session. If all of these are answered, `eval` prints what there is to see of the answers and
its exit code tells whether a line failed, and `repl` prints the same behind a prompt each, with one
more prompt at the end of the input. If one of the lines ends in a fault, both commands end there
with the code 1. -/
theorem commands_agree (env : Environment) (logLevel : Option Text) (prompt : Text)
    (lines : List Text)
    (hends : ∀ line ∈ lines, (('\r' : Char) : CodePoint) ∉ line ∧
      (('\n' : Char) : CodePoint) ∉ line) :
    (∀ answers : List Answer,
      (Session.new.runAll (Line.untilExit lines)).map Report.answer = answers.map .ok →
      ∃ outs : List Text, List.Forall₂ Answer.Prints answers outs ∧
        Command.evalLines .new false lines = ⟨Answer.exitCode answers, outs.flatten, none⟩ ∧
        Command.replLines (Command.promptOf env logLevel (some prompt)) .new
            (Text.lines (lines.flatMap fun (line : Text) => line ++ "\n"))
          = ⟨0, outs.flatMap (fun (out : Text) => prompt ++ out) ++
              (if lines.any Line.isExit then ([] : Text) else prompt ++ "\n"), none⟩) ∧
    (∀ (answers : List Answer) (f : Fault) (rest : List (Except Fault Answer)),
      (Session.new.runAll (Line.untilExit lines)).map Report.answer
        = answers.map .ok ++ .error f :: rest →
      ∃ outs : List Text, List.Forall₂ Answer.Prints answers outs ∧
        Command.evalLines .new false lines = ⟨1, outs.flatten, some f⟩ ∧
        Command.replLines (Command.promptOf env logLevel (some prompt)) .new
            (Text.lines (lines.flatMap fun (line : Text) => line ++ "\n"))
          = ⟨1, outs.flatMap (fun (out : Text) => prompt ++ out) ++ prompt, some f⟩) := by
  have hprompt : Command.promptOf env logLevel (some prompt) = prompt := rfl
  rw [hprompt, Text.lines_flatMap hends]
  constructor
  · intro answers h
    rw [← List.append_nil (answers.map Except.ok)] at h
    have hhears : Session.Hears .new lines answers none := Session.hears_of_answers h rfl
    refine ⟨_, Answer.forall₂_prints_iff.mpr rfl, ?_, ?_⟩
    · rw [Command.evalLines_of_hears hhears rfl, Answer.exitCode_eq, List.flatMap_def]
      cases answers.all Answer.isOk with
      | true => rfl
      | false => rfl
    · rw [Command.replLines_of_hears prompt hhears rfl, List.flatMap_map]
      rfl
  · intro answers f rest h
    have hhears : Session.Hears .new lines answers (some f) := Session.hears_of_answers h rfl
    refine ⟨_, Answer.forall₂_prints_iff.mpr rfl, ?_, ?_⟩
    · rw [Command.evalLines_of_hears hhears rfl, List.flatMap_def]
      rfl
    · rw [Command.replLines_of_hears prompt hhears rfl, List.flatMap_map]
      rfl

/-- Lines that are blank, have a value or fail, up to one that asks to end the session. -/
def endedByExit : List Text :=
  ["", "int x = 5", "y", "x - 2", " EXIT ", "1"]

/-- Lines that have a value or fail, up to one that ends in a fault. -/
def endedByFault : List Text :=
  ["int x = 5", "y", "²", "1"]

/-- What is printed for these lines, without and with a prompt. -/
theorem commands_agree_exit :
    Command.evalLines .new false endedByExit
      = ⟨1, "==> 5\nError: Variable y does not exist\n==> 3\nExiting...\n", none⟩ ∧
    Command.replLines "> " .new
        (Text.lines (endedByExit.flatMap fun (line : Text) => line ++ "\n"))
      = ⟨0, "> > ==> 5\n> Error: Variable y does not exist\n> ==> 3\n> Exiting...\n", none⟩ ∧
    Command.evalLines .new false endedByFault
      = ⟨1, "==> 5\nError: Variable y does not exist\n", some .strayDigit⟩ ∧
    Command.replLines "> " .new
        (Text.lines (endedByFault.flatMap fun (line : Text) => line ++ "\n"))
      = ⟨1, "> ==> 5\n> Error: Variable y does not exist\n> ", some .strayDigit⟩ := by
  have hexit := (commands_agree (fun _ => none) none "> " endedByExit (by decide)).1
    [.blank, .value "5", .failed .undefinedVariable "Variable y does not exist", .value "3", .exit]
    (by decide +kernel)
  have hfault := (commands_agree (fun _ => none) none "> " endedByFault (by decide)).2
    [.value "5", .failed .undefinedVariable "Variable y does not exist"] .strayDigit
    [.ok (.value "1")] (by decide +kernel)
  simp only [Answer.forall₂_prints_iff, exists_eq_left'] at hexit hfault
  refine ⟨hexit.1.trans ?_, hexit.2.trans ?_, hfault.1.trans ?_, hfault.2.trans ?_⟩
  all_goals decide +kernel

end LineShell
