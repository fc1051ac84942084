import LineShell.Proofs.Tree.Cursor

/-!
# Walks that track plans

A walk with the cursor tracks a plan if it ends as the plan does: with the same tree, at the index
where the lexemes left by the plan start, or with the same error (`Cursor.Tracks`). How far a
success moves the cursor at least is part of it. Every step of a walk tracks a step of a plan.
-/

namespace LineShell

namespace Cursor

open LineShell.Parser (Plan)

variable {α β : Type} {ls : List Lexeme} {i low : Nat}

/-! ## Marks -/

@[simp] lemma length_marks (ls : List Lexeme) : (marks ls).length = ls.length + 1 := by
  simp [marks]

/-- The mark at an index is the next one of the lexemes from there on. -/
lemma getElem?_marks (hi : i ≤ ls.length) : (marks ls)[i]? = some (ls.drop i).head? := by
  rw [List.head?_drop]
  rcases Nat.lt_or_eq_of_le hi with hlt | rfl
  · simp [marks, List.getElem?_append_left, hlt]
  · simp [marks]

lemma lt_of_head?_drop {x : Lexeme} (h : (ls.drop i).head? = some x) : i < ls.length := by
  rw [List.head?_drop] at h
  exact (List.getElem?_eq_some_iff.mp h).1

/-! ## Tracking -/

/-- A walk ends as a plan does, and a success leaves the cursor at `low` or behind it. -/
inductive Agrees (ls : List Lexeme) (low : Nat) :
    Outcome α → Except GrammarError (α × List Lexeme) → Prop
  | done (a : α) {j : Nat} (hlow : low ≤ j) (hj : j ≤ ls.length) :
      Agrees ls low (.done a j) (.ok (a, ls.drop j))
  | error (e : GrammarError) : Agrees ls low (.error e) (.error e)

/-- At most one outcome agrees with a result. -/
lemma Agrees.outcome_eq {low' : Nat} {outcome outcome' : Outcome α}
    {result : Except GrammarError (α × List Lexeme)} (h : Agrees ls low outcome result)
    (h' : Agrees ls low' outcome' result) : outcome = outcome' := by
  cases h with
  | error e =>
      cases h'
      rfl
  | @done a j hlow hj =>
      generalize hresult : Except.ok (a, ls.drop j) = result at h'
      cases h' with
      | error e => cases hresult
      | @done a' j' hlow' hj' =>
          simp only [Except.ok.injEq, Prod.mk.injEq] at hresult
          obtain ⟨rfl, hdrop⟩ := hresult
          have hlength := congrArg List.length hdrop
          simp only [List.length_drop] at hlength
          obtain rfl : j = j' := by omega
          rfl

/-- What agrees with a result neither reads outside the list nor calls without descent. -/
lemma Agrees.proper {outcome : Outcome α} {result : Except GrammarError (α × List Lexeme)}
    (h : Agrees ls low outcome result) : outcome ≠ .outOfRange ∧ outcome ≠ .noDescent := by
  cases h <;> exact ⟨nofun, nofun⟩

/-- The walk from `i` on ends as the plan does on the lexemes from there on. -/
def Tracks (ls : List Lexeme) (low : Nat) (walk : Walk α) (F : Plan α) (i : Nat) : Prop :=
  Agrees ls low (walk (marks ls) i) (F (ls.drop i))

namespace Tracks

variable {walk : Walk α} {F found other : Plan α}

lemma mono {low' : Nat} (h : Tracks ls low walk F i) (hle : low' ≤ low) :
    Tracks ls low' walk F i := by
  unfold Tracks at h ⊢
  generalize walk (marks ls) i = outcome, F (ls.drop i) = result at h ⊢
  cases h with
  | done a hlow hj => exact .done a (Nat.le_trans hle hlow) hj
  | error e => exact .error e

lemma done {a : α} (hlow : low ≤ i) (hi : i ≤ ls.length) :
    Tracks ls low (pure a) (Plan.done a) i :=
  Agrees.done a hlow hi

lemma raise (issue : GrammarIssue) :
    Tracks ls low (here >>= raise issue : Walk α) (Plan.fail issue) i := by
  have hleft : (marks ls).length - 1 - i = (ls.drop i).length := by simp
  unfold Tracks
  simp only [bind, here, Cursor.raise, hleft]
  exact .error _

/-- A walk that reads the cursor goes on from there. -/
lemma here {next : Nat → Walk α} (h : Tracks ls low (next i) F i) :
    Tracks ls low (here >>= next) F i :=
  h

/-- The error at a word that was taken just before. -/
lemma refuseMember (word : Text) (hlt : i < ls.length) :
    Tracks ls low (Cursor.raise (.memberAccess word) i : Walk α) (Plan.refuseMember word)
      (i + 1) := by
  have hleft : (marks ls).length - 1 - i = (ls.drop (i + 1)).length + 1 := by
    simp only [length_marks, List.length_drop]
    omega
  unfold Tracks
  simp only [Cursor.raise, hleft]
  exact .error _

/-! ### Reading -/

lemma read {next : Option Lexeme → Walk α} (hi : i ≤ ls.length)
    (h : Tracks ls low (next (ls.drop i).head?) F i) : Tracks ls low (current >>= next) F i := by
  unfold Tracks
  simp only [bind, Cursor.current, getElem?_marks hi]
  exact h

lemma readNext {next : Option Lexeme → Walk α} (hi : i ≤ ls.length)
    (h : Tracks ls low (next (ls.drop (i + 1)).head?) F i) :
    Tracks ls low (peekNext >>= next) F i := by
  have hpeek : peekNext (marks ls) i = .done (ls.drop (i + 1)).head? i := by
    unfold peekNext
    rcases Nat.lt_or_eq_of_le hi with hlt | rfl
    · rw [getElem?_marks hlt]
    · simp [marks]
  unfold Tracks
  simp only [bind, hpeek]
  exact h

lemma current {next : Option Lexeme → Walk α} {G : Option Lexeme → Plan α} (hi : i ≤ ls.length)
    (h : Tracks ls low (next (ls.drop i).head?) (G (ls.drop i).head?) i) :
    Tracks ls low (current >>= next) (Plan.look G) i :=
  read hi h

lemma peek {x : Lexeme} {found' other' : Walk α} (hi : i ≤ ls.length)
    (hfound : (ls.drop i).head? = some x → Tracks ls low found' found i)
    (hother : (ls.drop i).head? ≠ some x → Tracks ls low other' other i) :
    Tracks ls low (Cursor.current >>= fun mark => if mark = some x then found' else other')
      (Plan.peek x found other) i := by
  refine current hi ?_
  split
  · next h => exact hfound h
  · next h => exact hother h

/-! ### Moving on -/

lemma advance {next : Unit → Walk α} (hlt : i < ls.length)
    (h : Tracks ls low (next ()) F (i + 1)) :
    Tracks ls low (advance >>= next) F.advance i := by
  unfold Tracks at h ⊢
  rw [List.drop_eq_getElem_cons hlt]
  simp only [bind, Cursor.advance, getElem?_marks (Nat.le_of_lt hlt), length_marks,
    Nat.add_sub_cancel, if_pos hlt]
  exact h

/-- The error at a mark that was taken just before. -/
lemma advance_raise (issue : GrammarIssue) (hlt : i < ls.length) :
    Tracks ls low (Cursor.advance >>= fun _ => Cursor.raise issue i : Walk α)
      (Plan.fail issue) i := by
  unfold Tracks
  simp only [bind, Cursor.advance, getElem?_marks (Nat.le_of_lt hlt)]
  exact raise issue

lemma accept_of_head? {x : Lexeme} {next : Bool → Walk α} (hhead : (ls.drop i).head? = some x)
    (h : i < ls.length → Tracks ls low (next true) F (i + 1)) :
    Tracks ls low (accept x >>= next) F.advance i := by
  have hlt := lt_of_head?_drop hhead
  unfold Cursor.accept
  rw [bind_assoc]
  refine read (Nat.le_of_lt hlt) ?_
  rw [if_pos hhead, bind_assoc]
  exact advance hlt (h hlt)

lemma accept_of_ne {x : Lexeme} {next : Bool → Walk α} (hi : i ≤ ls.length)
    (hhead : (ls.drop i).head? ≠ some x) (h : Tracks ls low (next false) F i) :
    Tracks ls low (accept x >>= next) F i := by
  unfold Cursor.accept
  rw [bind_assoc]
  refine read hi ?_
  rw [if_neg hhead]
  exact h

lemma accept {x : Lexeme} {next : Bool → Walk α} (hi : i ≤ ls.length)
    (hfound : i < ls.length → Tracks ls low (next true) found (i + 1))
    (hother : Tracks ls low (next false) other i) :
    Tracks ls low (accept x >>= next) (Plan.choice x found other) i := by
  unfold Tracks Plan.choice
  by_cases hhead : (ls.drop i).head? = some x
  · rw [Plan.peek_of_head? hhead]
    exact accept_of_head? hhead hfound
  · rw [Plan.peek_of_head?_ne hhead]
    exact accept_of_ne hi hhead hother

lemma expect_of_head? {s : Symbol} {next : Unit → Walk α}
    (hhead : (ls.drop i).head? = some (.symbol s))
    (h : i < ls.length → Tracks ls low (next ()) F (i + 1)) :
    Tracks ls low (expect s >>= next) F.advance i := by
  have hlt := lt_of_head?_drop hhead
  unfold Cursor.expect
  rw [bind_assoc]
  refine read (Nat.le_of_lt hlt) ?_
  rw [if_pos hhead]
  exact advance hlt (h hlt)

lemma expect_of_ne {s : Symbol} {next : Unit → Walk α} (hi : i ≤ ls.length)
    (hhead : (ls.drop i).head? ≠ some (.symbol s)) :
    Tracks ls low (expect s >>= next) (Plan.fail (.expectedSymbol s (ls.drop i).head?)) i := by
  unfold Cursor.expect
  rw [bind_assoc]
  refine read hi ?_
  rw [if_neg hhead, bind_assoc]
  exact raise _

lemma expect {s : Symbol} {next : Unit → Walk α} (hi : i ≤ ls.length)
    (h : i < ls.length → Tracks ls low (next ()) F (i + 1)) :
    Tracks ls low (expect s >>= next) (Plan.expecting s F) i := by
  unfold Tracks Plan.expecting Plan.choice
  by_cases hhead : (ls.drop i).head? = some (.symbol s)
  · rw [Plan.peek_of_head? hhead]
    exact expect_of_head? hhead h
  · rw [Plan.peek_of_head?_ne hhead]
    exact expect_of_ne hi hhead

lemma expectName {next : Text → Walk α} {G : Text → Plan α} (hi : i ≤ ls.length)
    (h : ∀ x, i < ls.length → Tracks ls low (next x) (G x) (i + 1)) :
    Tracks ls low (expectName >>= next) (Plan.expectingName G) i := by
  unfold Cursor.expectName
  rw [bind_assoc]
  refine current hi ?_
  rcases hhead : (ls.drop i).head? with _ | x
  · exact raise _
  · cases x with
    | name x =>
        have hlt := lt_of_head?_drop hhead
        change Tracks ls low ((Cursor.advance >>= fun _ => pure x) >>= next) _ i
        rw [bind_assoc]
        exact advance hlt (h x hlt)
    | _ => exact raise _

/-! ### One after the other -/

lemma andThen {first : Walk α} {next : α → Walk β} {F : Plan α} {G : α → Plan β} {mid : Nat}
    (hfirst : Tracks ls mid first F i)
    (hnext : ∀ a j, mid ≤ j → j ≤ ls.length → Tracks ls low (next a) (G a) j) :
    Tracks ls low (first >>= next) (F.andThen G) i := by
  unfold Tracks at hfirst ⊢
  simp only [bind, Plan.andThen]
  generalize first (marks ls) i = outcome, F (ls.drop i) = result at hfirst
  cases hfirst with
  | done a hlow hj => exact hnext a _ hlow hj
  | error e => exact .error e

end Tracks

end Cursor

end LineShell
