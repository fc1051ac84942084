import LineShell.Proofs.Scan.Append

/-!
# Scanning is compositional

What stands in front of a text only moves the positions of its scan (`after_add`): the scanner
remembers nothing but how far it has come. And spacing goes on with no lexeme, so a text in front of
it is scanned as if it ended there (`Scan.after_append`). Together they say what comes of two texts
with spacing between them, whatever comes of the second one (`ofSource_append_spacing`). The first
text has to be scanned to its end; a comment in it would take the second text too.
-/

namespace LineShell

/-! ## Moved positions -/

/-- The token as it looks when `n` more code points stand before its source. -/
def Token.shift (n : Nat) (token : Token) : Token :=
  ⟨token.lexeme, n + token.pos⟩

namespace Scan

/-- The scan as it looks when `n` more code points stand before its source. -/
def shift (n : Nat) (scan : Scan) : Scan :=
  ⟨scan.tokens.map (Token.shift n), scan.comment⟩

/-- What comes of a scan when `n` more code points stand before the text: the tokens are moved, and
so is an error. A fault has no position. -/
def moved (n : Nat) : Except (Failure LexicalError) Scan → Except (Failure LexicalError) Scan
  | .ok scan => .ok (scan.shift n)
  | .error failure => .error (failure.map (LexicalError.shift n))

/-- An error is moved twice by moving it the whole way. -/
lemma map_shift_add (n pos : Nat) (failure : Failure LexicalError) :
    failure.map (LexicalError.shift (n + pos))
      = (failure.map (LexicalError.shift pos)).map (LexicalError.shift n) := by
  cases failure with
  | error e => simp [Failure.map, LexicalError.shift, Nat.add_assoc]
  | fault f => rfl

/-- A scan that starts `n` code points later gives the same, moved by `n`. -/
lemma after_add (n pos : Nat) (t : Text) : after (n + pos) t = moved n (after pos t) := by
  fun_induction after pos t with
  | case1 pos =>
      rw [after]
      rfl
  | case2 pos c rest hc ih => rw [after, if_pos hc, Nat.add_assoc, ih]
  | case3 pos c rest hc hcomment =>
      rw [after, if_neg hc, if_pos hcomment]
      rfl
  | case4 pos c rest hc hcomment failure hread =>
      rw [after, if_neg hc, if_neg hcomment]
      simp only [hread, moved, map_shift_add]
  | case5 pos c rest hc hcomment reading hread failure hinner ih =>
      rw [after, if_neg hc, if_neg hcomment]
      simp only [hread, Nat.add_assoc, ih, hinner, moved]
  | case6 pos c rest hc hcomment reading hread inner hinner ih =>
      rw [after, if_neg hc, if_neg hcomment]
      simp only [hread, Nat.add_assoc, ih, hinner, moved]
      rfl

/-! ## Two texts with spacing between them -/

open Text Lexeme

/-- Spacing goes on with no lexeme. -/
lemma detached_of_isSpacing {c : CodePoint} (hc : c.isSpacing = true) (t : Text) :
    Detached (c :: t) := by
  simp only [CodePoint.isSpacing, Bool.or_eq_true, decide_eq_true_eq] at hc
  rcases hc with (((rfl | rfl) | rfl) | rfl) | rfl
  all_goals exact detached_cons (by decide) (by decide) t

/-- The scan goes on behind the spacing as it does for the second text alone, moved behind the
first one. -/
lemma ofSource_append_cons {a b : Text} {c : CodePoint} {front : Scan}
    (ha : ofSource a = .ok front) (hcomment : front.comment = []) (hc : c.isSpacing = true) :
    ofSource (a ++ c :: b) = (moved (a.length + 1) (ofSource b)).map (prepend front.tokens) := by
  obtain ⟨tokens, comment⟩ := front
  obtain rfl : comment = [] := hcomment
  have hfront : ofSource (a ++ c :: b) = (after (0 + a.length) (c :: b)).map (prepend tokens) :=
    after_append ha (detached_of_isSpacing hc b)
  rw [hfront, after, if_pos hc, Nat.zero_add]
  exact congrArg _ (after_add (a.length + 1) 0 b)

/-- The lexemes of a source in order, each with its position, and at last the end of the source,
which is no lexeme. -/
def listing (source : Text) (scan : Scan) : List (Option Lexeme × Nat) :=
  scan.tokens.map (fun token => (some token.lexeme, token.pos)) ++ [(none, source.length)]

/-- The listing of the whole: that of the first text without its end, and that of the second one
moved behind the spacing. -/
lemma listing_append_cons (a b : Text) (c : CodePoint) (front back : Scan) :
    listing (a ++ c :: b) (prepend front.tokens (back.shift (a.length + 1)))
      = (listing a front).dropLast
        ++ (listing b back).map (fun entry => (entry.1, entry.2 + (a.length + 1))) := by
  have hlength : (a ++ c :: b).length = b.length + (a.length + 1) := by
    rw [List.length_append, List.length_cons]
    omega
  simp [listing, prepend, shift, Token.shift, hlength, Nat.add_comm]

end Scan

/-- **Scanning is compositional.** Let a text be scanned to its end without a comment, and let
spacing and a second text follow. If the second text is scanned, the whole is, with the lexemes of
both and the positions of the second moved by the length of what stands before it. If the second
text fails with an error, the whole fails with the same one, moved likewise, and if it ends in a
fault, so does the whole. -/
theorem ofSource_append_spacing (a b : Text) (c : CodePoint) (front : Scan)
    (ha : Scan.ofSource a = .ok front) (hcomment : front.comment = []) (hc : c.isSpacing = true) :
    (∀ back, Scan.ofSource b = .ok back →
      ∃ whole, Scan.ofSource (a ++ c :: b) = .ok whole ∧
        Scan.listing (a ++ c :: b) whole
          = (Scan.listing a front).dropLast
            ++ (Scan.listing b back).map (fun entry => (entry.1, entry.2 + (a.length + 1)))) ∧
    (∀ e, Scan.ofSource b = .error (.error e) →
      ∃ e', Scan.ofSource (a ++ c :: b) = .error (.error e') ∧
        e'.issue.message = e.issue.message ∧ e'.pos = e.pos + (a.length + 1)) ∧
    (∀ f, Scan.ofSource b = .error (.fault f) →
      Scan.ofSource (a ++ c :: b) = .error (.fault f)) := by
  have hwhole := Scan.ofSource_append_cons (b := b) ha hcomment hc
  refine ⟨?_, ?_, ?_⟩
  · intro back hb
    rw [hb] at hwhole
    exact ⟨_, hwhole, Scan.listing_append_cons a b c front back⟩
  · intro e hb
    rw [hb] at hwhole
    exact ⟨e.shift (a.length + 1), hwhole, rfl, Nat.add_comm _ _⟩
  · intro f hb
    rw [hb] at hwhole
    exact hwhole

/-- A number that an exponent would go on with, a tab, and behind it a comment, a stray backslash or
a digit of another script. -/
theorem ofSource_append_spacing_exponent :
    Scan.ofSource "1e" = .ok ⟨[⟨.literal ⟨.int, "1"⟩, 0⟩, ⟨.name "e", 1⟩], []⟩ ∧
      (∃ whole, Scan.ofSource ("1e" ++ (('\t' : Char) : CodePoint) :: "5 //") = .ok whole ∧
        Scan.listing ("1e" ++ (('\t' : Char) : CodePoint) :: "5 //") whole
          = [(some (.literal ⟨.int, "1"⟩), 0), (some (.name "e"), 1),
              (some (.literal ⟨.int, "5"⟩), 3), (none, 7)]) ∧
      (∃ e, Scan.ofSource ("1e" ++ (('\t' : Char) : CodePoint) :: "a\\") = .error (.error e) ∧
        e.pos = 4) ∧
      Scan.ofSource ("1e" ++ (('\t' : Char) : CodePoint) :: "²") = .error (.fault .strayDigit) := by
  have hfront : Scan.ofSource "1e" = .ok ⟨[⟨.literal ⟨.int, "1"⟩, 0⟩, ⟨.name "e", 1⟩], []⟩ := by
    decide +kernel
  have hback : Scan.ofSource "5 //" = .ok ⟨[⟨.literal ⟨.int, "5"⟩, 0⟩], "//"⟩ := by decide +kernel
  have herror : Scan.ofSource "a\\" = .error (.error ⟨.unexpected (('\\' : Char)), 1⟩) := by
    decide +kernel
  have hfault : Scan.ofSource "²" = .error (.fault .strayDigit) := by decide +kernel
  refine ⟨hfront, ?_, ?_, ?_⟩
  · exact (ofSource_append_spacing "1e" "5 //" ('\t' : Char) _ hfront rfl (by decide)).1 _ hback
  · obtain ⟨e, he, -, hpos⟩ :=
      (ofSource_append_spacing "1e" "a\\" ('\t' : Char) _ hfront rfl (by decide)).2.1 _ herror
    exact ⟨e, he, hpos⟩
  · exact (ofSource_append_spacing "1e" "²" ('\t' : Char) _ hfront rfl (by decide)).2.2 _ hfault

end LineShell
