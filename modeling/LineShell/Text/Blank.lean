import LineShell.Text.Range

/-!
# Blank space at the ends of a text

`Text.trim` removes from both ends the code points that the Unicode standard counts as white
space, together with the four information separators `U+001C` to `U+001F`. Zero-width characters
such as `U+200B` and `U+FEFF` are not blank.
-/

namespace LineShell

/-- Code points removed from the ends of a text. -/
def blankTable : RangeTable :=
  [(0x9, 0xD), (0x1C, 0x20), (0x85, 0x85), (0xA0, 0xA0), (0x1680, 0x1680), (0x2000, 0x200A),
   (0x2028, 0x2029), (0x202F, 0x202F), (0x205F, 0x205F), (0x3000, 0x3000)]

/-- Whether the code point is blank space. -/
def CodePoint.isBlank (c : CodePoint) : Bool :=
  blankTable.holds c

example : blankTable.sorted = true := by decide

namespace Text

/-- The text without the blank space at its end. -/
def trimEnd : Text → Text
  | [] => []
  | c :: rest =>
    match trimEnd rest with
    | [] => if c.isBlank then [] else [c]
    | kept => c :: kept

/-- The text without the blank space at both ends. -/
def trim (t : Text) : Text :=
  trimEnd (t.dropWhile CodePoint.isBlank)

/-- What `trimEnd` removes is blank. -/
theorem exists_eq_trimEnd_append (t : Text) :
    ∃ blanks : Text, (∀ c ∈ blanks, c.isBlank = true) ∧ t = t.trimEnd ++ blanks := by
  induction t with
  | nil => exact ⟨[], by simp, rfl⟩
  | cons c rest ih =>
    obtain ⟨blanks, hblank, hrest⟩ := ih
    rw [trimEnd]
    cases hkept : trimEnd rest with
    | nil =>
      rw [hkept, List.nil_append] at hrest
      subst hrest
      by_cases hc : c.isBlank = true
      · exact ⟨c :: rest, by simpa [hc] using hblank, by simp [hc]⟩
      · exact ⟨rest, hblank, by simp [hc]⟩
    | cons d kept =>
      rw [hkept] at hrest
      exact ⟨blanks, hblank, by simp [hrest]⟩

end Text

end LineShell
