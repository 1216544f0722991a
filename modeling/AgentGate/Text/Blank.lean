/-!
# Blank characters

The characters that Unicode gives the property `White_Space`, and what is done with them: cutting
them off both ends of a text, asking whether a text holds nothing else, and taking its first word.

- `isBlank`: the property itself, as ranges of code points.
- `trim`: a text without the blanks at its two ends.
- `trim_eq_empty_of_allBlank`: a text of blanks alone is cut down to the empty text.
-/

namespace AgentGate.Text

/-- The characters with the Unicode property `White_Space`. -/
def isBlank (c : Char) : Bool :=
  let n := c.toNat
  (0x09 ≤ n && n ≤ 0x0D) || n == 0x20 || n == 0x85 || n == 0xA0 || n == 0x1680
    || (0x2000 ≤ n && n ≤ 0x200A) || n == 0x2028 || n == 0x2029 || n == 0x202F || n == 0x205F
    || n == 0x3000

/-- The characters without the blanks at both ends. -/
def trimChars (cs : List Char) : List Char :=
  ((cs.dropWhile isBlank).reverse.dropWhile isBlank).reverse

/-- The text without the blanks at both ends. -/
def trim (s : String) : String :=
  String.ofList (trimChars s.toList)

/-- The text holds no character other than blanks. -/
def allBlank (s : String) : Bool :=
  s.toList.all isBlank

/-- The first run of characters that are not blank, empty when there is none. -/
def firstWord (s : String) : String :=
  String.ofList ((s.toList.dropWhile isBlank).takeWhile fun c => !isBlank c)

/-- The pieces of a text between the occurrences of one character. -/
def pieces (separator : Char) (s : String) : List String :=
  (s.toList.splitOn separator).map String.ofList

/-! ## What trimming leaves -/

/-- A text of blanks alone is cut down to nothing. -/
theorem trim_eq_empty_of_allBlank {s : String} (h : allBlank s = true) : trim s = "" := by
  have gone : s.toList.dropWhile isBlank = [] := by
    have none_left : ∀ cs : List Char, cs.all isBlank = true → cs.dropWhile isBlank = [] := by
      intro cs
      induction cs with
      | nil => intro _; rfl
      | cons c rest ih =>
        intro all
        have ⟨first, others⟩ : isBlank c = true ∧ rest.all isBlank = true := by
          simpa using all
        rw [List.dropWhile_cons_of_pos first, ih others]
    exact none_left s.toList h
  simp [trim, trimChars, gone]

end AgentGate.Text
