import AgentGate.Table

/-!
# References between jobs

A text refers to a job by `needs.`, the job's name and a dot. References are found from left to
right and do not overlap: the search goes on behind the last dot of a reference, and a reference
inside a string or a comment counts like any other.

- `Reference.leading?`: the reference at the start of a text.
- `Reference.names`: the names referred to in a text.
- `Reference.jobs`: the declared jobs that some texts refer to.
-/

namespace AgentGate.Reference

/-- The characters that a referred name may start with. -/
def isNameStart (c : Char) : Bool :=
  c.isAlpha || c == '_'

/-- The characters that a referred name may go on with. -/
def isNameChar (c : Char) : Bool :=
  c.isAlphanum || c == '_' || c == '-'

/-- The name that the text starts by referring to, and what follows the reference. -/
def leading? (text : List Char) : Option (List Char × List Char) :=
  match text with
  | 'n' :: 'e' :: 'e' :: 'd' :: 's' :: '.' :: first :: rest =>
    if isNameStart first then
      match rest.dropWhile isNameChar with
      | '.' :: after => some (first :: rest.takeWhile isNameChar, after)
      | _ => none
    else none
  | _ => none

/-- What follows a leading reference is shorter than the text. -/
theorem length_lt_of_leading? {text name after : List Char}
    (h : leading? text = some (name, after)) : after.length < text.length := by
  unfold leading? at h
  split at h
  · rename_i first rest
    split at h
    · split at h
      · rename_i dropped eq
        have bound := (List.dropWhile_sublist isNameChar (l := rest)).length_le
        rw [eq] at bound
        simp only [Option.some.injEq, Prod.mk.injEq] at h
        obtain ⟨_, rfl⟩ := h
        simp only [List.length_cons] at bound ⊢
        omega
      · simp at h
    · simp at h
  · simp at h

/-- The names that a text refers to, from left to right. -/
def names (text : List Char) : List (List Char) :=
  match _h : leading? text with
  | some (name, after) => name :: names after
  | none =>
    match text with
    | [] => []
    | _ :: rest => names rest
termination_by text.length
decreasing_by
  · exact length_lt_of_leading? _h
  · simp

/-- The jobs of `declared`, other than `self`, that some text refers to, in the order of
`declared`. -/
def jobs (texts : List String) (declared : List String) (self : String) : List String :=
  let found := texts.flatMap fun text => (names text.toList).map String.ofList
  declared.filter fun name => name ≠ self && found.contains name

end AgentGate.Reference
