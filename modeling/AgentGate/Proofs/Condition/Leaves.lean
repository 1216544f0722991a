import AgentGate.Proofs.Condition
import AgentGate.Proofs.Text.Mentions

/-!
# The texts in a condition

Joining conditions opens nested ones, but keeps their texts in order. The written form has no
characters but those of the texts and of the operators between them.

- `Condition.leaves`: the texts of a tree.
- `Condition.leaves_conj`, `Condition.leaves_disj`, `Condition.leaves_andAlso`: the texts of joined
  trees.
- `Condition.mem_text`: the characters of the written form.
-/

namespace AgentGate.Condition

mutual

/-- The texts of a tree, from left to right. -/
def leaves : Condition → List String
  | .raw text => [text]
  | .not inner => inner.leaves
  | .and items => leavesOf items
  | .or items => leavesOf items

/-- The texts of several trees. -/
def leavesOf : List Condition → List String
  | [] => []
  | item :: rest => item.leaves ++ leavesOf rest

end

variable {c : Condition} {items : List Condition} {letter : Char}

theorem leavesOf_eq_flatMap (items : List Condition) : leavesOf items = items.flatMap leaves := by
  induction items with
  | nil => rfl
  | cons item rest ih => rw [leavesOf, ih, List.flatMap_cons]

@[simp] theorem leaves_raw (text : String) : (raw text).leaves = [text] := by
  rw [leaves]

@[simp] theorem leaves_not (inner : Condition) : (not inner).leaves = inner.leaves := by
  rw [leaves]

@[simp] theorem leaves_and (items : List Condition) : (and items).leaves = items.flatMap leaves := by
  rw [leaves, leavesOf_eq_flatMap]

@[simp] theorem leaves_or (items : List Condition) : (or items).leaves = items.flatMap leaves := by
  rw [leaves, leavesOf_eq_flatMap]

@[simp] theorem leaves_conj (items : List Condition) :
    (conj items).leaves = items.flatMap leaves := by
  have hparts : ∀ c : Condition, c.conjuncts.flatMap leaves = c.leaves := by
    intro c
    cases c <;> simp [conjuncts]
  have hjoined : (items.flatMap conjuncts).flatMap leaves = items.flatMap leaves := by
    rw [List.flatMap_assoc, List.flatMap_congr fun c _ => hparts c]
  rw [conj]
  split
  case h_1 single heq => rw [← hjoined, heq, List.flatMap_singleton]
  case h_2 => rw [leaves_and, hjoined]

@[simp] theorem leaves_disj (items : List Condition) :
    (disj items).leaves = items.flatMap leaves := by
  have hparts : ∀ c : Condition, c.disjuncts.flatMap leaves = c.leaves := by
    intro c
    cases c <;> simp [disjuncts]
  have hjoined : (items.flatMap disjuncts).flatMap leaves = items.flatMap leaves := by
    rw [List.flatMap_assoc, List.flatMap_congr fun c _ => hparts c]
  rw [disj]
  split
  case h_1 single heq => rw [← hjoined, heq, List.flatMap_singleton]
  case h_2 => rw [leaves_or, hjoined]

@[simp] theorem leaves_andAlso (first second : Condition) :
    (first.andAlso second).leaves = first.leaves ++ second.leaves := by
  rw [andAlso, leaves_conj, List.flatMap_cons, List.flatMap_singleton]

/-! ## The characters of the written form -/

/-- The characters of the operators. -/
def operators : List Char := ['!', '(', ')', ' ', '&', '|']

theorem mem_parenthesized {s : String} (h : letter ∈ (parenthesized s).toList) :
    letter ∈ operators ∨ letter ∈ s.toList := by
  simp only [parenthesized, String.toList_append, List.mem_append] at h
  rcases h with (h | h) | h
  · exact .inl ((by decide : "(".toList ⊆ operators) h)
  · exact .inr h
  · exact .inl ((by decide : ")".toList ⊆ operators) h)

mutual

/-- A character of the written form is that of an operator or of a text. -/
theorem mem_text {c : Condition} (h : letter ∈ c.text.toList) :
    letter ∈ operators ∨ ∃ leaf ∈ c.leaves, letter ∈ leaf.toList := by
  match c with
  | .raw text => exact .inr ⟨text, by rw [leaves_raw]; exact List.mem_cons_self, h⟩
  | .not inner =>
    rw [text, String.toList_append] at h
    rw [leaves_not]
    rcases List.mem_append.mp h with h | h
    · exact .inl ((by decide : "!".toList ⊆ operators) h)
    · split at h
      · exact mem_text h
      · rcases mem_parenthesized h with h | h
        · exact .inl h
        · exact mem_text h
  | .and items =>
    rw [text, String.toList_intercalate] at h
    rcases Text.mem_intercalate h with h | ⟨_, hitem, h⟩
    · exact .inl ((by decide : " && ".toList ⊆ operators) h)
    · obtain ⟨operand, hoperand, rfl⟩ := List.mem_map.mp hitem
      rw [leaves_and, ← leavesOf_eq_flatMap]
      exact mem_operands hoperand h
  | .or items =>
    rw [text, String.toList_intercalate] at h
    rcases Text.mem_intercalate h with h | ⟨_, hitem, h⟩
    · exact .inl ((by decide : " || ".toList ⊆ operators) h)
    · obtain ⟨operand, hoperand, rfl⟩ := List.mem_map.mp hitem
      rw [leaves_or, ← leavesOf_eq_flatMap]
      exact mem_operands hoperand h

theorem mem_operands {items : List Condition} {operand : String} (hoperand : operand ∈ operands items)
    (h : letter ∈ operand.toList) :
    letter ∈ operators ∨ ∃ leaf ∈ leavesOf items, letter ∈ leaf.toList := by
  match items with
  | [] => cases hoperand
  | item :: rest =>
    rw [leavesOf]
    have hfirst : letter ∈ item.text.toList →
        letter ∈ operators ∨ ∃ leaf ∈ item.leaves ++ leavesOf rest, letter ∈ leaf.toList :=
      fun h => (mem_text h).imp_right fun ⟨leaf, hleaf, h⟩ =>
        ⟨leaf, List.mem_append_left _ hleaf, h⟩
    rcases List.mem_cons.mp hoperand with rfl | hoperand
    · split at h
      · exact (mem_parenthesized h).elim .inl hfirst
      · exact hfirst h
    · exact (mem_operands hoperand h).imp_right fun ⟨leaf, hleaf, h⟩ =>
        ⟨leaf, List.mem_append_right _ hleaf, h⟩

end

end AgentGate.Condition
