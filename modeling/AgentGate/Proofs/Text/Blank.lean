import AgentGate.Text.Blank
import Mathlib

/-!
# Blanks at the ends of a text

What is left when the blanks at both ends of a text are cut off.

- `Text.trim_trim`: trimming twice is trimming once.
- `Text.trim_eq_empty_iff`: what is blank altogether.
- `Text.trim_surround`, `Text.trim_eq_self`: blanks around a text do not count, and a text without
  blanks stays as it is.
- `Text.isBlank_of_isAlphanum`: letters and digits are not blank.
-/

namespace AgentGate.Text

variable {s before after : String}

theorem trimChars_trimChars (cs : List Char) : trimChars (trimChars cs) = trimChars cs := by
  change ((((cs.dropWhile isBlank).rdropWhile isBlank).dropWhile isBlank).rdropWhile isBlank)
    = (cs.dropWhile isBlank).rdropWhile isBlank
  -- What is left starts as the text without its first blanks does.
  have hleft : ((cs.dropWhile isBlank).rdropWhile isBlank).dropWhile isBlank
      = (cs.dropWhile isBlank).rdropWhile isBlank := by
    rw [List.dropWhile_eq_self_iff]
    intro hlength
    have hstart := List.rdropWhile_prefix isBlank (l := cs.dropWhile isBlank)
    rw [hstart.getElem hlength]
    exact List.dropWhile_eq_self_iff.mp (List.dropWhile_idempotent isBlank cs) _
  rw [hleft, List.rdropWhile_idempotent]

theorem trim_trim (s : String) : trim (trim s) = trim s := by
  rw [trim, trim, String.toList_ofList, trimChars_trimChars]

theorem trim_eq_empty_iff : trim s = "" ↔ allBlank s = true := by
  refine ⟨fun h => ?_, trim_eq_empty_of_allBlank⟩
  have hnone : (s.toList.dropWhile isBlank).rdropWhile isBlank = [] :=
    String.ofList_eq_empty_iff.mp h
  rw [List.rdropWhile_eq_nil_iff, ← List.dropWhile_eq_nil_iff, List.dropWhile_idempotent,
    List.dropWhile_eq_nil_iff] at hnone
  exact List.all_eq_true.mpr hnone

/-- Blanks around a text do not count. -/
theorem trim_surround (hbefore : allBlank before = true) (hafter : allBlank after = true)
    (text : String) : trim (before ++ text ++ after) = trim text := by
  have hfront := List.all_eq_true.mp hbefore
  have hback : ∀ c ∈ after.toList.reverse, isBlank c = true := fun c hc =>
    List.all_eq_true.mp hafter c (List.mem_reverse.mp hc)
  rw [trim, trim, String.toList_append, String.toList_append, List.append_assoc, trimChars,
    List.dropWhile_append_of_pos hfront, List.dropWhile_append, trimChars]
  congr 2
  split
  case isTrue hempty =>
    -- The text is blank itself, so that nothing is left of it or of what follows.
    have hnone : after.toList.dropWhile isBlank = [] :=
      List.dropWhile_eq_nil_iff.mpr (List.all_eq_true.mp hafter)
    rw [List.isEmpty_iff.mp hempty, hnone]
  case isFalse => rw [List.reverse_append, List.dropWhile_append_of_pos hback]

theorem dropWhile_isBlank_eq_self {cs : List Char} (h : ∀ c ∈ cs, isBlank c = false) :
    cs.dropWhile isBlank = cs := by
  cases cs with
  | nil => rfl
  | cons c rest =>
    exact List.dropWhile_cons_of_neg (Bool.eq_false_iff.mp (h c List.mem_cons_self))

/-- A text without blanks stays as it is. -/
theorem trim_eq_self (h : ∀ c ∈ s.toList, isBlank c = false) : trim s = s := by
  have hreverse : ∀ c ∈ s.toList.reverse, isBlank c = false := fun c hc =>
    h c (List.mem_reverse.mp hc)
  rw [trim, trimChars, dropWhile_isBlank_eq_self h, dropWhile_isBlank_eq_self hreverse,
    List.reverse_reverse, String.ofList_toList]

/-- Letters and digits are not blank. -/
theorem isBlank_of_isAlphanum {c : Char} (h : c.isAlphanum = true) : isBlank c = false := by
  have hrange : 48 ≤ c.toNat ∧ c.toNat ≤ 122 := by
    simp only [Char.isAlphanum, Char.isAlpha, Char.isUpper, Char.isLower, Char.isDigit,
      Bool.or_eq_true, Bool.and_eq_true, decide_eq_true_eq, ge_iff_le,
      UInt32.le_iff_toNat_le] at h
    change (((65 ≤ c.toNat ∧ c.toNat ≤ 90) ∨ (97 ≤ c.toNat ∧ c.toNat ≤ 122))
      ∨ (48 ≤ c.toNat ∧ c.toNat ≤ 57)) at h
    omega
  simp only [isBlank, Bool.or_eq_false_iff, Bool.and_eq_false_iff, decide_eq_false_iff_not,
    beq_eq_false_iff_ne]
  omega

theorem isBlank_of_isDigit {c : Char} (h : c.isDigit = true) : isBlank c = false :=
  isBlank_of_isAlphanum (by rw [Char.isAlphanum, h, Bool.or_true])

end AgentGate.Text
