import AgentGate.Proofs.Expression.Parts

/-!
# When expressions hold

An expression is valued in a run of its workflow. What words, strings, calls and accesses stand for
there, and how values compare, is left open; `!`, `&&` and `||` are fixed.

- `Valuation.holds`, `Valuation.holdsText`: whether an expression holds, and a text that is one.
- `Expression.holds_joinAll_and`, `Expression.holds_joinAll_or`: when joined expressions hold.
- `Expression.conjuncts`, `Expression.HasConjunct`: checks that hold whenever the whole does.
- `Expression.early?`: what stands before the last alternative.
- `andLast_implies_iff`, `andLast_equivalent_iff`: a check joined to the last alternative checks the
  whole expression just when what stands before that alternative implies it.
-/

namespace AgentGate

open Expression

/-- What operands stand for, and how values compare. -/
structure Valuation where
  Value : Type
  /-- Whether a value counts as true. -/
  truthy : Value → Bool
  ofBool : Bool → Value
  truthy_ofBool : ∀ b, truthy (ofBool b) = b
  operand : List Token → Value
  compare : Comparison → Value → Value → Bool

namespace Valuation

/-- The value of an expression. That of `&&` and `||` is the value of one side. -/
def value (v : Valuation) : Expression → v.Value
  | .operand tokens => v.operand tokens
  | .group inner => v.value inner
  | .not inner => v.ofBool (!v.truthy (v.value inner))
  | .compare how left right => v.ofBool (v.compare how (v.value left) (v.value right))
  | .and left right => if v.truthy (v.value left) then v.value right else v.value left
  | .or left right => if v.truthy (v.value left) then v.value left else v.value right

/-- Whether an expression holds. -/
def holds (v : Valuation) (e : Expression) : Bool :=
  v.truthy (v.value e)

/-- Whether a text holds. One that is not an expression does not. -/
def holdsText (v : Valuation) (text : String) : Bool :=
  match read text with
  | some e => v.holds e
  | none => false

variable (v : Valuation)

theorem holdsText_of_read {text : String} {e : Expression} (h : read text = some e) :
    v.holdsText text = v.holds e := by
  rw [holdsText, h]

@[simp] theorem holds_group (e : Expression) : v.holds (.group e) = v.holds e := rfl

@[simp] theorem holds_not (e : Expression) : v.holds (.not e) = !v.holds e :=
  v.truthy_ofBool _

@[simp] theorem holds_and (left right : Expression) :
    v.holds (.and left right) = (v.holds left && v.holds right) := by
  unfold holds
  rw [value]
  cases h : v.truthy (v.value left) <;> simp [h]

@[simp] theorem holds_or (left right : Expression) :
    v.holds (.or left right) = (v.holds left || v.holds right) := by
  unfold holds
  rw [value]
  cases h : v.truthy (v.value left) <;> simp [h]

end Valuation

namespace Expression

/-! ## Checks that guard a whole expression -/

/-- What an expression joins by `&&` outside of brackets. -/
def conjuncts : Expression → List Expression
  | and left right => left.conjuncts ++ right.conjuncts
  | e => [e]

theorem conjuncts_of_level {e : Expression} (h : 2 ≤ e.level) : e.conjuncts = [e] := by
  cases e with
  | and => exact absurd (show 2 ≤ 1 from h) (by decide)
  | operand | group | not | compare | or => rfl

/-- An expression holds just when all that it joins does. -/
theorem holds_eq_all_conjuncts (v : Valuation) (e : Expression) :
    v.holds e = e.conjuncts.all v.holds := by
  induction e with
  | and left right ihLeft ihRight =>
    rw [v.holds_and, conjuncts, List.all_append, ihLeft, ihRight]
  | operand | group | not | compare | or => exact (Bool.and_true _).symm

/-! ## Any number of joined expressions -/

section JoinAll

variable {α : Type} {shape : α → Expression} {parts : List α}

theorem holds_joinAll_and (v : Valuation) (hne : parts ≠ []) :
    v.holds (joinAll and (parts.map shape)) = parts.all fun part => v.holds (shape part) := by
  refine joinAll_induction
    (P := fun parts e => v.holds e = parts.all fun part => v.holds (shape part))
    (fun part => (Bool.and_true _).symm) (fun before e last _ ih => ?_) hne
  rw [v.holds_and, ih, List.all_append, List.all_cons, List.all_nil, Bool.and_true]

theorem holds_joinAll_or (v : Valuation) (hne : parts ≠ []) :
    v.holds (joinAll or (parts.map shape)) = parts.any fun part => v.holds (shape part) := by
  refine joinAll_induction
    (P := fun parts e => v.holds e = parts.any fun part => v.holds (shape part))
    (fun part => (Bool.or_false _).symm) (fun before e last _ ih => ?_) hne
  rw [v.holds_or, ih, List.any_append, List.any_cons, List.any_nil, Bool.or_false]

/-- The conjuncts of joined expressions are these expressions, in their order. -/
theorem conjuncts_joinAll (hne : parts ≠ []) (h : ∀ part ∈ parts, 2 ≤ (shape part).level) :
    (joinAll and (parts.map shape)).conjuncts = parts.map shape := by
  refine joinAll_induction
    (P := fun parts e => (∀ part ∈ parts, 2 ≤ (shape part).level) → e.conjuncts = parts.map shape)
    (fun part h => ?one) (fun before e last _ ih h => ?more) hne h
  case one => exact conjuncts_of_level (h part (List.mem_singleton_self part))
  case more =>
    obtain ⟨hbefore, hlast⟩ := List.forall_mem_append.mp h
    rw [conjuncts, ih hbefore, conjuncts_of_level (hlast last (List.mem_singleton_self last)),
      List.map_append, List.map_singleton]

end JoinAll

/-! ## Checks that a text joins -/

/-- A text joins another one to the rest of it by `&&`, outside of brackets. -/
def HasConjunct (text check : String) : Prop :=
  ∃ e gate, read text = some e ∧ read check = some gate ∧ gate ∈ e.conjuncts

/-- A text that holds has conjuncts that do. -/
theorem HasConjunct.holdsText {text check : String} (h : HasConjunct text check) {v : Valuation}
    (htext : v.holdsText text = true) : v.holdsText check = true := by
  obtain ⟨e, gate, hread, hcheck, hmem⟩ := h
  rw [v.holdsText_of_read hread, holds_eq_all_conjuncts] at htext
  rw [v.holdsText_of_read hcheck]
  exact List.all_eq_true.mp htext gate hmem

/-! ## A check on the last alternative -/

/-- What stands before the last `||` outside of brackets. -/
def early? : Expression → Option Expression
  | or left _ => some left
  | operand _ | group _ | not _ | compare _ _ _ | and _ _ => none

variable {e g : Expression}

theorem early?_of_level (h : 1 ≤ e.level) : e.early? = none := by
  cases e with
  | or => cases h
  | operand | group | not | compare | and => rfl

theorem holds_of_early? {early : Expression} (h : early ∈ e.early?) {v : Valuation}
    (hearly : v.holds early = true) : v.holds e = true := by
  cases e with
  | or left right =>
    cases h
    rw [v.holds_or, hearly, Bool.true_or]
  | operand | group | not | compare | and => cases h

/-- A check on the last alternative passes over the other ones. -/
theorem holds_andLast_iff (v : Valuation) (e g : Expression) : v.holds (e.andLast g) = true
    ↔ (∃ early ∈ e.early?, v.holds early = true) ∨ v.holds e = true ∧ v.holds g = true := by
  cases e with
  | or left right =>
    rw [andLast, v.holds_or, v.holds_or, v.holds_and]
    simp only [early?, Option.mem_some_iff, exists_eq_left', Bool.or_eq_true, Bool.and_eq_true]
    constructor
    · rintro (hleft | ⟨hright, hg⟩)
      · exact .inl hleft
      · exact .inr ⟨.inr hright, hg⟩
    · rintro (hleft | ⟨hleft | hright, hg⟩)
      · exact .inl hleft
      · exact .inl hleft
      · exact .inr ⟨hright, hg⟩
  | operand | group | not | compare | and =>
    show v.holds (.and _ g) = true ↔ _
    rw [v.holds_and, Bool.and_eq_true]
    exact (or_iff_right fun ⟨_, hearly, _⟩ => nomatch hearly).symm

/-- A check on the last alternative is implied just when the other alternatives imply it. -/
theorem andLast_implies_iff : (∀ v : Valuation, v.holds (e.andLast g) = true → v.holds g = true)
    ↔ ∀ early ∈ e.early?, ∀ v : Valuation, v.holds early = true → v.holds g = true := by
  simp only [holds_andLast_iff]
  constructor
  · exact fun h early hearly v hholds => h v (.inl ⟨early, hearly, hholds⟩)
  · rintro h v (⟨early, hearly, hholds⟩ | ⟨-, hg⟩)
    · exact h early hearly v hholds
    · exact hg

/-- A check on the last alternative is one on the whole expression just when the other alternatives
imply it. -/
theorem andLast_equivalent_iff :
    (∀ v : Valuation, v.holds (e.andLast g) = true ↔ v.holds e = true ∧ v.holds g = true)
      ↔ ∀ early ∈ e.early?, ∀ v : Valuation, v.holds early = true → v.holds g = true := by
  rw [← andLast_implies_iff]
  constructor
  · exact fun h v hlast => ((h v).mp hlast).2
  · intro h v
    refine ⟨fun hlast => ⟨?_, h v hlast⟩, fun hboth => (holds_andLast_iff v e g).mpr (.inr hboth)⟩
    rcases (holds_andLast_iff v e g).mp hlast with ⟨early, hearly, hholds⟩ | ⟨he, -⟩
    · exact holds_of_early? hearly hholds
    · exact he

end Expression

end AgentGate
