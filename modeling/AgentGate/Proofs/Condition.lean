import AgentGate.Condition
import AgentGate.Proofs.Expression.Value

/-!
# Written conditions mean what they say

A condition is a tree over texts; its written form is one text. When the texts are expressions that
bind tightly enough, the written form is an expression that holds in a run of the workflow just when
the tree says so about the texts.

- `Condition.holds`: what a tree says, given what its texts say.
- `Condition.holds_conj`, `Condition.holds_disj`, `Condition.holds_andAlso`: opening nested
  conditions does not change what they say.
- `Condition.Readable`: the conditions whose texts bind tightly enough.
- `Condition.expression`: the expression of a tree, from those of its texts.
- `Condition.Readable.read_text`: the written form is read as the expression of the tree.
- `Condition.Readable.holds_expression`: that expression says what the tree says.
- `Condition.Readable.hasConjunct`: what a tree joins is a conjunct of the written form.
-/

namespace AgentGate

open Expression

namespace Condition

/-! ## What a tree says -/

mutual

/-- Whether a condition holds, given which texts do. -/
def holds (leaf : String → Bool) : Condition → Bool
  | .raw text => leaf text
  | .not inner => !holds leaf inner
  | .and items => allHold leaf items
  | .or items => anyHolds leaf items

/-- Whether all conditions hold. -/
def allHold (leaf : String → Bool) : List Condition → Bool
  | [] => true
  | item :: rest => holds leaf item && allHold leaf rest

/-- Whether one of the conditions holds. -/
def anyHolds (leaf : String → Bool) : List Condition → Bool
  | [] => false
  | item :: rest => holds leaf item || anyHolds leaf rest

end

variable {leaf : String → Bool} {c : Condition} {items : List Condition}

@[simp] theorem holds_raw (text : String) : (raw text).holds leaf = leaf text := by
  rw [holds]

@[simp] theorem holds_not (inner : Condition) : (not inner).holds leaf = !inner.holds leaf := by
  rw [holds]

@[simp] theorem holds_and (items : List Condition) :
    (and items).holds leaf = items.all (holds leaf) := by
  rw [holds]
  induction items with
  | nil => rfl
  | cons item rest ih => rw [allHold, ih, List.all_cons]

@[simp] theorem holds_or (items : List Condition) :
    (or items).holds leaf = items.any (holds leaf) := by
  rw [holds]
  induction items with
  | nil => rfl
  | cons item rest ih => rw [anyHolds, ih, List.any_cons]

theorem holds_conj (items : List Condition) :
    (conj items).holds leaf = items.all (holds leaf) := by
  have hconjuncts : ∀ c : Condition, c.conjuncts.all (holds leaf) = c.holds leaf := by
    intro c
    cases c with
    | and items => exact (holds_and items).symm
    | raw | not | or => exact Bool.and_true _
  -- Opening a conjunction joins its items to those around it.
  have hall : (items.flatMap conjuncts).all (holds leaf) = items.all (holds leaf) := by
    rw [List.all_flatMap]
    exact congrArg items.all (funext hconjuncts)
  rw [← hall, conj]
  split
  case h_1 single heq => rw [heq, List.all_cons, List.all_nil, Bool.and_true]
  case h_2 joined hjoined => rw [holds_and]

theorem holds_disj (items : List Condition) :
    (disj items).holds leaf = items.any (holds leaf) := by
  have hdisjuncts : ∀ c : Condition, c.disjuncts.any (holds leaf) = c.holds leaf := by
    intro c
    cases c with
    | or items => exact (holds_or items).symm
    | raw | not | and => exact Bool.or_false _
  have hany : (items.flatMap disjuncts).any (holds leaf) = items.any (holds leaf) := by
    rw [List.any_flatMap]
    exact congrArg items.any (funext hdisjuncts)
  rw [← hany, disj]
  split
  case h_1 single heq => rw [heq, List.any_cons, List.any_nil, Bool.or_false]
  case h_2 joined hjoined => rw [holds_or]

theorem holds_andAlso (first second : Condition) :
    (first.andAlso second).holds leaf = (first.holds leaf && second.holds leaf) := by
  rw [andAlso, holds_conj, List.all_cons, List.all_cons, List.all_nil, Bool.and_true]

/-! ## What the written form says -/

/-- How tightly the outermost operator of the written form binds, at least. A text without a space
stands behind `!` as it is. -/
def level : Condition → Nat
  | .raw text => if text.toList.contains ' ' then 2 else 3
  | .not _ => 3
  | .and _ => 1
  | .or _ => 0

theorem two_le_level_raw (text : String) : 2 ≤ (raw text).level := by
  rw [level]
  split <;> decide

theorem level_raw_le (text : String) : (raw text).level ≤ 3 := by
  rw [level]
  split <;> decide

theorem three_le_level_of_isPlain (h : c.isPlain = true) : 3 ≤ c.level := by
  cases c with
  | raw text =>
    rw [isPlain, Bool.not_eq_true'] at h
    have hlevel : (raw text).level = 3 := by
      rw [level, h, if_neg Bool.false_ne_true]
    exact Nat.le_of_eq hlevel.symm
  | not => cases h
  | and => cases h
  | or => cases h

/-- Conditions with something in them, over expressions that bind tightly enough. -/
inductive Readable : Condition → Prop where
  | raw {text : String} {e : Expression} : read text = some e → (raw text).level ≤ e.level →
      Readable (raw text)
  | not {inner : Condition} : Readable inner → Readable (not inner)
  | and {items : List Condition} : items ≠ [] → (∀ item ∈ items, Readable item) →
      Readable (and items)
  | or {items : List Condition} : items ≠ [] → (∀ item ∈ items, Readable item) →
      Readable (or items)

/-- The written form of a condition inside a joined one. -/
def operand (item : Condition) : String :=
  if item.isJoined then parenthesized item.text else item.text

theorem operands_eq_map (items : List Condition) : operands items = items.map operand := by
  induction items with
  | nil => rw [operands, List.map_nil]
  | cons item rest ih => rw [operands, ih, List.map_cons, operand]

mutual

/-- The expression of a tree, from those of its texts, with parentheses where the written form has
them. -/
def expression (atom : String → Expression) : Condition → Expression
  | .raw text => atom text
  | .not inner =>
    .not (if inner.isPlain then inner.expression atom else .group (inner.expression atom))
  | .and items => joinAll .and (operandExpressions atom items)
  | .or items => joinAll .or (operandExpressions atom items)

/-- The expressions of joined conditions, in parentheses where they are joined themselves. -/
def operandExpressions (atom : String → Expression) : List Condition → List Expression
  | [] => []
  | item :: rest =>
    (if item.isJoined then .group (item.expression atom) else item.expression atom)
      :: operandExpressions atom rest

end

/-- The expression that a text is, if it is one. -/
def atomOf (text : String) : Expression :=
  (read text).getD (.operand [])

theorem atomOf_of_read {text : String} {e : Expression} (h : read text = some e) :
    atomOf text = e := by
  rw [atomOf, h, Option.getD_some]

variable {atom : String → Expression} {item : Condition}

/-- The expression of a condition inside a joined one. -/
def operandExpression (atom : String → Expression) (item : Condition) : Expression :=
  if item.isJoined then .group (item.expression atom) else item.expression atom

theorem operandExpressions_eq_map (items : List Condition) :
    operandExpressions atom items = items.map (operandExpression atom) := by
  induction items with
  | nil => rw [operandExpressions, List.map_nil]
  | cons item rest ih => rw [operandExpressions, ih, List.map_cons, operandExpression]

@[simp] theorem expression_raw (text : String) : (raw text).expression atom = atom text := by
  rw [expression]

theorem expression_not (inner : Condition) : (not inner).expression atom
    = .not (if inner.isPlain then inner.expression atom else .group (inner.expression atom)) := by
  rw [expression]

theorem expression_and (items : List Condition) :
    (and items).expression atom = joinAll .and (items.map (operandExpression atom)) := by
  rw [expression, operandExpressions_eq_map]

theorem expression_or (items : List Condition) :
    (or items).expression atom = joinAll .or (items.map (operandExpression atom)) := by
  rw [expression, operandExpressions_eq_map]

/-- Inside a joined condition, everything binds more tightly than `&&`. -/
theorem read_operand (hread : read item.text = some (item.expression atom))
    (hlevel : item.level ≤ (item.expression atom).level) :
    read (operand item) = some (operandExpression atom item)
      ∧ 2 ≤ (operandExpression atom item).level := by
  rw [operand, operandExpression]
  cases item with
  | and | or => exact ⟨read_group hread, Nat.le_add_left 2 2⟩
  | not => exact ⟨hread, Nat.le_of_succ_le hlevel⟩
  | raw text => exact ⟨hread, Nat.le_trans (two_le_level_raw text) hlevel⟩

/-- **The written form is read as the tree that it was written from**, with what its texts are read
as in their places: no operator of a text or a part reaches across another one. -/
theorem Readable.read_text (h : c.Readable) :
    read c.text = some (c.expression atomOf) ∧ c.level ≤ (c.expression atomOf).level := by
  induction h with
  | @raw text e hread hlevel =>
    rw [Condition.text, expression_raw, atomOf_of_read hread]
    exact ⟨hread, hlevel⟩
  | @not inner _ ih =>
    rw [Condition.text, expression_not]
    refine ⟨?_, Nat.le_refl 3⟩
    cases hplain : inner.isPlain with
    | false => exact read_not (read_group ih.1) (Nat.le_succ 3)
    | true =>
      -- A text without a space stands behind `!` without parentheses.
      exact read_not ih.1 (Nat.le_trans (three_le_level_of_isPlain hplain) ih.2)
  | @and items hne _ ih =>
    rw [Condition.text, operands_eq_map, expression_and]
    exact read_intercalate_and hne fun item hitem =>
      read_operand (ih item hitem).1 (ih item hitem).2
  | @or items hne _ ih =>
    rw [Condition.text, operands_eq_map, expression_or]
    exact ⟨read_intercalate_or hne fun item hitem =>
      read_operand (ih item hitem).1 (ih item hitem).2, Nat.zero_le _⟩

/-- Whatever stands in the places of the texts, the expression of a tree says what the tree says
about it. -/
theorem Readable.holds_expression {v : Valuation} (h : c.Readable)
    (hleaf : ∀ text e, read text = some e → v.holds (atom text) = leaf text) :
    v.holds (c.expression atom) = c.holds leaf := by
  have hoperand : ∀ item : Condition,
      v.holds (operandExpression atom item) = v.holds (item.expression atom) := by
    intro item
    rw [operandExpression]
    split
    · exact v.holds_group _
    · rfl
  induction h with
  | @raw text e hread _ => rw [expression_raw, holds_raw, hleaf text e hread]
  | @not inner _ ih =>
    rw [expression_not, v.holds_not, holds_not, ← ih]
    split
    · rfl
    · rw [v.holds_group]
  | @and items hne _ ih =>
    rw [expression_and, holds_joinAll_and v hne, holds_and]
    rw [Bool.eq_iff_iff, List.all_eq_true, List.all_eq_true]
    exact forall₂_congr fun item hitem => by rw [hoperand, ih item hitem]
  | @or items hne _ ih =>
    rw [expression_or, holds_joinAll_or v hne, holds_or]
    rw [Bool.eq_iff_iff, List.any_eq_true, List.any_eq_true]
    exact exists_congr fun item => and_congr_right fun hitem => by rw [hoperand, ih item hitem]

/-- A text is an expression that binds tightly enough and says what a condition says. -/
def ReadAs (text : String) (least : Nat) (c : Condition) : Prop :=
  ∃ e, read text = some e ∧ least ≤ e.level ∧ ∀ v : Valuation, v.holds e = c.holds v.holdsText

/-- **The written form is an expression that says what the condition says.** -/
theorem Readable.readAs (h : c.Readable) : ReadAs c.text c.level c := by
  refine ⟨c.expression atomOf, h.read_text.1, h.read_text.2, fun v => ?_⟩
  refine h.holds_expression fun text e hread => ?_
  rw [atomOf_of_read hread, v.holdsText_of_read hread]

/-- The written form says what the condition says. -/
theorem Readable.holdsText_text (h : c.Readable) (v : Valuation) :
    v.holdsText c.text = c.holds v.holdsText := by
  obtain ⟨e, hread, -, hholds⟩ := h.readAs
  rw [v.holdsText_of_read hread, hholds]

/-! ## Joining keeps conditions readable -/

/-- Opening a conjunction leaves something, and all of it readable. -/
theorem Readable.conjuncts (h : c.Readable) :
    c.conjuncts ≠ [] ∧ ∀ part ∈ c.conjuncts, Readable part := by
  have hsingle : [c] ≠ [] ∧ ∀ part ∈ [c], Readable part :=
    ⟨List.cons_ne_nil _ _, List.forall_mem_singleton.mpr h⟩
  cases h with
  | and hne hall => exact ⟨hne, hall⟩
  | raw | not | or => exact hsingle

/-- Opening a disjunction leaves something, and all of it readable. -/
theorem Readable.disjuncts (h : c.Readable) :
    c.disjuncts ≠ [] ∧ ∀ part ∈ c.disjuncts, Readable part := by
  have hsingle : [c] ≠ [] ∧ ∀ part ∈ [c], Readable part :=
    ⟨List.cons_ne_nil _ _, List.forall_mem_singleton.mpr h⟩
  cases h with
  | or hne hall => exact ⟨hne, hall⟩
  | raw | not | and => exact hsingle

/-- What holds of the parts of each item holds of all parts together. -/
theorem readable_flatMap {parts : Condition → List Condition} (hne : items ≠ [])
    (h : ∀ item ∈ items, parts item ≠ [] ∧ ∀ part ∈ parts item, Readable part) :
    items.flatMap parts ≠ [] ∧ ∀ part ∈ items.flatMap parts, Readable part := by
  constructor
  · obtain ⟨item, hitem⟩ := List.exists_mem_of_ne_nil items hne
    exact fun heq => (h item hitem).1 (List.flatMap_eq_nil_iff.mp heq item hitem)
  · intro part hpart
    obtain ⟨item, hitem, hin⟩ := List.mem_flatMap.mp hpart
    exact (h item hitem).2 part hin

theorem Readable.conj (hne : items ≠ []) (h : ∀ item ∈ items, Readable item) :
    (conj items).Readable := by
  obtain ⟨hne', hall⟩ := readable_flatMap hne fun item hitem => (h item hitem).conjuncts
  rw [Condition.conj]
  split
  case h_1 single heq => exact hall single (heq ▸ List.mem_singleton_self single)
  case h_2 => exact .and hne' hall

theorem Readable.disj (hne : items ≠ []) (h : ∀ item ∈ items, Readable item) :
    (disj items).Readable := by
  obtain ⟨hne', hall⟩ := readable_flatMap hne fun item hitem => (h item hitem).disjuncts
  rw [Condition.disj]
  split
  case h_1 single heq => exact hall single (heq ▸ List.mem_singleton_self single)
  case h_2 => exact .or hne' hall

theorem Readable.andAlso (h : c.Readable) (hitem : item.Readable) : (c.andAlso item).Readable :=
  .conj (List.cons_ne_nil _ _)
    (List.forall_mem_cons.mpr ⟨h, List.forall_mem_singleton.mpr hitem⟩)

/-! ## Conjuncts of the written form -/

/-- The conjuncts of a written conjunction are its items, in their order. -/
theorem exists_conjuncts_and (hne : items ≠ []) (h : ∀ item ∈ items, Readable item) :
    ∃ e, read (and items).text = some e ∧ 1 ≤ e.level
      ∧ e.conjuncts.map some = items.map fun item => read (operand item) := by
  have hoperand : ∀ item ∈ items, read (operand item) = some (operandExpression atomOf item)
      ∧ 2 ≤ (operandExpression atomOf item).level := fun item hitem =>
    read_operand (h item hitem).read_text.1 (h item hitem).read_text.2
  obtain ⟨hread, hlevel⟩ := (Readable.and hne h).read_text
  refine ⟨_, hread, hlevel, ?_⟩
  rw [expression_and, conjuncts_joinAll hne fun item hitem => (hoperand item hitem).2, List.map_map]
  exact List.map_congr_left fun item hitem => (hoperand item hitem).1.symm

/-- A check that a condition joins is a conjunct of its written form. -/
theorem Readable.hasConjunct {check : String} (h : c.Readable) (hmem : .raw check ∈ c.conjuncts) :
    HasConjunct c.text check := by
  cases h with
  | and hne hitems =>
    obtain ⟨e, hread, -, hconjuncts⟩ := exists_conjuncts_and hne hitems
    have hcheck : read check ∈ e.conjuncts.map some := by
      rw [hconjuncts]
      have htext : operand (.raw check) = check := by
        show (Condition.raw check).text = check
        rw [Condition.text]
      exact List.mem_map.mpr ⟨.raw check, hmem, by rw [htext]⟩
    obtain ⟨gate, hgate, heq⟩ := List.mem_map.mp hcheck
    exact ⟨e, gate, hread, heq.symm, hgate⟩
  | @raw text e hread hlevel =>
    obtain rfl : check = text := Condition.raw.inj (List.mem_singleton.mp hmem)
    rw [Condition.text]
    refine ⟨e, e, hread, hread, ?_⟩
    rw [conjuncts_of_level (Nat.le_trans (two_le_level_raw check) hlevel)]
    exact List.mem_singleton_self e
  | not | or => exact absurd (List.mem_singleton.mp hmem) (by simp)

/-- Joining keeps the checks that are joined already. -/
theorem raw_mem_conjuncts_conj {check : String} (hitem : item ∈ items)
    (h : raw check ∈ item.conjuncts) : raw check ∈ (conj items).conjuncts := by
  have hmem : raw check ∈ items.flatMap conjuncts := List.mem_flatMap.mpr ⟨item, hitem, h⟩
  rw [conj]
  split
  case h_1 single heq =>
    rw [heq] at hmem
    rw [← List.mem_singleton.mp hmem]
    exact List.mem_singleton_self _
  case h_2 => exact hmem

/-! ## The checks of generated jobs -/

theorem readable_agentNotSkipped : agentNotSkipped.Readable :=
  .raw rfl (by decide)

theorem readable_detectionSucceeded : detectionSucceeded.Readable :=
  .raw rfl (by decide)

theorem Readable.vetted (h : c.Readable) (active : Bool) :
    (if active then c.andAlso detectionSucceeded else c).Readable := by
  split
  · exact h.andAlso readable_detectionSucceeded
  · exact h

theorem holds_vetted (active : Bool) :
    (if active then c.andAlso detectionSucceeded else c).holds leaf = true
      ↔ c.holds leaf = true
        ∧ (active = true → leaf "needs.detection.outputs.success == 'true'" = true) := by
  split
  case isTrue hactive =>
    rw [holds_andAlso, Bool.and_eq_true, detectionSucceeded, holds_raw, forall_prop_of_true hactive]
  case isFalse hactive => exact (and_iff_left fun h => absurd h hactive).symm

/-- The tokens of the check that the agent asked for an output. -/
def askedTokens (name : List Char) : List Token :=
  [.word "contains".toList, .opening .round, .word "needs.agent.outputs.output_types".toList,
    .comma, .text name, .closing .round]

/-- A name without quotes stays inside the string that it is written in. -/
theorem readable_outputNamePresent {name : String} (h : '\'' ∉ name.toList) :
    (outputNamePresent name).Readable := by
  -- The scanner stands inside the string when the name starts, and still does when it ends.
  have hbefore : Scan.between.run "contains(needs.agent.outputs.output_types, '".toList
      = some ((askedTokens name.toList).take 4, .text []) := by
    rfl
  have hname : (Scan.text []).tokens (name.toList ++ "')".toList)
      = some [.text name.toList, .closing .round] := by
    rw [tokens_append_of_run (run_text [] h)]
    rfl
  have htokens : tokens ("contains(needs.agent.outputs.output_types, '" ++ name ++ "')").toList
      = some (askedTokens name.toList) := by
    rw [String.toList_append, String.toList_append, List.append_assoc, tokens,
      tokens_append_of_run hbefore, hname]
    rfl
  have hread : read ("contains(needs.agent.outputs.output_types, '" ++ name ++ "')")
      = some (.operand (askedTokens name.toList)) :=
    read_eq_some_iff.mpr ⟨_, _, htokens, rfl, rfl⟩
  exact .raw hread (Nat.le_succ_of_le (level_raw_le _))

end Condition

end AgentGate
