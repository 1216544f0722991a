import AgentGate.Proofs.Expression.Token
import Mathlib.Data.List.Induction

/-!
# Reading written expressions

An expression is split at its weakest operators first: at `||`, then at `&&`, then at comparisons.
What is left is an operand behind any number of `!`. What stands in brackets is read before what
stands around it, and hides its operators from there.

- `disjunction`, `conjunction`, `equality`, `relation`, `negation`: the levels, weakest first. The
  four levels of operators with two sides are one definition, `joined`.
- `Nest.step`: brackets, one token at a time.
- `read`: the expression that a text is, if it is one.
- `Expression.level`: how tightly the outermost operator of an expression binds.
-/

namespace AgentGate

/-- An expression. Words, strings, function calls and accesses are operands and not looked into. -/
inductive Expression where
  | operand (tokens : List Expression.Token)
  /-- An expression in parentheses. -/
  | group (inner : Expression)
  | not (inner : Expression)
  | compare (how : Expression.Comparison) (left right : Expression)
  | and (left right : Expression)
  | or (left right : Expression)
  deriving DecidableEq, Repr

namespace Expression

/-- How tightly the outermost operator of an expression binds. -/
def level : Expression → Nat
  | or _ _ => 0
  | and _ _ => 1
  | compare _ _ _ => 2
  | not _ => 3
  | group _ | operand _ => 4

/-- What an expression is read from: a token outside of brackets, or a pair of brackets with the
tokens of the whole and the expressions inside. -/
inductive Item where
  | token (token : Token)
  | bracketed (bracket : Bracket) (tokens : List Token) (inner : List Expression)

namespace Item

/-- The tokens of an item. -/
def tokens : Item → List Token
  | token t => [t]
  | bracketed _ ts _ => ts

def or? : Item → Option Unit
  | token .or => some ()
  | _ => none

def and? : Item → Option Unit
  | token .and => some ()
  | _ => none

def equality? : Item → Option Comparison
  | token (.compare .equal) => some .equal
  | token (.compare .notEqual) => some .notEqual
  | _ => none

def relation? : Item → Option Comparison
  | token (.compare .less) => some .less
  | token (.compare .atMost) => some .atMost
  | token (.compare .greater) => some .greater
  | token (.compare .atLeast) => some .atLeast
  | _ => none

def comma? : Item → Option Unit
  | token .comma => some ()
  | _ => none

/-- An index, or a name behind a dot. -/
def isAccess : Item → Bool
  | bracketed .square _ [_] => true
  | token (.word ('.' :: _)) => true
  | _ => false

end Item

/-! ## Levels -/

/-- The items before the first operator of a kind, and those behind each such operator. -/
def chain {α : Type} (operator? : Item → Option α) :
    List Item → List Item × List (α × List Item)
  | [] => ([], [])
  | item :: rest =>
    match operator? item with
    | some op => ([], (op, (chain operator? rest).1) :: (chain operator? rest).2)
    | none => (item :: (chain operator? rest).1, (chain operator? rest).2)

/-- Operands of a kind with operators between them, which associate to the left. -/
def joined {α : Type} (operator? : Item → Option α) (operand : List Item → Option Expression)
    (join : α → Expression → Expression → Expression) (items : List Item) : Option Expression :=
  (operand (chain operator? items).1).bind fun first =>
    (chain operator? items).2.foldlM
      (fun left part => (operand part.2).map (join part.1 left)) first

/-- A word, perhaps with arguments, or an expression in parentheses, with any number of accesses; or
a string. -/
def isOperand : List Item → Bool
  | .token (.word _) :: .bracketed .round _ _ :: rest => rest.all Item.isAccess
  | .token (.word _) :: rest => rest.all Item.isAccess
  | .bracketed .round _ [_] :: rest => rest.all Item.isAccess
  | [.token (.text _)] => true
  | _ => false

def operand? : List Item → Option Expression
  | [.bracketed .round _ [inner]] => some (.group inner)
  | items => if isOperand items then some (.operand (items.flatMap Item.tokens)) else none

def negation : List Item → Option Expression
  | .token .not :: rest => (negation rest).map .not
  | items => operand? items

def relation : List Item → Option Expression :=
  joined Item.relation? negation .compare

def equality : List Item → Option Expression :=
  joined Item.equality? relation .compare

def conjunction : List Item → Option Expression :=
  joined Item.and? equality fun _ => .and

def disjunction : List Item → Option Expression :=
  joined Item.or? conjunction fun _ => .or

/-- What stands in brackets: nothing, or expressions with commas between them. -/
def arguments : List Item → Option (List Expression)
  | [] => some []
  | items =>
    ((chain Item.comma? items).1 :: (chain Item.comma? items).2.map Prod.snd).mapM disjunction

/-! ## Brackets -/

/-- The items read so far inside the brackets that are open, innermost first, and those in front of
each of these brackets. -/
structure Nest where
  outer : List (Bracket × List Item)
  here : List Item

/-- One token. -/
def Nest.step (n : Nest) : Token → Option Nest
  | .opening bracket => some ⟨(bracket, n.here) :: n.outer, []⟩
  | .closing bracket =>
    -- The brackets and what stands between them are one item of the list in front of them.
    match n.outer with
    | [] => none
    | (opened, before) :: outer =>
      if opened = bracket then
        (arguments n.here).map fun inner =>
          ⟨outer, before ++ [.bracketed bracket
            (.opening bracket :: n.here.flatMap Item.tokens ++ [.closing bracket]) inner]⟩
      else none
  | token => some { n with here := n.here ++ [.token token] }

/-- The items of tokens whose brackets are closed. -/
def items (tokens : List Token) : Option (List Item) :=
  (tokens.foldlM Nest.step ⟨[], []⟩).bind fun n =>
    match n.outer with
    | [] => some n.here
    | _ :: _ => none

/-- The expression that a text is. -/
def read (text : String) : Option Expression :=
  (tokens text.toList).bind fun found => (items found).bind disjunction

/-! ## Items without an operator of a kind -/

/-- None of the items is an operator of a kind. -/
def Free {α : Type} (operator? : Item → Option α) (items : List Item) : Prop :=
  ∀ item ∈ items, operator? item = none

section Joined

variable {α : Type} {operator? : Item → Option α} {operand : List Item → Option Expression}
  {join : α → Expression → Expression → Expression} {xs ys : List Item} {e : Expression}

/-- Items have no operator of a kind, or a last one. -/
theorem free_or_last (operator? : Item → Option α) (items : List Item) :
    Free operator? items ∨ ∃ before op how last, items = before ++ op :: last
      ∧ operator? op = some how ∧ Free operator? last := by
  induction items with
  | nil => exact .inl fun item hitem => absurd hitem List.not_mem_nil
  | cons item rest ih =>
    rcases ih with hfree | ⟨before, op, how, last, rfl, hop, hlast⟩
    · cases hitem : operator? item with
      | none => exact .inl (List.forall_mem_cons.mpr ⟨hitem, hfree⟩)
      | some how => exact .inr ⟨[], item, how, rest, rfl, hitem, hfree⟩
    · exact .inr ⟨item :: before, op, how, last, rfl, hop, hlast⟩

theorem chain_of_free (h : Free operator? xs) : chain operator? xs = (xs, []) := by
  induction xs with
  | nil => rfl
  | cons item rest ih =>
    obtain ⟨hitem, hrest⟩ := List.forall_mem_cons.mp h
    simp only [chain, hitem, ih hrest]

theorem chain_append {op : Item} {how : α} (hop : operator? op = some how)
    (hys : Free operator? ys) (xs : List Item) :
    chain operator? (xs ++ op :: ys)
      = ((chain operator? xs).1, (chain operator? xs).2 ++ [(how, ys)]) := by
  induction xs with
  | nil => simp only [List.nil_append, chain, hop, chain_of_free hys]
  | cons item rest ih =>
    rw [List.cons_append, chain, chain]
    cases operator? item <;> simp only [ih, List.cons_append]

/-- Without an operator of a kind there is one operand. -/
theorem joined_of_free (h : Free operator? xs) : joined operator? operand join xs = operand xs := by
  rw [joined, chain_of_free h]
  exact Option.bind_fun_some (operand xs)

/-- The last operator of a kind joins what stands before it to the operand behind it. -/
theorem joined_append {op : Item} {how : α} (hop : operator? op = some how)
    (hys : Free operator? ys) (xs : List Item) :
    joined operator? operand join (xs ++ op :: ys)
      = (joined operator? operand join xs).bind fun left => (operand ys).map (join how left) := by
  rw [joined, chain_append hop hys, joined, Option.bind_assoc]
  simp only [List.foldlM_append, List.foldlM_cons, List.foldlM_nil]
  simp [Option.bind_eq_bind]

/-- Joined items do not start with what neither starts an operand nor stands between two. -/
theorem joined_cons_eq_none {item : Item} (hitem : operator? item = none ∨ operand [] = none)
    (hoperand : ∀ ys, operand (item :: ys) = none) (xs : List Item) :
    joined operator? operand join (item :: xs) = none := by
  rw [joined, chain]
  cases hop : operator? item with
  | none => rw [hoperand, Option.bind_none]
  | some how =>
    rcases hitem with hnone | hempty
    · rw [hnone] at hop
      cases hop
    · rw [hempty, Option.bind_none]

/-- What is read from joined items is one operand, or joins something to the last operand. -/
theorem joined_cases (h : joined operator? operand join xs = some e) :
    (Free operator? xs ∧ operand xs = some e)
      ∨ ∃ before op how last left right, xs = before ++ op :: last ∧ operator? op = some how
        ∧ Free operator? last ∧ joined operator? operand join before = some left
        ∧ operand last = some right ∧ e = join how left right := by
  rcases free_or_last operator? xs with hfree | ⟨before, op, how, last, rfl, hop, hlast⟩
  · rw [joined_of_free hfree] at h
    exact .inl ⟨hfree, h⟩
  · rw [joined_append hop hlast] at h
    obtain ⟨left, hleft, hjoin⟩ := Option.bind_eq_some_iff.mp h
    obtain ⟨right, hright, rfl⟩ := Option.map_eq_some_iff.mp hjoin
    exact .inr ⟨before, op, how, last, left, right, rfl, hop, hlast, hleft, hright, rfl⟩

/-- Joined items bind as tightly as the operands and the operators between them do. -/
theorem level_of_joined {least : Nat} (h : joined operator? operand join xs = some e)
    (hoperand : ∀ {ys e}, operand ys = some e → least ≤ e.level)
    (hjoin : ∀ how left right, least ≤ (join how left right).level) : least ≤ e.level := by
  rcases joined_cases h with ⟨-, hone⟩ | ⟨_, _, how, _, left, right, -, -, -, -, -, rfl⟩
  · exact hoperand hone
  · exact hjoin how left right

/-- What all operands are free of, and the operators are not, the joined items are free of. -/
theorem free_of_joined {β : Type} {other? : Item → Option β}
    (hoperand : ∀ {ys e}, operand ys = some e → Free other? ys)
    (hother : ∀ {op how}, operator? op = some how → other? op = none)
    (h : joined operator? operand join xs = some e) : Free other? xs := by
  induction hlength : xs.length using Nat.strongRecOn generalizing xs e with
  | ind length ih =>
    rcases joined_cases h with
      ⟨-, hone⟩ | ⟨before, op, how, last, left, right, rfl, hop, -, hleft, hright, -⟩
    · exact hoperand hone
    · -- What stands before the last operator is joined itself, and shorter.
      have hbefore : Free other? before :=
        ih before.length (by rw [← hlength, List.length_append, List.length_cons]; omega) hleft rfl
      rw [Free, List.forall_mem_append, List.forall_mem_cons]
      exact ⟨hbefore, hother hop, hoperand hright⟩

end Joined

/-! ## Items that are not an operator -/

section OfNe

variable {item : Item}

theorem or?_of_ne (h : item ≠ .token .or) : item.or? = none := by
  unfold Item.or?
  split
  · exact absurd rfl h
  · rfl

theorem and?_of_ne (h : item ≠ .token .and) : item.and? = none := by
  unfold Item.and?
  split
  · exact absurd rfl h
  · rfl

theorem equality?_of_ne (h : ∀ how, item ≠ .token (.compare how)) : item.equality? = none := by
  unfold Item.equality?
  split
  · exact absurd rfl (h .equal)
  · exact absurd rfl (h .notEqual)
  · rfl

theorem relation?_of_ne (h : ∀ how, item ≠ .token (.compare how)) : item.relation? = none := by
  unfold Item.relation?
  split
  · exact absurd rfl (h .less)
  · exact absurd rfl (h .atMost)
  · exact absurd rfl (h .greater)
  · exact absurd rfl (h .atLeast)
  · rfl

theorem comma?_of_ne (h : item ≠ .token .comma) : item.comma? = none := by
  unfold Item.comma?
  split
  · exact absurd rfl h
  · rfl

end OfNe

/-! ## What the levels give -/

variable {xs ys : List Item} {e e' : Expression}

theorem level_of_operand? (h : operand? xs = some e) : e.level = 4 := by
  unfold operand? at h
  split at h
  · cases h
    rfl
  · split at h <;> cases h
    rfl

theorem level_of_negation (h : negation xs = some e) : 3 ≤ e.level := by
  unfold negation at h
  split at h
  · obtain ⟨inner, -, rfl⟩ := Option.map_eq_some_iff.mp h
    exact Nat.le_refl 3
  · rw [level_of_operand? h]
    decide

theorem level_of_relation (h : relation xs = some e) : 2 ≤ e.level :=
  level_of_joined h (fun hone => Nat.le_of_succ_le (level_of_negation hone))
    fun _ _ _ => Nat.le_refl 2

theorem level_of_equality (h : equality xs = some e) : 2 ≤ e.level :=
  level_of_joined h level_of_relation fun _ _ _ => Nat.le_refl 2

theorem level_of_conjunction (h : conjunction xs = some e) : 1 ≤ e.level :=
  level_of_joined h (fun hone => Nat.le_of_succ_le (level_of_equality hone))
    fun _ _ _ => Nat.le_refl 1

/-- An expression without `||` outside of brackets is read from items without one. -/
theorem conjunction_of_disjunction (h : disjunction xs = some e) (hlevel : 1 ≤ e.level) :
    Free Item.or? xs ∧ conjunction xs = some e := by
  rcases joined_cases h with hone | ⟨_, _, _, _, _, _, -, -, -, -, -, rfl⟩
  · exact hone
  · cases hlevel

/-- An expression without `&&` and `||` outside of brackets is read from items without one. -/
theorem equality_of_disjunction (h : disjunction xs = some e) (hlevel : 2 ≤ e.level) :
    Free Item.or? xs ∧ Free Item.and? xs ∧ equality xs = some e := by
  obtain ⟨hor, hconj⟩ := conjunction_of_disjunction h (Nat.le_of_succ_le hlevel)
  rcases joined_cases hconj with ⟨hand, hone⟩ | ⟨_, _, _, _, _, _, -, -, -, -, -, rfl⟩
  · exact ⟨hor, hand, hone⟩
  · exact absurd hlevel (Nat.lt_irrefl 1)

/-- An expression without operators outside of brackets, apart from `!`, is read from items without
one. -/
theorem negation_of_disjunction (h : disjunction xs = some e) (hlevel : 3 ≤ e.level) :
    Free Item.or? xs ∧ Free Item.and? xs ∧ Free Item.equality? xs ∧ Free Item.relation? xs
      ∧ negation xs = some e := by
  obtain ⟨hor, hand, heq⟩ := equality_of_disjunction h (Nat.le_of_succ_le hlevel)
  rcases joined_cases heq with ⟨hequality, hrel⟩ | ⟨_, _, _, _, _, _, -, -, -, -, -, rfl⟩
  · rcases joined_cases hrel with ⟨hrelation, hone⟩ | ⟨_, _, _, _, _, _, -, -, -, -, -, rfl⟩
    · exact ⟨hor, hand, hequality, hrelation, hone⟩
    · exact absurd hlevel (Nat.lt_irrefl 2)
  · exact absurd hlevel (Nat.lt_irrefl 2)

/-- Without `&&` and `||` outside of brackets, the comparisons decide. -/
theorem disjunction_eq_equality (hor : Free Item.or? xs) (hand : Free Item.and? xs) :
    disjunction xs = equality xs := by
  rw [disjunction, joined_of_free hor, conjunction, joined_of_free hand]

/-- Without operators that join outside of brackets, the negations decide. -/
theorem disjunction_eq_negation (hor : Free Item.or? xs) (hand : Free Item.and? xs)
    (hequality : Free Item.equality? xs) (hrelation : Free Item.relation? xs) :
    disjunction xs = negation xs := by
  rw [disjunction_eq_equality hor hand, equality, joined_of_free hequality, relation,
    joined_of_free hrelation]

/-! ## Operands -/

/-- An operand has its commas in brackets. -/
theorem free_comma_of_operand? (h : operand? xs = some e) : Free Item.comma? xs := by
  have haccess : ∀ {items : List Item}, items.all Item.isAccess = true →
      Free Item.comma? items := fun hall item hitem =>
    comma?_of_ne fun heq => by cases heq ▸ List.all_eq_true.mp hall item hitem
  have hisOperand : ∀ {items : List Item}, isOperand items = true → Free Item.comma? items := by
    intro items hitems
    unfold isOperand at hitems
    split at hitems
    · exact List.forall_mem_cons.mpr ⟨rfl, List.forall_mem_cons.mpr ⟨rfl, haccess hitems⟩⟩
    · exact List.forall_mem_cons.mpr ⟨rfl, haccess hitems⟩
    · exact List.forall_mem_cons.mpr ⟨rfl, haccess hitems⟩
    · exact List.forall_mem_singleton.mpr rfl
    · cases hitems
  unfold operand? at h
  split at h
  · exact List.forall_mem_singleton.mpr rfl
  · split at h
    case isTrue hitems => exact hisOperand hitems
    case isFalse => cases h

theorem free_comma_of_negation (h : negation xs = some e) : Free Item.comma? xs := by
  induction xs generalizing e with
  | nil => exact free_comma_of_operand? h
  | cons item rest ih =>
    unfold negation at h
    split at h
    case h_1 heq =>
      obtain ⟨rfl, rfl⟩ := List.cons.inj heq
      obtain ⟨inner, hinner, -⟩ := Option.map_eq_some_iff.mp h
      exact List.forall_mem_cons.mpr ⟨rfl, ih hinner⟩
    case h_2 => exact free_comma_of_operand? h

/-- An expression has its commas in brackets. -/
theorem free_comma_of_disjunction (h : disjunction xs = some e) : Free Item.comma? xs := by
  -- No operator is a comma, so the operands decide, level by level.
  have hcomma : ∀ {β : Type} {operator? : Item → Option β} {op : Item} {how : β},
      operator? (.token .comma) = none → operator? op = some how → op.comma? = none :=
    fun hnone hop => comma?_of_ne fun heq => by rw [heq, hnone] at hop; cases hop
  refine free_of_joined (fun hconj => ?_) (hcomma rfl) h
  refine free_of_joined (fun heq => ?_) (hcomma rfl) hconj
  refine free_of_joined (fun hrel => ?_) (hcomma rfl) heq
  exact free_of_joined free_comma_of_negation (hcomma rfl) hrel

end Expression

end AgentGate
