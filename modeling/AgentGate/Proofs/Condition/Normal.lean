import AgentGate.Proofs.Condition

/-!
# The normal form of joined conditions

Joining opens nested conditions one level deep only, and hands a single condition back as it is.
Over conditions that were joined themselves this is enough: nothing joined stands directly inside
its like, however deeply conditions are nested. So a check that is joined later stands beside those
that are there already, and it does not matter in which groups conditions are joined.

- `Condition.Junction`: the two ways of joining, so that what they share is said once.
- `Condition.Normal`: the normal form, said of the tree alone.
- `Condition.Built`: the trees that are made by joining.
- `Condition.Junction.normal_join`: joining keeps the normal form.
- `Condition.Junction.join_map_join`: joining groups is joining what is in them.
- `Condition.joining_normalizes`: the trees made by joining are those in normal form, and they say
  what their items say.
-/

namespace AgentGate.Condition

/-- A way of joining conditions. -/
inductive Junction where
  | and | or

variable {how : Junction} {c : Condition} {items : List Condition}

namespace Junction

/-- The tree over some conditions, as they are. -/
def tree : Junction → List Condition → Condition
  | and => .and
  | or => .or

/-- The conditions that are joined in this way, and any other condition alone. -/
def parts : Junction → Condition → List Condition
  | and => conjuncts
  | or => disjuncts

/-- Some conditions joined, with nested ones opened. -/
def join : Junction → List Condition → Condition
  | and => conj
  | or => disj

theorem parts_tree (how : Junction) (items : List Condition) :
    how.parts (how.tree items) = items := by
  cases how <;> rfl

theorem parts_eq_singleton (h : ∀ items, c ≠ how.tree items) : how.parts c = [c] := by
  cases how <;> cases c
  case and.and items | or.or items => exact absurd rfl (h items)
  all_goals rfl

theorem join_eq (how : Junction) (items : List Condition) :
    how.join items = match items.flatMap how.parts with
      | [single] => single
      | joined => how.tree joined := by
  cases how <;> rfl

/-- What is joined is a tree over all parts, unless there is a single one. -/
theorem join_cases (how : Junction) (items : List Condition) :
    items.flatMap how.parts = [how.join items]
      ∨ (items.flatMap how.parts).length ≠ 1
        ∧ how.join items = how.tree (items.flatMap how.parts) := by
  rw [join_eq]
  split
  case h_1 single heq => exact .inl heq
  case h_2 joined hjoined =>
    refine .inr ⟨fun hlength => ?_, rfl⟩
    obtain ⟨single, hsingle⟩ := List.length_eq_one_iff.mp hlength
    exact hjoined single hsingle

/-- Where nothing is to be opened and nothing stands alone, joining only makes the tree. -/
theorem join_eq_tree (how : Junction) (hlength : items.length ≠ 1)
    (hopen : ∀ parts, how.tree parts ∉ items) : how.join items = how.tree items := by
  have hparts : items.flatMap how.parts = items := by
    rw [List.flatMap_congr fun item hitem =>
      parts_eq_singleton fun parts heq => hopen parts (heq ▸ hitem)]
    exact List.flatMap_singleton' items
  rcases how.join_cases items with hsingle | ⟨-, hjoin⟩
  · rw [hparts] at hsingle
    rw [hsingle] at hlength
    exact absurd rfl hlength
  · rw [hjoin, hparts]

end Junction

/-! ## The normal form -/

/-- No conjunction stands directly inside a conjunction and no disjunction directly inside a
disjunction, and none of them is over a single condition. -/
inductive Normal : Condition → Prop where
  | raw (text : String) : Normal (raw text)
  | not {inner : Condition} : Normal inner → Normal (not inner)
  | and {items : List Condition} : items.length ≠ 1 → (∀ parts, and parts ∉ items) →
      (∀ item ∈ items, Normal item) → Normal (and items)
  | or {items : List Condition} : items.length ≠ 1 → (∀ parts, or parts ∉ items) →
      (∀ item ∈ items, Normal item) → Normal (or items)

theorem normal_tree_iff : (how.tree items).Normal
    ↔ items.length ≠ 1 ∧ (∀ parts, how.tree parts ∉ items) ∧ ∀ item ∈ items, Normal item := by
  cases how with
  | and =>
    exact ⟨fun h => by cases h with | and hlength hopen hitems => exact ⟨hlength, hopen, hitems⟩,
      fun ⟨hlength, hopen, hitems⟩ => .and hlength hopen hitems⟩
  | or =>
    exact ⟨fun h => by cases h with | or hlength hopen hitems => exact ⟨hlength, hopen, hitems⟩,
      fun ⟨hlength, hopen, hitems⟩ => .or hlength hopen hitems⟩

/-- The parts of a condition in normal form are in normal form and cannot be opened further. -/
theorem Normal.of_mem_parts (h : c.Normal) {part : Condition} (hpart : part ∈ how.parts c) :
    part.Normal ∧ ∀ items, part ≠ how.tree items := by
  by_cases htree : ∃ items, c = how.tree items
  case pos =>
    obtain ⟨items, rfl⟩ := htree
    rw [how.parts_tree] at hpart
    obtain ⟨-, hopen, hitems⟩ := normal_tree_iff.mp h
    exact ⟨hitems part hpart, fun parts heq => hopen parts (heq ▸ hpart)⟩
  case neg =>
    rw [not_exists] at htree
    rw [Junction.parts_eq_singleton htree] at hpart
    obtain rfl := List.mem_singleton.mp hpart
    exact ⟨h, htree⟩

namespace Junction

/-- What holds of the parts of each item holds of all parts together. -/
theorem normal_of_mem_flatMap (h : ∀ item ∈ items, Normal item) {part : Condition}
    (hpart : part ∈ items.flatMap how.parts) : part.Normal ∧ ∀ items, part ≠ how.tree items := by
  obtain ⟨item, hitem, hpart⟩ := List.mem_flatMap.mp hpart
  exact (h item hitem).of_mem_parts hpart

/-- **Joining keeps the normal form.** -/
theorem normal_join (how : Junction) (h : ∀ item ∈ items, Normal item) :
    (how.join items).Normal := by
  rcases how.join_cases items with hsingle | ⟨hlength, hjoin⟩
  · exact (normal_of_mem_flatMap h (hsingle ▸ List.mem_singleton_self _)).1
  · rw [hjoin, normal_tree_iff]
    exact ⟨hlength, fun parts hparts => (normal_of_mem_flatMap h hparts).2 parts rfl,
      fun part hpart => (normal_of_mem_flatMap h hpart).1⟩

/-- Opening what was joined gives the parts of all items again. A single part is not opened any
further, since it is in normal form. -/
theorem parts_join (h : ∀ item ∈ items, Normal item) :
    how.parts (how.join items) = items.flatMap how.parts := by
  rcases how.join_cases items with hsingle | ⟨-, hjoin⟩
  · rw [hsingle]
    exact parts_eq_singleton
      (normal_of_mem_flatMap h (hsingle ▸ List.mem_singleton_self _)).2
  · rw [hjoin, parts_tree]

/-- **Joining groups is joining what is in them**: the grouping leaves no trace in the tree. -/
theorem join_map_join (how : Junction) {groups : List (List Condition)}
    (h : ∀ items ∈ groups, ∀ item ∈ items, Normal item) :
    how.join (groups.map how.join) = how.join groups.flatten := by
  have hparts : (groups.map how.join).flatMap how.parts = groups.flatten.flatMap how.parts := by
    rw [List.flatMap_map, List.flatMap_congr fun items hitems => parts_join (h items hitems),
      ← List.flatMap_id, List.flatMap_assoc]
    rfl
  rw [join_eq, hparts, ← join_eq]

end Junction

/-! ## The trees that joining makes -/

/-- The trees that are made from texts by negating and joining. -/
inductive Built : Condition → Prop where
  | raw (text : String) : Built (raw text)
  | not {inner : Condition} : Built inner → Built (not inner)
  | conj {items : List Condition} : (∀ item ∈ items, Built item) → Built (conj items)
  | disj {items : List Condition} : (∀ item ∈ items, Built item) → Built (disj items)
  | andAlso {first second : Condition} : Built first → Built second →
      Built (first.andAlso second)

theorem Built.normal (h : c.Built) : c.Normal := by
  induction h with
  | raw text => exact .raw text
  | not _ ih => exact .not ih
  | conj _ ih => exact Junction.and.normal_join ih
  | disj _ ih => exact Junction.or.normal_join ih
  | andAlso _ _ ihFirst ihSecond =>
    exact Junction.and.normal_join
      (List.forall_mem_cons.mpr ⟨ihFirst, List.forall_mem_singleton.mpr ihSecond⟩)

/-- Every tree in normal form is made by joining, each joined part over its own items. -/
theorem Normal.built (h : c.Normal) : c.Built := by
  induction h with
  | raw text => exact .raw text
  | not _ ih => exact .not ih
  | @and items hlength hopen _ ih =>
    have hconj : conj items = .and items := Junction.and.join_eq_tree hlength hopen
    exact hconj ▸ .conj ih
  | @or items hlength hopen _ ih =>
    have hdisj : disj items = .or items := Junction.or.join_eq_tree hlength hopen
    exact hdisj ▸ .disj ih

theorem built_iff_normal : c.Built ↔ c.Normal :=
  ⟨Built.normal, Normal.built⟩

/-- A check that is joined later stands beside the conjuncts that are there already. -/
theorem Built.conjuncts_andAlso {first second : Condition} (hfirst : first.Built)
    (hsecond : second.Built) :
    (first.andAlso second).conjuncts = first.conjuncts ++ second.conjuncts := by
  have hboth : ∀ item ∈ [first, second], Normal item :=
    List.forall_mem_cons.mpr ⟨hfirst.normal, List.forall_mem_singleton.mpr hsecond.normal⟩
  show Junction.and.parts (Junction.and.join [first, second]) = _
  rw [Junction.parts_join hboth, List.flatMap_cons, List.flatMap_singleton]
  rfl

/-- Two groups that are joined apart and then together give what joining all their items gives. -/
theorem Junction.join_pair (how : Junction) {xs ys : List Condition}
    (h : ∀ item ∈ xs ++ ys, Built item) :
    how.join [how.join xs, how.join ys] = how.join (xs ++ ys) := by
  have hgroups : ∀ items ∈ [xs, ys], ∀ item ∈ items, Normal item := by
    obtain ⟨hxs, hys⟩ := List.forall_mem_append.mp h
    exact List.forall_mem_cons.mpr ⟨fun item hitem => (hxs item hitem).normal,
      List.forall_mem_singleton.mpr fun item hitem => (hys item hitem).normal⟩
  have hjoin := how.join_map_join hgroups
  rwa [List.flatten_cons, List.flatten_cons, List.flatten_nil, List.append_nil] at hjoin

/-- **Joining normalizes.** The trees that are made from texts by negating and joining, in any
nesting and over lists of any length, are those in which nothing joined stands directly inside its
like and nothing is joined to itself alone. Whatever the texts say, a conjunction holds when all its
items do, which an empty one does, and a disjunction when one of them does; and a check that is
joined later is another conjunct. Two groups that are joined apart and then together are the tree
over all their items. -/
theorem joining_normalizes :
    (∀ c : Condition, c.Built ↔ c.Normal)
    ∧ (∀ (leaf : String → Bool) (items : List Condition),
      ((conj items).holds leaf = true ↔ ∀ item ∈ items, item.holds leaf = true)
      ∧ ((disj items).holds leaf = true ↔ ∃ item ∈ items, item.holds leaf = true))
    ∧ (∀ first second : Condition, first.Built → second.Built →
      (first.andAlso second).conjuncts = first.conjuncts ++ second.conjuncts)
    ∧ ∀ xs ys : List Condition, (∀ item ∈ xs ++ ys, item.Built) →
      conj [conj xs, conj ys] = conj (xs ++ ys) ∧ disj [disj xs, disj ys] = disj (xs ++ ys) := by
  refine ⟨fun c => built_iff_normal, fun leaf items => ⟨?_, ?_⟩,
    fun first second hfirst hsecond => hfirst.conjuncts_andAlso hsecond, fun xs ys h => ?_⟩
  · rw [holds_conj, List.all_eq_true]
  · rw [holds_disj, List.any_eq_true]
  · exact ⟨Junction.and.join_pair h, Junction.or.join_pair h⟩

/-- A check that is joined alone, and two that are joined with it later. -/
theorem checks_normalized :
    conj [conj [disj [.raw "failure()"]], conj [.raw "always()", .not (.raw "cancelled()")]]
      = .and [.raw "failure()", .raw "always()", .not (.raw "cancelled()")]
    ∧ (conj [disj [.raw "failure()"], .raw "always()", .not (.raw "cancelled()")]).Normal := by
  obtain ⟨hbuilt, -, -, hgroups⟩ := joining_normalizes
  have hitems : ∀ item ∈ [disj [.raw "failure()"]] ++ [.raw "always()", .not (.raw "cancelled()")],
      Built item := by
    refine List.forall_mem_cons.mpr ⟨.disj (List.forall_mem_singleton.mpr (.raw _)), ?_⟩
    exact List.forall_mem_cons.mpr ⟨.raw _, List.forall_mem_singleton.mpr (.not (.raw _))⟩
  exact ⟨(hgroups _ _ hitems).1, (hbuilt _).mp (.conj hitems)⟩

end AgentGate.Condition
