import AgentGate.Proofs.Condition

/-!
# Writing conditions out keeps their meaning

The written form puts parentheses by local rules: around a joined condition inside another one, and
behind `!` around everything but a text without a space. For texts that are expressions of their own
and join nothing, these rules are enough, however deeply conditions are nested.

- `Condition.IsLeaf`: the texts that may be joined as they are.
- `Condition.Composed`: the trees over such texts, built directly or by joining.
- `Condition.Composed.text_faithful`: the written form is read as the tree it was written from.
-/

namespace AgentGate

open Expression

namespace Condition

/-! ## Texts that may be joined as they are -/

/-- A text is an expression without `&&` and `||` outside of brackets and strings, and without
comparisons there unless the text has a space. -/
def IsLeaf (text : String) : Prop :=
  ∃ ts xs e, tokens text.toList = some ts ∧ items ts = some xs ∧ disjunction xs = some e
    ∧ .token .and ∉ xs ∧ .token .or ∉ xs
    ∧ (' ' ∈ text.toList ∨ ∀ how, .token (.compare how) ∉ xs)

theorem IsLeaf.readable {text : String} (h : IsLeaf text) : (raw text).Readable := by
  obtain ⟨ts, xs, e, hts, hxs, he, hand, hor, hcompare⟩ := h
  have hor : Free Item.or? xs := fun item hitem => or?_of_ne (ne_of_mem_of_not_mem hitem hor)
  have hand : Free Item.and? xs := fun item hitem =>
    and?_of_ne (ne_of_mem_of_not_mem hitem hand)
  refine .raw (read_eq_some_iff.mpr ⟨ts, xs, hts, hxs, he⟩) ?_
  by_cases hspace : ' ' ∈ text.toList
  case pos =>
    rw [level, if_pos (List.contains_iff_mem.mpr hspace)]
    rw [disjunction_eq_equality hor hand] at he
    exact level_of_equality he
  case neg =>
    -- Without a space the text stands behind `!` as it is, so it must not compare anything.
    have hcompare := hcompare.resolve_left hspace
    have hne : ∀ item ∈ xs, ∀ how, item ≠ .token (.compare how) := fun item hitem how =>
      ne_of_mem_of_not_mem hitem (hcompare how)
    rw [level, if_neg (fun h => hspace (List.contains_iff_mem.mp h))]
    rw [disjunction_eq_negation hor hand (fun item hitem => equality?_of_ne (hne item hitem))
      fun item hitem => relation?_of_ne (hne item hitem)] at he
    exact level_of_negation he

/-! ## Trees over such texts -/

/-- The trees over texts that may be joined as they are, with something in every joined condition,
built directly or by joining. -/
inductive Composed : Condition → Prop where
  | raw {text : String} : IsLeaf text → Composed (raw text)
  | not {inner : Condition} : Composed inner → Composed (not inner)
  | and {items : List Condition} : items ≠ [] → (∀ item ∈ items, Composed item) →
      Composed (and items)
  | or {items : List Condition} : items ≠ [] → (∀ item ∈ items, Composed item) →
      Composed (or items)
  | conj {items : List Condition} : items ≠ [] → (∀ item ∈ items, Composed item) →
      Composed (conj items)
  | disj {items : List Condition} : items ≠ [] → (∀ item ∈ items, Composed item) →
      Composed (disj items)
  | andAlso {first second : Condition} : Composed first → Composed second →
      Composed (first.andAlso second)

variable {c : Condition}

theorem Composed.readable (h : c.Composed) : c.Readable := by
  induction h with
  | raw hleaf => exact hleaf.readable
  | not _ ih => exact .not ih
  | and hne _ ih => exact .and hne ih
  | or hne _ ih => exact .or hne ih
  | conj hne _ ih => exact .conj hne ih
  | disj hne _ ih => exact .disj hne ih
  | andAlso _ _ ihFirst ihSecond => exact ihFirst.andAlso ihSecond

/-- **Writing a tree out keeps its meaning.** The written form is read as the shape of the tree with
what its texts are read as in their places. Whatever stands in these places, an expression of that
shape holds just when the tree says so. In particular the written form does. -/
theorem Composed.text_faithful (h : c.Composed) :
    read c.text = some (c.expression atomOf)
      ∧ (∀ (v : Valuation) (atom : String → Expression),
        v.holds (c.expression atom) = c.holds fun text => v.holds (atom text))
      ∧ ∀ v : Valuation, v.holdsText c.text = c.holds v.holdsText :=
  ⟨h.readable.read_text.1, fun _ _ => h.readable.holds_expression fun _ _ _ => rfl,
    h.readable.holdsText_text⟩

/-- Not on the main branch after a failure, and not there without force. -/
def spared : Condition :=
  .not (conj [.raw "github.ref == 'main'", .or [.raw "failure()", .not (.raw "inputs.force")]])

theorem isLeaf_comparison : IsLeaf "github.ref == 'main'" :=
  ⟨[.word "github.ref".toList, .compare .equal, .text "main".toList], _, _, rfl, rfl, rfl,
    by simp, by simp, .inl (by decide)⟩

theorem isLeaf_call : IsLeaf "failure()" :=
  ⟨[.word "failure".toList, .opening .round, .closing .round], _, _, rfl, rfl, rfl,
    by simp, by simp, .inr (by simp)⟩

theorem isLeaf_input : IsLeaf "inputs.force" :=
  ⟨[.word "inputs.force".toList], _, _, rfl, rfl, rfl, by simp, by simp, .inr (by simp)⟩

theorem composed_spared : spared.Composed := by
  refine .not (.conj (List.cons_ne_nil _ _) (List.forall_mem_cons.mpr
    ⟨.raw isLeaf_comparison, List.forall_mem_singleton.mpr (.or (List.cons_ne_nil _ _)
      (List.forall_mem_cons.mpr ⟨.raw isLeaf_call, List.forall_mem_singleton.mpr ?_⟩))⟩))
  exact .not (.raw isLeaf_input)

theorem spared_faithful :
    spared.Composed ∧ spared.text = "!(github.ref == 'main' && (failure() || !inputs.force))"
      ∧ read spared.text = some (spared.expression atomOf)
      ∧ ∀ v : Valuation, v.holdsText spared.text
        = !(v.holdsText "github.ref == 'main'"
          && (v.holdsText "failure()" || !v.holdsText "inputs.force")) := by
  obtain ⟨hread, -, hholds⟩ := composed_spared.text_faithful
  refine ⟨composed_spared, rfl, hread, fun v => ?_⟩
  rw [hholds, spared, holds_not, holds_conj]
  simp

end Condition

end AgentGate
