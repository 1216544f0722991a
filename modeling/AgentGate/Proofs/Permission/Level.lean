import AgentGate.Permission.Basic
import Mathlib.Order.Lattice
import Mathlib.Order.MinMax

/-!
# Grants by their levels

Levels are linearly ordered, and a merge of grants takes the higher level on each scope. Whether a
grant mentions a scope at `none` or leaves it out makes no difference to its levels; for grants that
never mention a scope in vain the levels are all there is.

- `Permissions.get_merge_eq_max`: a merge takes the higher of two levels.
- `Permissions.filter_level?`: the scopes above a bound are found by their levels.
- `Permissions.Concise`: the grants that mention only scopes to which they give access.
- `Permissions.Concise.eq_of_get`: two such grants with the same levels are the same.
-/

namespace AgentGate

namespace Level

theorem rank_injective : Function.Injective rank := by
  intro a b h
  cases a <;> cases b <;> first | rfl | cases h

instance : LinearOrder Level where
  le := (· ≤ ·)
  lt := (· < ·)
  le_refl a := Nat.le_refl a.rank
  le_trans a b c := Nat.le_trans (n := a.rank)
  lt_iff_le_not_ge _ _ := Nat.lt_iff_le_and_not_ge
  le_antisymm _ _ h h' := rank_injective (Nat.le_antisymm h h')
  le_total a b := Nat.le_total a.rank b.rank
  toDecidableLE := inferInstance
  toDecidableLT := inferInstance
  toDecidableEq := inferInstance

theorem none_le (level : Level) : Level.none ≤ level :=
  Nat.zero_le level.rank

theorem not_lt_none (level : Level) : ¬ level < Level.none :=
  Nat.not_lt_zero level.rank

theorem none_lt_iff {level : Level} : Level.none < level ↔ level ≠ .none :=
  (none_le level).lt_iff_ne'

end Level

namespace Permissions

variable {α : Type} {p q : Permissions} {f : α → Permissions} {items : List α} {scope : Scope}
  {bound : Level}

theorem get_of_level? {level : Level} (h : p.level? scope = some level) : p.get scope = level := by
  rw [get, h, Option.getD_some]

/-- What is granted is mentioned. -/
theorem level?_of_lt_get (h : Level.none < p.get scope) : p.level? scope = some (p.get scope) := by
  cases hlevel : p.level? scope with
  | none =>
    rw [get, hlevel] at h
    exact absurd h (Level.not_lt_none _)
  | some level => rw [get_of_level? hlevel]

theorem get_merge_eq_max (p q : Permissions) (scope : Scope) :
    (p.merge q).get scope = max (p.get scope) (q.get scope) := by
  rw [get_merge, max_def_lt]

/-- Merged grants lie above a bound when one of them does. -/
theorem lt_get_foldl_merge_iff :
    bound < (items.foldl (fun p item => p.merge (f item)) p).get scope
      ↔ bound < p.get scope ∨ ∃ item ∈ items, bound < (f item).get scope := by
  induction items generalizing p with
  | nil => simp only [List.foldl_nil, List.not_mem_nil, false_and, exists_false, or_false]
  | cons item rest ih =>
    rw [List.foldl_cons, ih, get_merge_eq_max, lt_max_iff, or_assoc]
    simp only [List.mem_cons, exists_eq_or_imp]

@[simp] theorem merge_empty (p : Permissions) : p.merge ∅ = p := rfl

/-- A scope that lies above a bound is mentioned at its level; one that is not mentioned lies above
no bound. -/
theorem filter_level? (p : Permissions) (scope : Scope) (bound : Level) :
    (p.level? scope).filter (fun level => bound < level)
      = if bound < p.get scope then some (p.get scope) else none := by
  cases h : p.level? scope with
  | none =>
    have hnone : p.get scope = .none := by rw [get, h, Option.getD_none]
    rw [hnone, if_neg bound.not_lt_none]
    rfl
  | some level =>
    rw [get_of_level? h, Option.filter_some]
    simp only [decide_eq_true_eq]

theorem eq_empty_iff_level? : p = ∅ ↔ ∀ scope, p.level? scope = none :=
  ⟨fun h _ => h ▸ rfl, fun h => Permissions.ext (funext h)⟩

/-! ## Grants without idle mentions -/

/-- Only scopes to which the grant gives access are mentioned. -/
def Concise (p : Permissions) : Prop :=
  ∀ scope, p.level? scope ≠ some .none

theorem concise_empty : (∅ : Permissions).Concise :=
  fun _ => nofun

/-- A merge mentions nothing new in vain, since `none` raises no scope. -/
theorem Concise.merge (hp : p.Concise) (q : Permissions) : (p.merge q).Concise := by
  intro scope h
  simp only [Permissions.merge] at h
  split at h
  case h_1 level hlevel =>
    split at h
    case isTrue hraise =>
      obtain rfl := Option.some.inj h
      exact Level.not_lt_none _ hraise
    case isFalse => exact hp scope h
  case h_2 => exact hp scope h

theorem Concise.foldl_merge (hp : p.Concise) (items : List α) :
    (items.foldl (fun p item => p.merge (f item)) p).Concise := by
  induction items generalizing p with
  | nil => exact hp
  | cons item rest ih => exact ih (hp.merge (f item))

theorem Concise.level?_eq (hp : p.Concise) (scope : Scope) :
    p.level? scope = if p.get scope = .none then none else some (p.get scope) := by
  cases h : p.level? scope with
  | none => rw [get, h, Option.getD_none, if_pos rfl]
  | some level =>
    rw [get_of_level? h, if_neg fun hnone => hp scope (by rw [h, hnone])]

/-- The levels are all there is to a grant that mentions no scope in vain. -/
theorem Concise.eq_of_get (hp : p.Concise) (hq : q.Concise)
    (h : ∀ scope, p.get scope = q.get scope) : p = q :=
  Permissions.ext (funext fun scope => by rw [hp.level?_eq, hq.level?_eq, h])

end Permissions

end AgentGate
