import AgentGate.Permission.Reading
import AgentGate.Proofs.Json.Reader
import AgentGate.Proofs.Json.Reading

/-!
# Written grants

A grant is a function on scopes, and is written as a list of those that it mentions. Since each
scope and each level has a name of its own, the list can be read again.

- `Permissions.readEntry_name`: one entry of the list.
- `Permissions.ofList_entries`: the list is all there is to a grant.
- `Permissions.ofJson_toJson`: a grant is read from what is written of it.
-/

namespace AgentGate

open Json

theorem Scope.ofName_name (scope : Scope) : Scope.ofName scope.name = .ok scope := by
  cases scope <;> rfl

theorem Scope.name_injective : Function.Injective Scope.name := by
  intro first second h
  have heq := ofName_name first
  rw [h, ofName_name second] at heq
  exact (Except.ok.inj heq).symm

theorem Level.ofName_name (level : Level) : Level.ofName level.name = .ok level := by
  cases level <;> rfl

namespace Permissions

theorem readEntry_name (scope : Scope) (level : Level) :
    readEntry (scope.name, .text level.name) = .ok (scope, level) := by
  rw [readEntry, Scope.ofName_name, Level.ofJson, Level.ofWord, Level.ofName_name]
  rfl

/-- Fixing what a grant says of some scopes changes nothing else. -/
theorem level?_foldl_set (p start : Permissions) (scopes : List Scope) (scope : Scope) :
    ((scopes.filterMap fun other => (p.level? other).map fun level => (other, level)).foldl
        (fun grant entry => grant.set entry.1 entry.2) start).level? scope
      = if scope ∈ scopes then (p.level? scope).or (start.level? scope)
        else start.level? scope := by
  induction scopes generalizing start with
  | nil => rfl
  | cons first rest ih =>
    cases hfirst : p.level? first with
    | none =>
      simp only [List.filterMap_cons, hfirst, Option.map_none]
      rw [ih]
      by_cases heq : scope = first
      · subst heq
        rw [if_pos List.mem_cons_self, hfirst, Option.none_or, ite_self]
      · simp only [List.mem_cons, heq, false_or]
    | some level =>
      have hset : (start.set first level).level? scope
          = if scope = first then some level else start.level? scope := rfl
      simp only [List.filterMap_cons, hfirst, Option.map_some, List.foldl_cons]
      rw [ih, hset]
      by_cases heq : scope = first
      · subst heq
        rw [if_pos List.mem_cons_self, if_pos rfl, hfirst, Option.some_or, Option.some_or, ite_self]
      · simp only [List.mem_cons, heq, false_or, if_false]

/-- A grant is made of what it mentions. -/
theorem ofList_entries (p : Permissions) : ofList p.entries = p := by
  refine Permissions.ext (funext fun scope => ?_)
  rw [ofList, entries, level?_foldl_set, if_pos scope.mem_all]
  exact Option.or_none

/-- A grant is read from the scopes that it mentions. -/
theorem ofJson_toJson (p : Permissions) : ofJson p.toJson = .ok p := by
  have hentries : (p.entries.map fun entry => (entry.1.name, text entry.2.name)).mapM readEntry
      = .ok p.entries :=
    mapM_map_eq_ok fun entry _ => readEntry_name entry.1 entry.2
  have htable : readTable p.toJson = .ok p := by
    rw [toJson, readTable, hentries]
    exact congrArg Except.ok p.ofList_entries
  rw [toJson, ofJson, ← toJson, htable]
  · rfl
  all_goals nofun

theorem exact_toJson (p : Permissions) : p.toJson.Exact := by
  refine .object fun entry hentry => ?_
  obtain ⟨entry, -, rfl⟩ := List.mem_map.mp hentry
  exact .text entry.2.name

end Permissions

end AgentGate
