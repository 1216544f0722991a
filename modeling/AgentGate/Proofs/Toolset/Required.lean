import AgentGate.Permission.Toolset
import AgentGate.Proofs.Permission.Level
import Mathlib.Data.List.Basic

/-!
# What toolsets require

The least permissions for a list of toolsets are collected by merging those of one toolset after the
other. Scope by scope the order of the merges does not show: a level is required when some named
toolset needs it. Since nothing is mentioned in vain, the names as a set decide the whole grant.

- `Toolset.find?_eq_some_iff`: the toolsets that are found are the known ones.
- `Toolset.need`: the level that named toolsets need on a scope, said without merging.
- `Toolset.get_required`: this is the level that is required.
- `Toolset.required_congr`: the required permissions depend on the set of names alone.
-/

namespace AgentGate.Toolset

variable {texts names names' : List String} {name : String} {toolset : Toolset} {readOnly : Bool}
  {scope : Scope} {bound : Level}

/-! ## Names and toolsets -/

/-- A list stands for the names that one of its entries stands for. -/
theorem mem_expand_iff : name ∈ expand texts ↔ ∃ text ∈ texts, name ∈ expandEntry text := by
  rw [expand, List.mem_eraseDups, List.mem_flatMap]

theorem find?_eq_some_iff : find? name = some toolset ↔ toolset ∈ known ∧ toolset.name = name := by
  constructor
  · intro h
    have hname := List.find?_some h
    exact ⟨List.mem_of_find?_eq_some h, of_decide_eq_true hname⟩
  · rintro ⟨hknown, rfl⟩
    -- No two toolsets have the same name.
    have hown : ∀ toolset ∈ known, find? toolset.name = some toolset := by decide
    exact hown toolset hknown

/-- What a toolset writes it also reads. -/
theorem reads_of_writes (h : toolset ∈ known) (hwrites : scope ∈ toolset.writes) :
    scope ∈ toolset.reads := by
  have hall : ∀ toolset ∈ known, ∀ scope ∈ toolset.writes, scope ∈ toolset.reads := by decide
  exact hall toolset h scope hwrites

/-! ## One toolset -/

/-- Fixing several scopes at one level changes these and no others. -/
theorem get_foldl_set (scopes : List Scope) (level : Level) (p : Permissions) :
    (scopes.foldl (fun p other => p.set other level) p).get scope
      = if scope ∈ scopes then level else p.get scope := by
  induction scopes generalizing p with
  | nil => rfl
  | cons first rest ih =>
    rw [List.foldl_cons, ih, Permissions.get_set]
    by_cases hrest : scope ∈ rest
    · rw [if_pos hrest, if_pos (List.mem_cons_of_mem first hrest)]
    · simp only [hrest, if_false, List.mem_cons, or_false]

/-- A toolset needs `write` on what it writes, unless nothing is to be written, and `read` on the
rest of what it reads. -/
theorem get_permissions (toolset : Toolset) (readOnly : Bool) (scope : Scope) :
    (toolset.permissions readOnly).get scope
      = if readOnly = false ∧ scope ∈ toolset.writes then .write
        else if scope ∈ toolset.reads then .read else .none := by
  have hreads : (Permissions.ofList (toolset.reads.map fun scope => (scope, Level.read))).get scope
      = if scope ∈ toolset.reads then .read else .none := by
    rw [Permissions.ofList, List.foldl_map, get_foldl_set]
    rfl
  rw [permissions]
  cases readOnly with
  | true => simpa using hreads
  | false => simpa [get_foldl_set] using congrArg (ite (scope ∈ toolset.writes) Level.write) hreads

/-! ## Several toolsets -/

/-- The level that named toolsets need on a scope: `write` when one of them writes it and writing is
allowed for, otherwise `read` when one of them reads it. -/
def need (names : List String) (readOnly : Bool) (scope : Scope) : Level :=
  if readOnly = false ∧ ∃ toolset ∈ known, toolset.name ∈ names ∧ scope ∈ toolset.writes then .write
  else if ∃ toolset ∈ known, toolset.name ∈ names ∧ scope ∈ toolset.reads then .read
  else .none

/-- A level chosen by two conditions lies above a bound when one of the conditions says so. -/
theorem lt_chosen_iff (writes reads : Prop) [Decidable writes] [Decidable reads] :
    bound < (if writes then .write else if reads then .read else .none)
      ↔ (writes ∧ bound < .write) ∨ (reads ∧ bound < .read) := by
  by_cases hwrites : writes
  · have hless : bound < .read → bound < .write := fun h => lt_trans h (by decide)
    rw [if_pos hwrites, and_iff_right hwrites]
    exact (or_iff_left_of_imp fun h => hless h.2).symm
  · rw [if_neg hwrites, or_iff_right fun h => hwrites h.1]
    by_cases hreads : reads
    · rw [if_pos hreads, and_iff_right hreads]
    · rw [if_neg hreads, iff_false_intro bound.not_lt_none, false_iff]
      exact fun h => hreads h.1

/-- What is needed lies above a bound when the need of one toolset does. -/
theorem lt_need_iff : bound < need names readOnly scope
    ↔ ∃ toolset ∈ known, toolset.name ∈ names
      ∧ bound < (toolset.permissions readOnly).get scope := by
  simp only [get_permissions, need, lt_chosen_iff]
  constructor
  · rintro (⟨⟨hwriting, toolset, hknown, hname, hwrites⟩, hbound⟩
      | ⟨⟨toolset, hknown, hname, hreads⟩, hbound⟩)
    · exact ⟨toolset, hknown, hname, .inl ⟨⟨hwriting, hwrites⟩, hbound⟩⟩
    · exact ⟨toolset, hknown, hname, .inr ⟨hreads, hbound⟩⟩
  · rintro ⟨toolset, hknown, hname, ⟨⟨hwriting, hwrites⟩, hbound⟩ | ⟨hreads, hbound⟩⟩
    · exact .inl ⟨⟨hwriting, toolset, hknown, hname, hwrites⟩, hbound⟩
    · exact .inr ⟨⟨toolset, hknown, hname, hreads⟩, hbound⟩

/-- The least permissions for one name, which are none for an unknown one. -/
def permissionsOf (readOnly : Bool) (name : String) : Permissions :=
  match find? name with
  | some toolset => toolset.permissions readOnly
  | none => ∅

theorem lt_get_permissionsOf_iff : bound < (permissionsOf readOnly name).get scope
    ↔ ∃ toolset, find? name = some toolset
      ∧ bound < (toolset.permissions readOnly).get scope := by
  rw [permissionsOf]
  cases find? name with
  | some toolset => simp only [Option.some.injEq, exists_eq_left']
  | none => exact iff_of_false (bound.not_lt_none) nofun

theorem required_eq (names : List String) (readOnly : Bool) : required names readOnly
    = names.foldl (fun p name => p.merge (permissionsOf readOnly name)) ∅ := by
  rw [required]
  congr 1
  funext p name
  rw [permissionsOf]
  cases find? name with
  | some toolset => rfl
  | none => exact p.merge_empty.symm

/-- **The required level on a scope is the one that the named toolsets need.** -/
theorem get_required (names : List String) (readOnly : Bool) (scope : Scope) :
    (required names readOnly).get scope = need names readOnly scope := by
  refine eq_of_forall_lt_iff fun bound => ?_
  rw [required_eq, Permissions.lt_get_foldl_merge_iff, lt_need_iff, Permissions.get_empty]
  simp only [bound.not_lt_none, false_or, lt_get_permissionsOf_iff, find?_eq_some_iff]
  constructor
  · rintro ⟨name, hname, toolset, ⟨hknown, rfl⟩, hbound⟩
    exact ⟨toolset, hknown, hname, hbound⟩
  · rintro ⟨toolset, hknown, hname, hbound⟩
    exact ⟨toolset.name, hname, toolset, ⟨hknown, rfl⟩, hbound⟩

theorem concise_required (names : List String) (readOnly : Bool) :
    (required names readOnly).Concise := by
  rw [required_eq]
  exact Permissions.concise_empty.foldl_merge names

theorem required_congr (h : ∀ name, name ∈ names ↔ name ∈ names') (readOnly : Bool) :
    required names readOnly = required names' readOnly := by
  refine (concise_required names readOnly).eq_of_get (concise_required names' readOnly)
    fun scope => ?_
  rw [get_required, get_required, need, need]
  simp only [h]

end AgentGate.Toolset
