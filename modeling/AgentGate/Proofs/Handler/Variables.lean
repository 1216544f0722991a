import AgentGate.Handler.Step
import AgentGate.Proofs.Table

/-!
# The variables of a script

The environment of a script is put together from three lists, of which the last entry of a name
counts. No name occurs twice in them, so that every variable holds what its entry says, and is
missing where the entry has no value.

- `HandlerStep.writtenVariables`: the names in the first two lists, which the type alone decides.
- `HandlerStep.readVariables`: the names under which outputs of other jobs are read.
- `HandlerStep.get?_envOf`: the value of a variable is that of its entry.
-/

namespace AgentGate.HandlerStep

variable {type : OutputType} {settings : OutputSettings} {w : Workflow} {ctx : HandlerContext}
  {key : String} {given : Option String}

/-- The variables of a type in which no output of a job is read, with a value or without. -/
def writtenVariables (type : OutputType) : List String :=
  (commonEnv {} {} default ++ ownEnv type {} {} default).map Prod.fst

/-- The variables in which outputs of handler jobs are read. -/
def itemVariables : List String :=
  "GH_AW_TEMPORARY_ID_MAP" :: createdItems.map fun item => item.2.1

/-- The variables in which outputs of jobs are read. -/
def readVariables : List String :=
  itemVariables ++ ["GH_AW_COMMENT_ID", "GH_AW_COMMENT_REPO"]

theorem map_fst_written (type : OutputType) (settings : OutputSettings) (w : Workflow)
    (ctx : HandlerContext) :
    (commonEnv settings w ctx ++ ownEnv type settings w ctx).map Prod.fst
      = writtenVariables type := by
  cases type <;> rfl

theorem fst_mem_writtenVariables {entry : String × Option String}
    (h : entry ∈ commonEnv settings w ctx ++ ownEnv type settings w ctx) :
    entry.1 ∈ writtenVariables type :=
  map_fst_written type settings w ctx ▸ List.mem_map_of_mem h

theorem nodup_writtenVariables (type : OutputType) : (writtenVariables type).Nodup := by
  have hall : ∀ type ∈ OutputType.all, (writtenVariables type).Nodup := by
    decide +kernel
  exact hall type (OutputType.mem_all type)

theorem not_mem_readVariables (h : key ∈ writtenVariables type) : key ∉ readVariables := by
  have hall : ∀ type ∈ OutputType.all, ∀ key ∈ writtenVariables type, key ∉ readVariables := by
    decide +kernel
  exact hall type (OutputType.mem_all type) key h

theorem mem_readVariables {entry : String × OutputRef} (h : entry ∈ reads type w ctx) :
    entry.1 ∈ readVariables := by
  rw [reads, itemReads, List.mem_append, List.mem_append] at h
  rw [readVariables, List.mem_append]
  rcases h with (hcreated | hids) | hcomment
  · split at hcreated
    case isTrue =>
      obtain ⟨item, hitem, rfl⟩ := List.mem_map.mp hcreated
      exact .inl (List.mem_cons_of_mem _ (List.mem_map_of_mem (List.mem_of_mem_filter hitem)))
    case isFalse => cases hcreated
  · split at hids
    case isTrue =>
      obtain ⟨ref, -, rfl⟩ := List.mem_map.mp hids
      exact .inl List.mem_cons_self
    case isFalse => cases hids
  · rw [commentReads] at hcomment
    split at hcomment
    case isTrue => rcases List.mem_pair.mp hcomment with rfl | rfl <;> exact .inr (by decide)
    case isFalse => cases hcomment

/-- **A variable holds what its entry says**, and is missing where the entry has no value. -/
theorem get?_envOf (h : (key, given) ∈ commonEnv settings w ctx ++ ownEnv type settings w ctx) :
    (envOf type settings w ctx).get? key = given := by
  refine Table.get?_ofList_values (List.mem_append_left _ h) fun other hother => ?_
  rcases List.mem_append.mp hother with hother | hread
  · have hnodup := nodup_writtenVariables type
    rw [← map_fst_written type settings w ctx] at hnodup
    exact (Prod.mk.inj (List.inj_on_of_nodup_map hnodup hother h rfl)).2
  · obtain ⟨entry, hentry, heq⟩ := List.mem_map.mp hread
    obtain ⟨rfl, -⟩ := Prod.mk.inj heq
    exact absurd (mem_readVariables hentry) (not_mem_readVariables (fst_mem_writtenVariables h))

end AgentGate.HandlerStep
